import Nvr.Storage.Basket

/-!
# Asking a fragment for a stretch of time

`strg_basket_query`. A fragment that the window does not contain is asked for
the I-frames at the ends of the window. The loop over the index for the window's
begin runs forwards. The one for its end begins with the last record of the
fragment and runs forwards too, so nothing but what it reads ends it.
-/

namespace Nvr.Storage

/-- How a loop over the index ends: at a record, at its bound, with a record
that cannot be read, or not at all within the rounds it was given. -/
inductive IndexScan where
  | found (i : Int32) (r : BasketIFrame)
  | passed
  | failed
  | running
  deriving DecidableEq, Repr

/-- A loop with the slots that it has read. -/
structure IndexLoop where
  slots : List Int32
  scan : IndexScan
  deriving DecidableEq, Repr

/-- One more slot read before a loop. -/
def IndexLoop.after (slot : Int32) (l : IndexLoop) : IndexLoop := ⟨slot :: l.slots, l.scan⟩

/-- The loop for the begin of the window, from `i` on. -/
def scanBegin (dev : Dev) (idx : Nat) (bf : BasketFragment) (beginTime : Int32) :
    Nat → Int32 → IndexLoop
  | 0, _ => ⟨[], .running⟩
  | rounds + 1, i =>
      if i < bf.iframeNum then
        match strgBasketReadIframe dev idx (bf.firstIframeIdx + i) with
        | none => ⟨[bf.firstIframeIdx + i], .failed⟩
        | some r =>
            if r.ts.tvSec > beginTime then ⟨[bf.firstIframeIdx + i], .found i r⟩
            else (scanBegin dev idx bf beginTime rounds (i + 1)).after (bf.firstIframeIdx + i)
      else ⟨[], .passed⟩

/-- The loop for the end of the window, from `i` on. -/
def scanEnd (dev : Dev) (idx : Nat) (bf : BasketFragment) (endTime : Int32) :
    Nat → Int32 → IndexLoop
  | 0, _ => ⟨[], .running⟩
  | rounds + 1, i =>
      if i ≥ 0 then
        match strgBasketReadIframe dev idx (bf.firstIframeIdx + i) with
        | none => ⟨[bf.firstIframeIdx + i], .failed⟩
        | some r =>
            if r.ts.tvSec > endTime then ⟨[bf.firstIframeIdx + i], .found i r⟩
            else (scanEnd dev idx bf endTime rounds (i + 1)).after (bf.firstIframeIdx + i)
      else ⟨[], .passed⟩

/-- What `strg_basket_query` comes to: -1, a report to the callback, or no end
within the rounds. -/
inductive QueryResult where
  | error
  | reported (rqi : RecordQueryInfo)
  | running
  deriving DecidableEq, Repr

structure QueryRun where
  slots : List Int32
  result : QueryResult
  deriving DecidableEq, Repr

/-- The result of a loop that does not come to its end. -/
def IndexScan.stops : IndexScan → Option QueryResult
  | .failed => some .error
  | .running => some .running
  | _ => none

/-- An index, a time and a position. -/
structure Edge where
  iframeIdx : Int32
  time : Int32
  framePos : Int32

/-- Where a report begins. -/
def IndexScan.beginEdge (bf : BasketFragment) : IndexScan → Edge
  | .found i r => ⟨if i > 0 then i - 1 else 0, r.ts.tvSec, r.framePos.toInt32⟩
  | _ => ⟨bf.firstIframeIdx, bf.beginTime, bf.beginFramePos.toInt32⟩

/-- Where a report ends. -/
def IndexScan.endEdge (bf : BasketFragment) : IndexScan → Edge
  | .found i r => ⟨bf.firstIframeIdx + i, r.ts.tvSec, r.framePos.toInt32⟩
  | _ => ⟨bf.firstIframeIdx + bf.iframeNum, bf.endTime,
      (bf.beginFramePos + bf.fragmentSize).toInt32⟩

/-- Whether a time is inside a fragment. -/
def BasketFragment.around (bf : BasketFragment) (t : Int32) : Bool :=
  t > bf.beginTime && t < bf.endTime

/-- The loop for the begin, if it is made. -/
def queryHead (rounds : Nat) (dev : Dev) (idx : Nat) (bf : BasketFragment) (beginTime : Int32) :
    IndexLoop :=
  if bf.around beginTime then scanBegin dev idx bf beginTime rounds 0 else ⟨[], .passed⟩

/-- The loop for the end, if it is made. -/
def queryTail (rounds : Nat) (dev : Dev) (idx : Nat) (bf : BasketFragment) (endTime : Int32) :
    IndexLoop :=
  if bf.around endTime then scanEnd dev idx bf endTime rounds (bf.iframeNum - 1)
  else ⟨[], .passed⟩

/-- `rqi`, with the edges that the loops have found. -/
def queryInfo (diskIdx : Int32) (bgi : BasketGlobalInfo) (bf : BasketFragment) (bfIdx : Int32)
    (first last : Edge) : RecordQueryInfo where
  chn := bgi.bg.chn
  diskIdx := diskIdx
  basketIdx := Int32.ofNat bgi.basketIdx
  bfIdx := bfIdx
  beginIframeIdx := first.iframeIdx
  iframeNum := last.iframeIdx - first.iframeIdx
  beginTime := first.time
  endTime := last.time
  fragmentSize := last.framePos - first.framePos
  recordType := bf.recordType

/-- `strg_basket_query` up to the call of `query_cb`, with at most `rounds`
rounds of each loop. -/
def strgBasketQuery (rounds : Nat) (dev : Dev) (diskIdx : Int32) (bgi : BasketGlobalInfo)
    (bf : BasketFragment) (bfIdx : Int32) (beginTime endTime : Int32) : QueryRun :=
  let opened := strgBasketOpen dev bgi.basketIdx
  if opened.1.isNone then ⟨[], .error⟩
  else
    let head := queryHead rounds opened.2 bgi.basketIdx bf beginTime
    match head.scan.stops with
    | some result => ⟨head.slots, result⟩
    | none =>
        let tail := queryTail rounds opened.2 bgi.basketIdx bf endTime
        match tail.scan.stops with
        | some result => ⟨head.slots ++ tail.slots, result⟩
        | none =>
            ⟨head.slots ++ tail.slots, .reported (queryInfo diskIdx bgi bf bfIdx
              (head.scan.beginEdge bf) (tail.scan.endEdge bf))⟩

end Nvr.Storage
