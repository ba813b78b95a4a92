import Nvr.Storage.BasketRead

/-!
# Moving the cursor of a reader

`strg_basket_read_seek` and `strg_basket_read_set`: from the record where the
cursor is to one so many records away, and to the record of a time. Both leave
the cursor where it is when a record cannot be read.
-/

namespace Nvr.Storage

/-- The cursor at the record `r` of a slot. -/
def BasketReadInfo.moveTo (bri : BasketReadInfo) (iframeIdx : Int32) (r : BasketIFrame) :
    BasketReadInfo :=
  { bri with iframeIdx := iframeIdx, readPos := r.framePos.toInt32 }

/-- Whether a call succeeds (0, or else -1), and the cursor after it. -/
abbrev Moved := Bool × BasketReadInfo

/-- The cursor at a slot, if its record can be read. -/
def moveToSlot (dev : Dev) (idx : Nat) (bri : BasketReadInfo) (iframeIdx : Int32) : Moved :=
  match strgBasketReadIframe dev idx iframeIdx with
  | none => (false, bri)
  | some r => (true, bri.moveTo iframeIdx r)

/-- The slot that `strg_basket_read_seek` goes to. -/
def seekIdx (bri : BasketReadInfo) (seekIframeOffset : Int32) : Int32 :=
  if bri.iframeIdx + seekIframeOffset ≥ bri.iframeIdx + bri.iframeNum then
    bri.iframeIdx + bri.iframeNum - 1
  else if bri.iframeIdx + seekIframeOffset < bri.beginIframeIdx then bri.beginIframeIdx
  else bri.iframeIdx + seekIframeOffset

def strgBasketReadSeek (dev : Dev) (bgi : BasketGlobalInfo) (bri : BasketReadInfo)
    (seekIframeOffset : Int32) : Moved :=
  moveToSlot dev bgi.basketIdx bri (seekIdx bri seekIframeOffset)

/-- The values of an `int`, which bound the rounds of a loop over them. -/
def indexRounds : Nat := 2 ^ 32

/-- The loop of `strg_basket_read_set` towards later records; `r₁` is the record
before `idx`. -/
def setForward (dev : Dev) (file : Nat) (bri : BasketReadInfo) (t : Int32) :
    Nat → Int32 → BasketIFrame → Moved
  | 0, _, _ => (false, bri)
  | rounds + 1, idx, r₁ =>
      if idx < bri.beginIframeIdx + bri.iframeNum then
        match strgBasketReadIframe dev file idx with
        | none => (false, bri)
        | some r₂ =>
            if r₂.ts.tvSec > t then (true, bri.moveTo (idx - 1) r₁)
            else if r₂.ts.tvSec = t then (true, bri.moveTo idx r₂)
            else setForward dev file bri t rounds (idx + 1) r₂
      else if idx = bri.beginIframeIdx + bri.iframeNum then
        (true, bri.moveTo (bri.beginIframeIdx + bri.iframeNum - 1) r₁)
      else (true, bri)

/-- The loop towards earlier records; `r₁` is the record behind `idx`. -/
def setBack (dev : Dev) (file : Nat) (bri : BasketReadInfo) (t : Int32) :
    Nat → Int32 → BasketIFrame → Moved
  | 0, _, _ => (false, bri)
  | rounds + 1, idx, r₁ =>
      if idx ≥ bri.beginIframeIdx then
        match strgBasketReadIframe dev file idx with
        | none => (false, bri)
        | some r₂ =>
            if r₂.ts.tvSec ≤ t then (true, bri.moveTo idx r₂)
            else setBack dev file bri t rounds (idx - 1) r₂
      else if idx = bri.beginIframeIdx - 1 then (true, bri.moveTo bri.beginIframeIdx r₁)
      else (true, bri)

/-- A time moved between those of the first and the last record. -/
def clampTime (beginTime endTime t : Int32) : Int32 :=
  let t := if t < beginTime then beginTime else t
  if t > endTime then endTime else t

/-- The slot where the search for a time begins. -/
def setIdx (bri : BasketReadInfo) (beginTime endTime t : Int32) : Int32 :=
  if endTime - beginTime > 0 then
    (t - beginTime) * (bri.iframeNum - 1) / (endTime - beginTime) + bri.beginIframeIdx
  else bri.beginIframeIdx

/-- The search for a time from the record `r` at `iframeIdx`. -/
def setFrom (dev : Dev) (file : Nat) (bri : BasketReadInfo) (t iframeIdx : Int32)
    (r : BasketIFrame) : Moved :=
  if r.ts.tvSec = t then (true, bri.moveTo iframeIdx r)
  else if r.ts.tvSec < t then setForward dev file bri t indexRounds (iframeIdx + 1) r
  else setBack dev file bri t indexRounds (iframeIdx - 1) r

def strgBasketReadSet (dev : Dev) (bgi : BasketGlobalInfo) (bri : BasketReadInfo) (t : Int32) :
    Moved :=
  let bf := bgi.bfList.getD bri.bf default
  if t ≤ bf.beginTime then moveToSlot dev bgi.basketIdx bri bri.beginIframeIdx
  else if t ≥ bf.endTime then
    moveToSlot dev bgi.basketIdx bri (bri.beginIframeIdx + bri.iframeNum - 1)
  else
    match strgBasketReadIframe dev bgi.basketIdx bri.beginIframeIdx,
      strgBasketReadIframe dev bgi.basketIdx (bri.beginIframeIdx + bri.iframeNum - 1) with
    | some first, some last =>
        let t := clampTime first.ts.tvSec last.ts.tvSec t
        let iframeIdx := setIdx bri first.ts.tvSec last.ts.tvSec t
        match strgBasketReadIframe dev bgi.basketIdx iframeIdx with
        | none => (false, bri)
        | some r => setFrom dev bgi.basketIdx bri t iframeIdx r
    | _, _ => (false, bri)

/-! ## The slots that are probed -/

/-- The slots that `setForward` reads. -/
def setForwardSlots (dev : Dev) (file : Nat) (bri : BasketReadInfo) (t : Int32) :
    Nat → Int32 → List Int32
  | 0, _ => []
  | rounds + 1, idx =>
      if idx < bri.beginIframeIdx + bri.iframeNum then
        idx :: match strgBasketReadIframe dev file idx with
          | none => []
          | some r₂ =>
              if r₂.ts.tvSec > t then []
              else if r₂.ts.tvSec = t then []
              else setForwardSlots dev file bri t rounds (idx + 1)
      else []

/-- The slots that `setBack` reads. -/
def setBackSlots (dev : Dev) (file : Nat) (bri : BasketReadInfo) (t : Int32) :
    Nat → Int32 → List Int32
  | 0, _ => []
  | rounds + 1, idx =>
      if idx ≥ bri.beginIframeIdx then
        idx :: match strgBasketReadIframe dev file idx with
          | none => []
          | some r₂ =>
              if r₂.ts.tvSec ≤ t then [] else setBackSlots dev file bri t rounds (idx - 1)
      else []

/-- The slots that `setFrom` reads. -/
def setFromSlots (dev : Dev) (file : Nat) (bri : BasketReadInfo) (t iframeIdx : Int32)
    (r : BasketIFrame) : List Int32 :=
  if r.ts.tvSec = t then []
  else if r.ts.tvSec < t then setForwardSlots dev file bri t indexRounds (iframeIdx + 1)
  else setBackSlots dev file bri t indexRounds (iframeIdx - 1)

/-- The slots that `strg_basket_read_set` reads, in order. -/
def strgBasketReadSetSlots (dev : Dev) (bgi : BasketGlobalInfo) (bri : BasketReadInfo)
    (t : Int32) : List Int32 :=
  let bf := bgi.bfList.getD bri.bf default
  let lastIdx := bri.beginIframeIdx + bri.iframeNum - 1
  if t ≤ bf.beginTime then [bri.beginIframeIdx]
  else if t ≥ bf.endTime then [lastIdx]
  else
    bri.beginIframeIdx :: match strgBasketReadIframe dev bgi.basketIdx bri.beginIframeIdx with
      | none => []
      | some first =>
          lastIdx :: match strgBasketReadIframe dev bgi.basketIdx lastIdx with
            | none => []
            | some last =>
                let t := clampTime first.ts.tvSec last.ts.tvSec t
                let iframeIdx := setIdx bri first.ts.tvSec last.ts.tvSec t
                iframeIdx :: match strgBasketReadIframe dev bgi.basketIdx iframeIdx with
                  | none => []
                  | some r => setFromSlots dev bgi.basketIdx bri t iframeIdx r

/-! ## A session -/

/-- What a session may be asked. -/
inductive ReadCall where
  | read (cmd : StorageReadCmd) (buffLen : Int32)
  | set (t : Int32)
  | seek (seekIframeOffset : Int32)

/-- A session with where the frames it has delivered start, and the slots at
which it was after each call that positions it on an I-frame. -/
structure Session where
  bri : BasketReadInfo
  delivered : List Int
  positioned : List Int32

/-- Where a frame of `data` starts that the cursor has just passed. -/
def frameStart (bri : BasketReadInfo) (data : List UInt8) : Int :=
  bri.readPos.toInt - (basketFrameLen + data.length : Nat)

namespace Session

variable (w : Session)

/-- `strg_basket_read`. Only the commands along the index position the cursor. -/
def read (dev : Dev) (bgi : BasketGlobalInfo) (cmd : StorageReadCmd) (buffLen : Int32) : Session :=
  match strgBasketRead dev bgi w.bri cmd buffLen with
  | (.frame _ data, bri) =>
      { bri := bri
        delivered := frameStart bri data :: w.delivered
        positioned :=
          if cmd.iframeOft.isSome then bri.iframeIdx :: w.positioned else w.positioned }
  | (_, bri) => { w with bri := bri }

/-- A call that moves the cursor. -/
def move : Moved → Session
  | (true, bri) => { w with bri := bri, positioned := bri.iframeIdx :: w.positioned }
  | (false, bri) => { w with bri := bri }

def call (dev : Dev) (bgi : BasketGlobalInfo) : ReadCall → Session
  | .read cmd buffLen => w.read dev bgi cmd buffLen
  | .set t => w.move (strgBasketReadSet dev bgi w.bri t)
  | .seek off => w.move (strgBasketReadSeek dev bgi w.bri off)

end Session

end Nvr.Storage
