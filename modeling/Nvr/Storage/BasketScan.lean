import Nvr.Storage.Basket

/-!
# Recovering a basket from its file

`strg_basket_scan` and what it is made of. A fragment that was being written
when the power went is recognised by its status; what it holds is found out
from its index records, one after the other. Frames behind the last record
found are given up.
-/

namespace Nvr.Storage

/-- The tests that an index record has to pass to be counted, against the first
record of the fragment. -/
def scanAccepts (bf : BasketFragment) (bif₁ bif₃ : BasketIFrame) : Bool :=
  if bif₃.useCnt ≠ bf.useCnt then false
  else if bif₃.ts.tvSec - bif₁.ts.tvSec < 0 ∨ bif₃.ts.tvSec - bif₁.ts.tvSec > 10 then false
  else if bif₃.frameNo ≤ bif₁.frameNo ∨ bif₃.frameNo - bif₁.frameNo > 200 then false
  else true

/-- The loop of `strg_basket_scan_iframe`: `iframe_num` and `bif2` where it
stops. -/
def scanIframes (dev : Dev) (idx : Nat) (bf : BasketFragment) (bif₁ : BasketIFrame) :
    Nat → Int32 → Int32 → BasketIFrame → Int32 × BasketIFrame
  | 0, iframeNum, _, bif₂ => (iframeNum, bif₂)
  | fuel + 1, iframeNum, bifNum, bif₂ =>
      match strgBasketReadIframe dev idx (bf.firstIframeIdx + bifNum) with
      | none => (iframeNum, bif₂)
      | some bif₃ =>
          if scanAccepts bf bif₁ bif₃ then
            scanIframes dev idx bf bif₁ fuel (iframeNum + 1) (bifNum + 1) bif₃
          else (iframeNum, bif₂)

/-- Rounds enough for every index record that a basket file has room for. -/
def scanRounds : Nat := basketSize / basketIframeLen + 1

/-- The fragment that the records from `bif₁` to `bif₂` make up. -/
def BasketFragment.recovered (bf : BasketFragment) (iframeNum : Int32)
    (bif₁ bif₂ : BasketIFrame) : BasketFragment :=
  { bf with
    status := useStatusIdle
    endTime := bif₂.ts.tvSec
    totalFrameCnt := bif₂.frameNo - bif₁.frameNo
    iframeNum := iframeNum
    fragmentSize := bif₂.framePos - bif₁.framePos }

/-- `strg_basket_scan_iframe`: the fragment as it leaves it, `none` for -1. -/
def strgBasketScanIframe (dev : Dev) (idx : Nat) (bf : BasketFragment) : Option BasketFragment :=
  if bf.status &&& useStatusWriting = 0 then some bf
  else
    match strgBasketReadIframe dev idx bf.firstIframeIdx with
    | none => none
    | some bif₁ =>
        if bif₁.useCnt ≠ bf.useCnt then none
        else if bif₁.ts.tvSec - bf.beginTime < 0 ∨ bif₁.ts.tvSec - bf.beginTime > 10 then none
        else
          let scanned := scanIframes dev idx bf bif₁ scanRounds 0 1 bif₁
          if scanned.1 = 0 then none
          else some (bf.recovered scanned.1 bif₁ scanned.2)

/-- A loaded fragment joins the list and the sums of its basket. -/
def BasketGlobalInfo.loadFragment (bgi : BasketGlobalInfo) (bf : BasketFragment) :
    BasketGlobalInfo :=
  { bgi with
    bfList := bgi.bfList ++ [{ bf with status := useStatusIdle }]
    freeSpace := bgi.freeSpace - bf.fragmentSize
    freeIframe := bgi.freeIframe - bf.iframeNum.toUInt32
    beginTime :=
      if bgi.beginTime > bf.beginTime ∨ bgi.beginTime = 0 then bf.beginTime else bgi.beginTime
    endTime := if bgi.endTime < bf.endTime then bf.endTime else bgi.endTime
    recordType := bgi.recordType ||| bf.recordType }

/-- The loop of `strg_basket_scan` from fragment `bfIdx` on, `n` of them. -/
def scanFragments (dev : Dev) (bgi : BasketGlobalInfo) : Nat → Nat → Dev × BasketGlobalInfo
  | 0, _ => (dev, bgi)
  | n + 1, bfIdx =>
      match strgBasketReadFragment dev bgi.basketIdx bfIdx with
      | none => (dev, bgi)
      | some bf =>
          if bf.status &&& useStatusWriting ≠ 0 then
            match strgBasketScanIframe dev bgi.basketIdx bf with
            | none => (dev, bgi)
            | some bf =>
                let written := strgBasketWriteFragment dev bgi.basketIdx bf bfIdx
                scanFragments written.2 { bgi.loadFragment bf with updateFlag := true } n
                  (bfIdx + 1)
          else scanFragments dev (bgi.loadFragment bf) n (bfIdx + 1)

/-- The header of a basket that nobody uses. -/
def BasketGlobal.unused : BasketGlobal where
  magic := basketGlobalMagic
  useCnt := 0
  status := useStatusIdle
  chn := -1
  fragmentNum := 0

/-- `BASKET_GLOBAL_INFO_ALLOC`, with the index set. -/
def BasketGlobalInfo.alloc (idx : Nat) : BasketGlobalInfo where
  basketIdx := idx
  updateFlag := false
  bg := ⟨0, 0, 0, 0, 0⟩
  bfList := []
  readRef := 0
  freeSpace := 0
  freeIframe := 0
  beginTime := 0
  endTime := 0
  recordType := 0

/-- The basket with both areas free. -/
def BasketGlobalInfo.vacant (bgi : BasketGlobalInfo) (bg : BasketGlobal) : BasketGlobalInfo :=
  { bgi with
    bg := bg
    freeSpace := UInt32.ofNat basketFrameSize
    freeIframe := UInt32.ofNat basketIframeNum }

/-- `strg_basket_scan` of a basket freshly allocated: `none` for -1. -/
def strgBasketScan (dev : Dev) (bgi : BasketGlobalInfo) : Option BasketGlobalInfo × Dev :=
  if dev.env.openOk dev.tick then
    let dev := dev.wait
    match strgBasketReadGlobal dev bgi.basketIdx with
    | none =>
        let global := strgBasketWriteGlobal dev bgi.basketIdx .unused
        (if global.1 then some (bgi.vacant .unused) else none, global.2)
    | some bg =>
        let scanned := scanFragments dev (bgi.vacant bg) bg.fragmentNum.toNat 0
        let bgi := scanned.2
        if bgi.bg.status ≠ useStatusIdle ∨
            bgi.bg.fragmentNum ≠ UInt32.ofNat bgi.bfList.length then
          let bg := { bgi.bg with
            status := useStatusIdle
            fragmentNum := UInt32.ofNat bgi.bfList.length }
          let global := strgBasketWriteGlobal scanned.1 bgi.basketIdx bg
          (some { bgi with bg := bg, updateFlag := true }, global.2)
        else (some bgi, scanned.1)
  else (none, dev.wait)

/-- `strg_basket_scan_fragment`: whether it succeeded, the fragment it found,
the basket header where it was taken over, and the disk. -/
def strgBasketScanFragment (dev : Dev) (bgi : BasketGlobalInfo) (bfIdx : Nat) :
    Option (BasketFragment × BasketGlobalInfo) × Dev :=
  if dev.env.openOk dev.tick then
    let dev := dev.wait
    match strgBasketReadGlobal dev bgi.basketIdx with
    | none => (none, dev)
    | some bg =>
        if bfIdx < bg.fragmentNum.toNat then
          match strgBasketReadFragment dev bgi.basketIdx bfIdx with
          | none => (none, dev)
          | some bf =>
              match strgBasketScanIframe dev bgi.basketIdx bf with
              | none => (none, dev)
              | some bf =>
                  let fragment := strgBasketWriteFragment dev bgi.basketIdx bf bfIdx
                  if bg.status &&& useStatusWriting ≠ 0 then
                    let bg := { bg with status := useStatusIdle }
                    let global := strgBasketWriteGlobal fragment.2 bgi.basketIdx bg
                    (if fragment.1 && global.1 then some (bf, { bgi with bg := bg }) else none,
                      global.2)
                  else (if fragment.1 then some (bf, bgi) else none, fragment.2)
        else (none, dev)
  else (none, dev.wait)

end Nvr.Storage
