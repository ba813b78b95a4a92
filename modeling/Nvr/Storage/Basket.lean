import Nvr.Storage.BasketFile

/-!
# Recording into one basket

The write half of `strg_basket.c`: `strg_basket_write_start` opens a fragment,
`strg_basket_write` appends frames to it and `strg_basket_write_stop` closes
it; `strg_basket_reset` empties the basket for another owner. Each of them may
find any of its file writes failing, and the order of what it does to memory
and to the file around such a failure is kept from the source.

Return values are those of the source: `-1` for an error, `0`, or the number
of bytes taken.
-/

namespace Nvr.Storage

/-- What a `BasketFileInfo *` reaches: the disk it is on, the basket and the
open file. -/
structure Basket where
  dev : Dev
  bgi : BasketGlobalInfo
  bfi : BasketFileInfo

def strgBasketNewFragment (bgi : BasketGlobalInfo) (firstIframeIdx : Int32)
    (beginFramePos : UInt32) (recordType : RecordType) (now : Int32) : BasketFragment where
  magic := basketFragmentMagic
  status := useStatusIdle
  useCnt := bgi.bg.useCnt
  beginTime := now
  endTime := now
  totalFrameCnt := 0
  firstIframeIdx := firstIframeIdx
  iframeNum := 0
  beginFramePos := beginFramePos
  fragmentSize := 0
  recordType := recordType ||| recordVideo

def strgBasketCreateFragment (bgi : BasketGlobalInfo) (recordType : RecordType)
    (now : Int32) : Option BasketFragment :=
  if bgi.freeSpace < basketSpaceMin ∨ bgi.bg.fragmentNum = UInt32.ofNat basketFragmentNum ∨
      bgi.freeIframe < basketIframeMin then none
  else if bgi.bg.fragmentNum = UInt32.ofNat basketFragmentNum then none
  else
    match bgi.bfList.getLast? with
    | some bf =>
        some (strgBasketNewFragment bgi (bf.firstIframeIdx + bf.iframeNum)
          (bf.beginFramePos + bf.fragmentSize) recordType now)
    | none =>
        some (strgBasketNewFragment bgi 0 (UInt32.ofNat basketFrameOft) recordType now)

/-- `status |= USE_STATUS_WRITING`. -/
def BasketFragment.setWriting (bf : BasketFragment) : BasketFragment :=
  { bf with status := bf.status ||| useStatusWriting }

/-- `status &= ~USE_STATUS_WRITING`. -/
def BasketFragment.clearWriting (bf : BasketFragment) : BasketFragment :=
  { bf with status := bf.status &&& ~~~useStatusWriting }

/-- The header while one more fragment is being added. -/
def BasketGlobal.addFragment (bg : BasketGlobal) : BasketGlobal :=
  { bg with status := bg.status ||| useStatusWriting, fragmentNum := bg.fragmentNum + 1 }

/-- `addFragment` taken back. -/
def BasketGlobal.dropFragment (bg : BasketGlobal) : BasketGlobal :=
  { bg with status := bg.status &&& ~~~useStatusWriting, fragmentNum := bg.fragmentNum - 1 }

def BasketGlobal.clearWriting (bg : BasketGlobal) : BasketGlobal :=
  { bg with status := bg.status &&& ~~~useStatusWriting }

/-- The basket once a new fragment and its header are in the file. -/
def BasketGlobalInfo.addFragment (bgi : BasketGlobalInfo) (bf : BasketFragment)
    (recordType : RecordType) : BasketGlobalInfo :=
  { bgi with
    bg := bgi.bg.addFragment
    recordType := bgi.recordType ||| recordType
    bfList := bgi.bfList ++ [bf] }

def strgBasketWriteStart (b : Basket) (chn : Int32) (recordType : RecordType) :
    Int × Basket :=
  if b.bgi.bg.chn ≠ chn then (-1, b)
  else
    let bfIdx := b.bgi.bfList.length
    match strgBasketCreateFragment b.bgi recordType b.dev.now with
    | none => (-1, b)
    | some bf =>
        let bf := bf.setWriting
        let fragment := strgBasketWriteFragment b.dev b.bgi.basketIdx bf bfIdx
        if fragment.1 then
          let bg := b.bgi.bg.addFragment
          let global := strgBasketWriteGlobal fragment.2 b.bgi.basketIdx bg
          if global.1 then
            (0, { dev := global.2
                  bgi := b.bgi.addFragment bf recordType
                  bfi := { b.bfi with curBf := some bfIdx, curBfIdx := bfIdx } })
          else
            -- the header could not be written: status and count go back
            (-1, { b with dev := global.2, bgi := { b.bgi with bg := bg.dropFragment } })
        else (-1, { b with dev := fragment.2 })

/-- The basket with the fragment at place `i` closed. -/
def BasketGlobalInfo.closeFragment (bgi : BasketGlobalInfo) (i : Nat) : BasketGlobalInfo :=
  { bgi with
    bg := bgi.bg.clearWriting
    bfList := bgi.bfList.modify i BasketFragment.clearWriting }

/-- `strg_basket_write_stop`. Neither write is checked. -/
def strgBasketWriteStop (b : Basket) : Basket :=
  match b.bfi.curBf with
  | none => b
  | some i =>
      let bgi := b.bgi.closeFragment i
      let fragment := strgBasketWriteFragment b.dev b.bgi.basketIdx (bgi.bfList.getD i default)
        b.bfi.curBfIdx
      let global := strgBasketWriteGlobal fragment.2 b.bgi.basketIdx bgi.bg
      { dev := global.2
        bgi := bgi
        bfi := { b.bfi with curBf := none, curBfIdx := 0 } }

/-! ## `strg_basket_write` -/

/-- A clock in milliseconds as a `time_t`. -/
def secOf (t : UInt64) : Int32 := (t / 1000).toUInt32.toInt32

def timevalOf (t : UInt64) : Timeval where
  tvSec := secOf t
  tvUsec := ((t % 1000) * 1000).toUInt32.toInt32

/-- The time stamp of a frame: the clock for the first audio and the first
video frame of an open file, and from then on the clock of that frame moved by
what the camera's own time stamps have advanced. -/
def stampFrame (bfi : BasketFileInfo) (curTime : UInt64) (f : Frame) :
    BasketFileInfo × Timeval :=
  if f.frameType = .a then
    if bfi.firstAts = 0 then
      ({ bfi with firstAts := curTime, firstIpcAts := f.timeStamp / 1000 }, timevalOf curTime)
    else (bfi, timevalOf (bfi.firstAts + (f.timeStamp / 1000 - bfi.firstIpcAts)))
  else
    if bfi.firstVts = 0 then
      ({ bfi with firstVts := curTime, firstIpcVts := f.timeStamp / 1000 }, timevalOf curTime)
    else (bfi, timevalOf (bfi.firstVts + (f.timeStamp / 1000 - bfi.firstIpcVts)))

/-- The audio flag `strg_basket_update_fragment` adds for a frame. -/
def audioFlag (f : Frame) : RecordType :=
  if f.frameType = .a then
    if f.encodeType = .g711a then recordAudioG711a else recordAudioG711u
  else 0

/-- What `strg_basket_update_fragment` does to the fragment being written. -/
def updateFragment (bf : BasketFragment) (curTime : Int32) (f : Frame) : BasketFragment :=
  { bf with
    beginTime := if bf.totalFrameCnt = 0 then curTime else bf.beginTime
    endTime := if curTime - bf.endTime > 0 then curTime else bf.endTime
    totalFrameCnt := bf.totalFrameCnt + 1
    iframeNum := if f.frameType = .i then bf.iframeNum + 1 else bf.iframeNum
    recordType := bf.recordType ||| audioFlag f
    fragmentSize := bf.fragmentSize + (UInt32.ofNat basketFrameLen + f.size) }

/-- `strg_basket_update_fragment` for the fragment at place `i`. -/
def strgBasketUpdateFragment (bgi : BasketGlobalInfo) (i : Nat) (curTime : Int32)
    (f : Frame) : BasketGlobalInfo :=
  { bgi with
    bfList := bgi.bfList.modify i fun bf => updateFragment bf curTime f
    beginTime := if bgi.beginTime > curTime ∨ bgi.beginTime = 0 then curTime else bgi.beginTime
    endTime := if bgi.endTime < curTime then curTime else bgi.endTime }

/-- The basket after the frame has been taken into the fragment at place `i`. -/
def BasketGlobalInfo.takeFrame (bgi : BasketGlobalInfo) (i : Nat) (curTime : Int32) (f : Frame) :
    BasketGlobalInfo :=
  let bgi := strgBasketUpdateFragment bgi i curTime f
  { bgi with
    freeSpace := bgi.freeSpace - (UInt32.ofNat basketFrameLen + f.size)
    freeIframe := if f.frameType = .i then bgi.freeIframe - 1 else bgi.freeIframe
    updateFlag := true }

/-- The basket is marked full. -/
def BasketGlobalInfo.setFull (bgi : BasketGlobalInfo) : BasketGlobalInfo :=
  { bgi with bg := { bgi.bg with status := bgi.bg.status ||| useStatusFull } }

/-- An I-frame needs an index slot and `BASKET_RESERVE_SIZE` of free space,
whatever its size. -/
def noIframeRoom (bgi : BasketGlobalInfo) (f : Frame) : Prop :=
  f.frameType = .i ∧ (bgi.freeIframe = 0 ∨ bgi.freeSpace < basketReserveSize)

/-- Any frame needs its own bytes and its header's. -/
def noFrameRoom (bgi : BasketGlobalInfo) (f : Frame) : Prop :=
  bgi.freeSpace < UInt32.ofNat basketFrameLen + f.size

instance (bgi : BasketGlobalInfo) (f : Frame) : Decidable (noIframeRoom bgi f) :=
  inferInstanceAs (Decidable (_ ∧ _))

instance (bgi : BasketGlobalInfo) (f : Frame) : Decidable (noFrameRoom bgi f) :=
  inferInstanceAs (Decidable (_ < _))

/-- The header of a frame, before its samples are drawn. -/
def frameHeader (bgi : BasketGlobalInfo) (f : Frame) (ts : Timeval) : BasketFrame where
  magic := basketFrameMagic
  useCnt := bgi.bg.useCnt.toInt32
  frameNo := f.frameNo
  frameType := f.frameType.code
  frameLen := f.size
  ts := ts
  pos₀ := 0
  pos₁ := 0
  dataChecksum := 0

/-- The index record of an I-frame. -/
def iframeRecord (bgi : BasketGlobalInfo) (f : Frame) (pos : UInt32) (ts : Timeval) :
    BasketIFrame where
  magic := basketIframeMagic
  useCnt := bgi.bg.useCnt
  frameNo := f.frameNo
  framePos := pos
  ts := ts

/-- `strg_basket_write`. `minutes` is `g_record_minutes`. -/
def strgBasketWrite (b : Basket) (minutes : Int32) (curTime : UInt64) (f : Frame) :
    Int × Basket :=
  match b.bfi.curBf with
  | none => (-1, b)
  | some i =>
      let bf := b.bgi.bfList.getD i default
      if f.data = [] then (-1, b)
      else if noIframeRoom b.bgi f then (0, { b with bgi := b.bgi.setFull })
      else if noFrameRoom b.bgi f then (0, { b with bgi := b.bgi.setFull })
      else if minutes > 0 ∧ bf.endTime - bf.beginTime ≥ minutes * 60 then (0, b)
      else
        let stamp := stampFrame b.bfi curTime f
        let pos := bf.beginFramePos + bf.fragmentSize
        let frame := strgBasketWriteFrame b.dev b.bgi.basketIdx pos
          (frameHeader b.bgi f stamp.2) f.data
        if frame.1 then
          let index :=
            if f.frameType = .i then
              strgBasketWriteIframe frame.2 b.bgi.basketIdx (iframeRecord b.bgi f pos stamp.2)
                (bf.firstIframeIdx + bf.iframeNum)
            else (true, frame.2)
          if index.1 then
            (f.data.length,
              { dev := index.2, bgi := b.bgi.takeFrame i (secOf curTime) f, bfi := stamp.1 })
          else (-1, { b with dev := index.2, bfi := stamp.1 })
        else (-1, { b with dev := frame.2, bfi := stamp.1 })

/-! ## `strg_basket_reset` -/

/-- The basket as `strg_basket_reset` leaves it in memory, before its header is
written. The times and record types gathered from the fragments stay. -/
def BasketGlobalInfo.reset (bgi : BasketGlobalInfo) (chn : Int32) (useCnt : UInt32) :
    BasketGlobalInfo :=
  { bgi with
    bfList := []
    freeSpace := UInt32.ofNat basketFrameSize
    freeIframe := UInt32.ofNat basketIframeNum
    bg := {
      magic := basketGlobalMagic
      useCnt := useCnt
      chn := chn
      status := useStatusIdle
      fragmentNum := 0 } }

def strgBasketReset (b : Basket) (chn : Int32) (useCnt : UInt32) : Int × Basket :=
  let bgi := b.bgi.reset chn useCnt
  let global := strgBasketWriteGlobal b.dev b.bgi.basketIdx bgi.bg
  (if global.1 then 0 else -1, { b with dev := global.2, bgi := bgi })

/-! ## Opening and closing the files -/

/-- A `BasketFileInfo` fresh from `g_malloc0`. -/
def BasketFileInfo.fresh (idx : Nat) : BasketFileInfo where
  bgi := idx
  curBf := none
  curBfIdx := 0
  firstVts := 0
  firstIpcVts := 0
  firstAts := 0
  firstIpcAts := 0

/-- `strg_basket_open`: the two descriptors of the basket's file. -/
def strgBasketOpen (dev : Dev) (idx : Nat) : Option BasketFileInfo × Dev :=
  (if dev.env.openOk dev.tick then some (.fresh idx) else none, dev.wait)

end Nvr.Storage
