import Nvr.AvPool.Pool

/-!
# Reading from the frame pool

`av_pool_read_av_data`, and the reader that the library keeps for it. A reader
asks for a frame number and gives the place where it expects the frame; the
pool looks for a header there, and else goes to its newest frame, in a video
pool to the newest I frame. Two askings have a meaning of their own: number and
place 0 ask for the newest I frame, all ones ask for the oldest.

A negative length faults in `copy_to_user`; nothing else is said of faults.
-/

namespace Nvr.AvPool

/-- What a reader gives to `av_pool_read_av_data`. -/
structure ReadArgs where
  nBufLen : Nat
  u32IFrame : UInt32
  u32NeedFrameNo : UInt32
  nNextPos : Nat
  u32MaxDelay : UInt32

/-- A frame that is read, and what is given back with it. -/
structure Delivery where
  pBuf : List UInt8
  u32IFrame : UInt32
  u32FrameNo : UInt32
  nNextPos : Nat
  u64Pts : UInt64
  u32NewestFrameNo : UInt32
  deriving DecidableEq

inductive ReadResult where
  | eagain
  | enomem (nRealLen : Nat)
  | efault
  | frame (d : Delivery)

namespace JpoolMan

variable (m : JpoolMan)

/-- What `av_pool_copy_av_data` copies when nothing is wrong with the length. -/
def copied (nDataLen nCopyPos : Nat) : List UInt8 :=
  if nDataLen + jpoolHdrLen + nCopyPos ≤ m.u32BuffSize then
    m.pDataBuff.read (nCopyPos + jpoolHdrLen) nDataLen
  else
    let nFirstCopyLen := m.u32BuffSize - nCopyPos - jpoolHdrLen
    m.pDataBuff.read (nCopyPos + jpoolHdrLen) nFirstCopyLen ++
      m.pDataBuff.read 0 (nDataLen - nFirstCopyLen)

/-- `av_pool_copy_av_data`, with what its caller takes from the header. -/
def avPoolCopyAvData (nBufLen nCopyPos : Nat) : ReadResult :=
  let h := m.hdr nCopyPos
  let nDataLen := h.u32DataLen.toNat
  if 2 ^ 31 ≤ nDataLen then .efault
  else if nBufLen < nDataLen then .enomem nDataLen
  else .frame {
    pBuf := m.copied nDataLen nCopyPos
    u32IFrame := h.u8FrameType.toUInt32
    u32FrameNo := h.u32FrameNo
    nNextPos := m.nextPos nCopyPos
    u64Pts := h.u64Pts
    u32NewestFrameNo := m.u32NewestFrameNo }

/-- `av_pool_check_frame_in_delay`. The delay is multiplied on 32 bits. -/
def avPoolCheckFrameInDelay (nBegPos : Nat) (u32MaxDelay : UInt32) : Bool :=
  let u64Pts := (m.hdr nBegPos).u64Pts
  if u64Pts ≤ m.u64NewestFramePts then
    (m.u64NewestFramePts - u64Pts).toUInt32 < u32MaxDelay * 1000
  else m.u64NewestFramePts < u64Pts + (u32MaxDelay * 1000).toUInt64

/-- The frame that a reader is given when there is not the one it asks for. -/
def fallback : Nat := if m.u8VideoPool then m.u32NewestIPos else m.u32NewestFramePos

/-- `av_pool_search_data`. -/
def avPoolSearchData (u32FrameNo : UInt32) (nBegPos : Nat) (u32MaxDelay : UInt32) : Option Nat :=
  if m.u32BuffSize < nBegPos then none
  else if (m.hdr nBegPos).u32FrameNo = u32FrameNo ∧ m.avPoolCheckIsFrame nBegPos ∧
      m.avPoolCheckFrameInDelay nBegPos u32MaxDelay then some nBegPos
  else if ¬ m.avPoolCheckIsFrame m.fallback then none
  else if u32FrameNo ≤ m.u32FrameNo ∧ (m.hdr m.fallback).u32FrameNo < u32FrameNo then none
  else if m.u8VideoPool = false ∨ m.avPoolCheckIsIframe m.fallback then some m.fallback
  else none

/-- A position that may be none. -/
def posOrNone (pos : Nat) : Option Nat := if pos = noPos then none else some pos

/-- Where `av_pool_read_av_data` reads. -/
def nReadPos (a : ReadArgs) : Option Nat :=
  if a.u32NeedFrameNo = 0 ∧ a.nNextPos = 0 then
    if m.u8VideoPool ∧ a.u32IFrame ≠ 0 ∧ 5 < m.u32FrameNo - m.u32NewestIFrameNo then none
    else some m.u32NewestIPos
  else if a.u32NeedFrameNo = 0xFFFFFFFF ∧ a.nNextPos = noPos then
    posOrNone (if m.u8VideoPool then m.u32OldestIFramePos else m.u32OldestFramePos)
  else if a.u32IFrame ≠ 0 ∧ m.u8VideoPool then
    if m.avPoolCheckIsIframe m.u32NewestIPos then
      if (m.hdr m.u32NewestIPos).u32FrameNo < a.u32NeedFrameNo then none
      else some m.u32NewestIPos
    else none
  else m.avPoolSearchData a.u32NeedFrameNo a.nNextPos a.u32MaxDelay

/-- The frame that is asked for is still to come, or there is none at all. -/
def nothingYet (u32NeedFrameNo : UInt32) : Prop :=
  (u32NeedFrameNo ≠ 0xFFFFFFFF ∧ m.u32FrameNo < u32NeedFrameNo ∧
    u32NeedFrameNo - m.u32FrameNo < 30) ∨ m.u32MaxSize = 0

instance (no : UInt32) : Decidable (m.nothingYet no) := inferInstanceAs (Decidable (_ ∨ _))

/-- `av_pool_read_av_data`. -/
def avPoolReadAvData (a : ReadArgs) : ReadResult :=
  if m.nothingYet a.u32NeedFrameNo then .eagain
  else match m.nReadPos a with
    | none => .eagain
    | some nReadPos =>
        if m.avPoolCheckIsFrame nReadPos then m.avPoolCopyAvData a.nBufLen nReadPos else .eagain

end JpoolMan

/-! ## The reader of the library -/

/-- `AVPoolRead`. -/
structure AVPoolRead where
  iframe : UInt32
  needFrameNo : UInt32
  frameNo : UInt32
  lastPos : Nat
  pts : UInt64
  newestFrameNo : UInt32
  nMaxDelay : UInt32

/-- `av_pool_start_read_frame`. -/
def avPoolStartReadFrame (nMaxDelay : UInt32) : AVPoolRead where
  iframe := 1
  needFrameNo := 0
  frameNo := 0
  lastPos := 0
  pts := 0
  newestFrameNo := 0
  nMaxDelay := nMaxDelay

namespace AVPoolRead

/-- What the next read asks for, with a buffer of some length. -/
def args (pool : AVPoolRead) (nBufLen : Nat) : ReadArgs where
  nBufLen := nBufLen
  u32IFrame := pool.iframe
  u32NeedFrameNo := pool.needFrameNo
  nNextPos := pool.lastPos
  u32MaxDelay := pool.nMaxDelay

/-- The reader when it has been given a frame. -/
def took (pool : AVPoolRead) (d : Delivery) : AVPoolRead :=
  { pool with
    iframe := 0
    needFrameNo := d.u32FrameNo + 1
    frameNo := d.u32FrameNo
    lastPos := d.nNextPos
    pts := d.u64Pts
    newestFrameNo := d.u32NewestFrameNo }

/-- `av_pool_read_frame` of the library, without a time that forces an I frame:
the call fails unless there are bytes, and leaves the reader as it was. -/
def avPoolReadFrame (pool : AVPoolRead) (m : JpoolMan) (nBufLen : Nat) :
    AVPoolRead × Option Delivery :=
  match m.avPoolReadAvData (pool.args nBufLen) with
  | .frame d => if d.pBuf = [] then (pool, none) else (pool.took d, some d)
  | _ => (pool, none)

end AVPoolRead

end Nvr.AvPool
