import Mathlib
import Nvr.Lib.ByteFile
import Nvr.Lib.WordRecord

/-!
# The frame pool

`av_pool_mng.c`: a ring of bytes that one writer fills with frames and any
number of readers copy frames out of. A frame in the ring is a header of 64
bytes at a multiple of 64, and behind it the data, rounded up to 64 bytes; only
the data goes on from the end of the ring at its beginning. Writing over old
frames, the pool moves its two positions forward, of the oldest frame and of
the oldest I frame. A reader keeps the position of the frame it wants next.

Positions and sizes are natural numbers: the pools that `mem_mng_init` hands
out are far smaller than what an `int` holds. Frame numbers, lengths and time
stamps in the ring have their widths.
-/

namespace Nvr.AvPool

open WordRecord

/-- `JPOOL_HDR_LEN`. -/
def jpoolHdrLen : Nat := 64

/-- `JPOOL_MAGIC_FLAG`. -/
def jpoolMagicFlag : UInt32 := 0x87654321

/-- `AV_VIDEO_FRAME_I`. -/
def avVideoFrameI : UInt8 := 0x7

/-- A position that is none. -/
def noPos : Nat := 0xFFFFFFFF

/-- `JPOOL_FRAME_HDR`, the fields that are written. -/
structure JpoolFrameHdr where
  u32FlagStart : UInt32
  u32FrameNo : UInt32
  u32DataLen : UInt32
  u8FrameType : UInt8
  u64Pts : UInt64
  u32FlagEnd : UInt32
  deriving DecidableEq

/-- `JPOOL_MAN`. -/
structure JpoolMan where
  u8VideoPool : Bool
  u32FrameNo : UInt32
  u32BuffSize : Nat
  u32MaxSize : Nat
  u32OldestFrameNo : UInt32
  u32OldestIFrameNo : UInt32
  u32OldestFramePos : Nat
  u32OldestIFramePos : Nat
  u32NewestIPos : Nat
  u32NewestIFrameNo : UInt32
  u32NewestFramePos : Nat
  u64OldestFramePts : UInt64
  u64OldestIFramePts : UInt64
  u64NewestIPts : UInt64
  u64NewestFramePts : UInt64
  u32WritePos : Nat
  u32NewestFrameNo : UInt32
  pDataBuff : ByteFile

/-- A frame as it is given to `av_pool_write_frame`, in any number of pieces.
`nLen` is the length of the pieces; the header length comes in a byte. -/
structure Frame where
  pHdrData : List UInt8
  ppPicsData : List (List UInt8)
  nFrameType : UInt8
  u64Pts : UInt64
  u32CurFrameNo : UInt32
  hdr_lt : pHdrData.length < 256

def Frame.nLen (f : Frame) : Nat := (f.ppPicsData.map List.length).sum

/-- The data length in the header of the frame. -/
def Frame.dataLen (f : Frame) : Nat := f.nLen + f.pHdrData.length

/-- A length rounded up to 64, with the header: `& 0xFFFFFFC0` takes what is
over a multiple of 64 away. -/
def recordSize (dataLen : Nat) : Nat := (dataLen + jpoolHdrLen - 1) / 64 * 64 + jpoolHdrLen

/-- `nNeedSize`. -/
def Frame.needSize (f : Frame) : Nat := recordSize f.dataLen

/-! ## Headers in the ring -/

/-- The word at a place. -/
def wordAt (mem : ByteFile) (pos : Nat) : UInt32 :=
  bytesWord (mem pos) (mem (pos + 1)) (mem (pos + 2)) (mem (pos + 3))

/-- The header at a place. -/
def hdrAt (mem : ByteFile) (pos : Nat) : JpoolFrameHdr where
  u32FlagStart := wordAt mem pos
  u32FrameNo := wordAt mem (pos + 4)
  u32DataLen := wordAt mem (pos + 8)
  u8FrameType := mem (pos + 12)
  u64Pts := (wordAt mem (pos + 16)).toUInt64 + 2 ^ 32 * (wordAt mem (pos + 20)).toUInt64
  u32FlagEnd := wordAt mem (pos + 60)

/-- The fields of a header, put in their places. -/
def putHdr (mem : ByteFile) (pos : Nat) (h : JpoolFrameHdr) : ByteFile :=
  let mem := mem.write pos (wordBytes h.u32FlagStart ++ wordBytes h.u32FrameNo ++
    wordBytes h.u32DataLen ++ [h.u8FrameType])
  let mem := mem.write (pos + 16)
    (wordBytes h.u64Pts.toUInt32 ++ wordBytes (h.u64Pts / 2 ^ 32).toUInt32)
  mem.write (pos + 60) (wordBytes h.u32FlagEnd)

namespace JpoolMan

variable (m : JpoolMan)

def hdr (pos : Nat) : JpoolFrameHdr := hdrAt m.pDataBuff pos

/-- `av_pool_get_frame_offset`, on 32 bits. -/
def avPoolGetFrameOffset (nFramePos : Nat) : Nat :=
  recordSize (m.hdr nFramePos).u32DataLen.toNat % 2 ^ 32

/-- The frame behind the frame at a place. -/
def nextPos (pos : Nat) : Nat := (m.avPoolGetFrameOffset pos + pos) % 2 ^ 32 % m.u32BuffSize

/-- `av_pool_check_is_frame`. -/
def avPoolCheckIsFrame (nPos : Nat) : Bool :=
  nPos < m.u32BuffSize && (m.hdr nPos).u32FlagStart == jpoolMagicFlag &&
    (m.hdr nPos).u32FlagEnd == jpoolMagicFlag

/-- `av_pool_check_is_iframe`. -/
def avPoolCheckIsIframe (nPos : Nat) : Bool :=
  m.avPoolCheckIsFrame nPos && (m.hdr nPos).u8FrameType == avVideoFrameI

/-! ## The oldest frame -/

/-- A frame at this place is in the way of `nWriteLen` more bytes. -/
def inWriteRange (nWriteLen nOldPos : Nat) : Bool :=
  if nWriteLen + m.u32WritePos < m.u32BuffSize then
    m.u32WritePos ≤ nOldPos && nOldPos ≤ nWriteLen + m.u32WritePos
  else
    m.u32WritePos ≤ nOldPos || nOldPos ≤ (m.u32WritePos + nWriteLen) % m.u32BuffSize

/-- What the loop over the frames in the way comes to: a place where there is no
frame, or a frame that is not in the way, `nUpdate` telling if it is another. -/
inductive Refresh where
  | lost
  | at (nOldPos : Nat) (nUpdate : Bool)

/-- The loop of both refreshing functions. It is `none` when it has made as many
passes as it was given. -/
def refresh (nWriteLen : Nat) : Nat → Nat → Bool → Option Refresh
  | 0, _, _ => none
  | fuel + 1, nOldPos, nUpdate =>
      if m.inWriteRange nWriteLen nOldPos then
        let nOldPos := m.nextPos nOldPos
        if m.avPoolCheckIsFrame nOldPos then refresh nWriteLen fuel nOldPos true
        else some .lost
      else some (.at nOldPos nUpdate)

/-- Passes enough to see every place of the ring. -/
def fuel : Nat := m.u32BuffSize + 1

/-- `av_pool_refresh_oldest_frame_pos`. -/
def avPoolRefreshOldestFramePos (nWriteLen : Nat) : Option JpoolMan :=
  (m.refresh nWriteLen m.fuel m.u32OldestFramePos false).map fun
    | .lost =>
        { m with
          u32OldestFrameNo := 0xFFFFFFFF
          u32OldestFramePos := 0
          u64OldestFramePts := 0xFFFFFFFF }
    | .at _ false => m
    | .at nOldPos true =>
        { m with
          u32OldestFramePos := nOldPos
          u64OldestFramePts := (m.hdr nOldPos).u64Pts
          u32OldestFrameNo := (m.hdr nOldPos).u32FrameNo }

/-- There is no I frame any more. -/
def noOldestIframe : JpoolMan :=
  { m with
    u32OldestIFrameNo := 0xFFFFFFFF
    u32OldestIFramePos := 0
    u64OldestIFramePts := 0xFFFFFFFF }

/-- The search for an I frame from a frame on, until the offsets come up to the
size of the ring. -/
def searchIframe : Nat → Nat → Nat → Option JpoolMan
  | 0, _, _ => none
  | fuel + 1, nOldPos, nOffLen =>
      if m.avPoolCheckIsFrame nOldPos then
        if (m.hdr nOldPos).u8FrameType = avVideoFrameI then
          some { m with
            u32OldestIFrameNo := (m.hdr nOldPos).u32FrameNo
            u32OldestIFramePos := nOldPos
            u64OldestIFramePts := (m.hdr nOldPos).u64Pts }
        else
          let nOffLen := (nOffLen + m.avPoolGetFrameOffset nOldPos) % 2 ^ 32
          if nOffLen < m.u32BuffSize then searchIframe fuel (m.nextPos nOldPos) nOffLen
          else some m.noOldestIframe
      else some m.noOldestIframe

/-- Passes enough for the search to see every place with every sum of offsets. -/
def searchFuel : Nat := m.u32BuffSize * m.u32BuffSize + 1

/-- `av_pool_refresh_oldest_iframe_pos`. -/
def avPoolRefreshOldestIframePos (nWriteLen : Nat) : Option JpoolMan :=
  (m.refresh nWriteLen m.fuel m.u32OldestIFramePos false).bind fun
    | .lost => some m.noOldestIframe
    | .at _ false => some m
    | .at nOldPos true => m.searchIframe m.searchFuel nOldPos 0

/-! ## Writing -/

/-- Copying where the ring may end: `nOffset` and the memory, afterwards. -/
def copyWrapped (dst : ByteFile × Nat) (src : List UInt8) : ByteFile × Nat :=
  let (mem, nOffset) := dst
  if m.u32BuffSize < nOffset + src.length then
    let nFirstCopyLen := m.u32BuffSize - nOffset
    ((mem.write nOffset (src.take nFirstCopyLen)).write 0 (src.drop nFirstCopyLen),
      src.length - nFirstCopyLen)
  else (mem.write nOffset src, nOffset + src.length)

def copyFlat (dst : ByteFile × Nat) (src : List UInt8) : ByteFile × Nat :=
  (dst.1.write dst.2 src, dst.2 + src.length)

/-- The data of a frame behind its header; the pieces end at one with nothing in
it. -/
def copyFrame (mem : ByteFile) (f : Frame) : ByteFile :=
  let copy := if f.needSize + m.u32WritePos ≤ m.u32BuffSize then copyFlat else m.copyWrapped
  ((f.pHdrData :: f.ppPicsData.takeWhile (· ≠ [])).foldl copy
    (mem, m.u32WritePos + jpoolHdrLen)).1

/-- What `av_pool_write_av_data` notes of the newest frame before anything else. -/
def noteNewest (f : Frame) : JpoolMan :=
  let m := { m with u32NewestFrameNo := f.u32CurFrameNo }
  let m :=
    if f.nFrameType = avVideoFrameI then
      { m with
        u32NewestIPos := m.u32WritePos
        u64NewestIPts := f.u64Pts
        u32NewestIFrameNo := m.u32FrameNo }
    else m
  { m with u32NewestFramePos := m.u32WritePos, u64NewestFramePts := f.u64Pts }

/-- Moving the oldest frames out of the way. -/
def freeOldest (nNeedSize : Nat) : Option JpoolMan :=
  if m.u32OldestFramePos ≠ noPos then
    (m.avPoolRefreshOldestFramePos nNeedSize).bind fun m =>
      if m.u8VideoPool ∧ m.u32OldestIFramePos ≠ noPos then
        m.avPoolRefreshOldestIframePos nNeedSize
      else some m
  else some m

/-- The first frame of a pool is the oldest one. -/
def noteOldest (f : Frame) : JpoolMan :=
  let m :=
    if m.u32OldestFramePos = noPos then
      { m with
        u32OldestFramePos := m.u32WritePos
        u64OldestFramePts := f.u64Pts
        u32OldestFrameNo := m.u32FrameNo + 1 }
    else m
  if f.nFrameType = avVideoFrameI ∧ m.u8VideoPool ∧ m.u32OldestIFramePos = noPos then
    { m with
      u32OldestIFramePos := m.u32WritePos
      u64OldestIFramePts := f.u64Pts
      u32OldestIFrameNo := m.u32FrameNo + 1 }
  else m

/-- The header of the next frame. -/
def newHdr (f : Frame) : JpoolFrameHdr where
  u32FlagStart := jpoolMagicFlag
  u32FrameNo := m.u32FrameNo + 1
  u32DataLen := UInt32.ofNat f.dataLen
  u8FrameType := f.nFrameType
  u64Pts := f.u64Pts
  u32FlagEnd := jpoolMagicFlag

/-- The frame goes into the ring. -/
def putFrame (f : Frame) : JpoolMan :=
  { m with
    u32FrameNo := m.u32FrameNo + 1
    pDataBuff := m.copyFrame (putHdr m.pDataBuff m.u32WritePos (m.newHdr f)) f
    u32WritePos := (f.needSize + m.u32WritePos) % m.u32BuffSize }

/-- `av_pool_write_av_data`. -/
def avPoolWriteAvData (f : Frame) : Option JpoolMan :=
  ((m.noteNewest f).freeOldest f.needSize).map fun m => (m.noteOldest f).putFrame f

/-- `av_pool_write_frame` of a frame that it accepts. -/
def avPoolWriteFrame (f : Frame) : Option JpoolMan :=
  (m.avPoolWriteAvData f).map fun m => { m with u32MaxSize := max m.u32MaxSize f.nLen }

/-- `nLen > u32BuffSize` is all that is refused. -/
def Accepts (f : Frame) : Prop := f.nLen ≤ m.u32BuffSize

instance (f : Frame) : Decidable (m.Accepts f) := inferInstanceAs (Decidable (_ ≤ _))

end JpoolMan

/-- A size of a pool. Those of `mem_mng_init` are whole pages, and the largest
is 2^28 bytes. -/
structure PoolSize where
  bytes : Nat
  pos : 0 < bytes
  aligned : 64 ∣ bytes
  le : bytes ≤ 2 ^ 28

/-- A pool of `av_pool_init`: its memory holds anything. -/
def avPoolInit (video : Bool) (size : PoolSize) (mem : ByteFile) : JpoolMan where
  u8VideoPool := video
  u32FrameNo := 0
  u32BuffSize := size.bytes
  u32MaxSize := 0
  u32OldestFrameNo := 0
  u32OldestIFrameNo := 0
  u32OldestFramePos := noPos
  u32OldestIFramePos := noPos
  u32NewestIPos := 0
  u32NewestIFrameNo := 0
  u32NewestFramePos := 0
  u64OldestFramePts := 0xFFFFFFFF
  u64OldestIFramePts := 0xFFFFFFFF
  u64NewestIPts := 0
  u64NewestFramePts := 0
  u32WritePos := 0
  u32NewestFrameNo := 0
  pDataBuff := mem

end Nvr.AvPool
