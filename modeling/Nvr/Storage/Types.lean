import Nvr.Lib.WordRecord

/-!
# The records of the recording storage

A disk of the recorder is a directory with one `global` file and a number of
preallocated basket files. A basket file is a header (`BasketGlobal`), a table
of fragments, a table of I-frame index records and the frame area, at fixed
offsets. This file has the constants of `strg_basket.h` and `strg_disk.h` and
the stored records, each with the words it is made of.

The program runs on a 32-bit little-endian ARM: `unsigned long`, `time_t` and
every enumeration are one word. Reserved bytes (`res`) are never read, so the
records leave them out and their words are zero in the stored form; the same
goes for the version text of `DiskGlobal`, which is only printed.
-/

namespace Nvr.Storage

open WordRecord

/-! ## Enumerations -/

inductive FrameType where
  | none
  | i
  | p
  | b
  | a
  deriving DecidableEq, Repr

/-- The value of the enumeration constant, as it is stored. -/
def FrameType.code : FrameType → UInt32
  | .none => 0
  | .i => 1
  | .p => 2
  | .b => 3
  | .a => 4

theorem FrameType.code_eq_i {t : FrameType} : t.code = FrameType.i.code ↔ t = .i := by
  cases t <;> decide

inductive EncodeType where
  | h264
  | g711a
  | g711u
  | jpeg
  deriving DecidableEq, Repr

/-- `UseStatus`: a set of flags. -/
abbrev UseStatus := UInt32

def useStatusIdle : UseStatus := 0
def useStatusWriting : UseStatus := 1
def useStatusReading : UseStatus := 2
def useStatusFull : UseStatus := 4
def useStatusErr : UseStatus := 8

/-- `StorageRecordType`: a set of flags. -/
abbrev RecordType := UInt32

def recordStartupType : RecordType := 0x1
def recordTimeType : RecordType := 0x2
def recordAlarmType : RecordType := 0x4
def recordManualType : RecordType := 0x8
def recordJpegType : RecordType := 0x10
def recordAudioG711a : RecordType := 0x10000000
def recordAudioG711u : RecordType := 0x20000000
def recordVideo : RecordType := 0x40000000

inductive StorageReadCmd where
  | normal
  | forwardVideoFrame
  | forwardAudioFrame
  | forward1Iframe
  | forward2Iframe
  | forward3Iframe
  | forward4Iframe
  | back1Iframe
  | back2Iframe
  | back3Iframe
  | back4Iframe
  deriving DecidableEq, Repr

/-! ## Sizes and offsets -/

def basketGlobalMagic : UInt32 := 0x4f4c4742
def basketFragmentMagic : UInt32 := 0x41524642
def basketIframeMagic : UInt32 := 0x52464942
def basketFrameMagic : UInt32 := 0x4d524642
def diskGlobalMagic : UInt32 := 0x4f4c4744

def basketSize : Nat := 1073741824
def basketReserveSize : UInt32 := 0x400000
def basketSpaceMin : UInt32 := 0x800000
def basketIframeMin : UInt32 := 1000

def basketGlobalLen : Nat := 40
def basketFragmentLen : Nat := 64
def basketIframeLen : Nat := 44
def basketFrameLen : Nat := 68
def diskGlobalLen : Nat := 32

def basketGlobalOft : Nat := 0
def basketFragmentOft : Nat := basketGlobalLen
def basketFragmentNum : Nat := 1024
def basketFragmentSize : Nat := basketFragmentLen * basketFragmentNum
def basketIframeOft : Nat := basketFragmentOft + basketFragmentSize
def basketIframeSize : Nat := basketSize / 16
def basketIframeNum : Nat := basketIframeSize / basketIframeLen
def basketFrameOft : Nat := basketIframeOft + basketIframeSize
def basketFrameSize : Nat := basketSize - basketFrameOft

theorem basketFrameOft_eq : basketFrameOft = 67174440 := rfl
theorem basketFrameSize_eq : basketFrameSize = 1006567384 := rfl
theorem basketIframeOft_eq : basketIframeOft = 65576 := rfl
theorem basketIframeNum_eq : basketIframeNum = 1525201 := rfl

def diskGlobalOft : Nat := 0

/-- `DISK_BG_OFT`. -/
def diskBgOft (basketIdx : Nat) : Nat :=
  diskGlobalOft + diskGlobalLen + (basketGlobalLen + basketFragmentSize) * basketIdx

/-- `DISK_BF_OFT`. -/
def diskBfOft (basketIdx bfIdx : Nat) : Nat :=
  diskBgOft basketIdx + basketGlobalLen + basketFragmentLen * bfIdx

/-- `MAX_CHN`. -/
abbrev maxChn : Nat := 4

/-- A channel number below `MAX_CHN`. -/
abbrev Chn := Fin maxChn

/-- A channel number as the `int` that the records hold. -/
def chnWord (chn : Chn) : Int32 := Int32.ofNat chn.val

/-- `1 << chn` for the channel of a record. The shift by -1, the channel of a
basket nobody has used, leaves nothing in a 32-bit register. -/
def chnBit (chn : Int32) : UInt32 :=
  if 0 ≤ chn ∧ chn < 32 then 1 <<< chn.toUInt32 else 0

/-! ## Stored records -/

structure Timeval where
  tvSec : Int32
  tvUsec : Int32
  deriving DecidableEq, Repr, Inhabited

structure BasketGlobal where
  magic : UInt32
  useCnt : UInt32
  status : UseStatus
  chn : Int32
  fragmentNum : UInt32
  deriving DecidableEq, Repr, Inhabited

structure BasketFragment where
  magic : UInt32
  status : UseStatus
  useCnt : UInt32
  beginTime : Int32
  endTime : Int32
  totalFrameCnt : Int32
  firstIframeIdx : Int32
  iframeNum : Int32
  beginFramePos : UInt32
  fragmentSize : UInt32
  recordType : RecordType
  deriving DecidableEq, Repr, Inhabited

structure BasketIFrame where
  magic : UInt32
  useCnt : UInt32
  frameNo : Int32
  framePos : UInt32
  ts : Timeval
  deriving DecidableEq, Repr, Inhabited

structure BasketFrame where
  magic : UInt32
  useCnt : Int32
  frameNo : Int32
  frameType : UInt32
  frameLen : UInt32
  ts : Timeval
  pos₀ : UInt32
  pos₁ : UInt32
  dataChecksum : UInt32
  deriving DecidableEq, Repr, Inhabited

structure DiskGlobal where
  magic : UInt32
  useCnt : UInt32
  basketNum : Int32
  deriving DecidableEq, Repr, Inhabited

def BasketGlobal.format : WordFormat BasketGlobal where
  size := 9
  toWords bg := [bg.magic, bg.useCnt, bg.status, bg.chn.toUInt32, bg.fragmentNum, 0, 0, 0, 0]
  ofWords
    | [magic, useCnt, status, chn, fragmentNum, _, _, _, _] =>
        some ⟨magic, useCnt, status, chn.toInt32, fragmentNum⟩
    | _ => none
  length_toWords _ := rfl
  ofWords_toWords bg := by simp

def BasketFragment.format : WordFormat BasketFragment where
  size := 15
  toWords bf := [bf.magic, bf.status, bf.useCnt, bf.beginTime.toUInt32, bf.endTime.toUInt32,
    bf.totalFrameCnt.toUInt32, bf.firstIframeIdx.toUInt32, bf.iframeNum.toUInt32,
    bf.beginFramePos, bf.fragmentSize, bf.recordType, 0, 0, 0, 0]
  ofWords
    | [magic, status, useCnt, beginTime, endTime, total, first, num, pos, size, type,
        _, _, _, _] =>
        some ⟨magic, status, useCnt, beginTime.toInt32, endTime.toInt32, total.toInt32,
          first.toInt32, num.toInt32, pos, size, type⟩
    | _ => none
  length_toWords _ := rfl
  ofWords_toWords bf := by simp

def BasketIFrame.format : WordFormat BasketIFrame where
  size := 10
  toWords r := [r.magic, r.useCnt, r.frameNo.toUInt32, r.framePos,
    r.ts.tvSec.toUInt32, r.ts.tvUsec.toUInt32, 0, 0, 0, 0]
  ofWords
    | [magic, useCnt, frameNo, framePos, sec, usec, _, _, _, _] =>
        some ⟨magic, useCnt, frameNo.toInt32, framePos, ⟨sec.toInt32, usec.toInt32⟩⟩
    | _ => none
  length_toWords _ := rfl
  ofWords_toWords r := by simp

def BasketFrame.format : WordFormat BasketFrame where
  size := 16
  toWords bframe := [bframe.magic, bframe.useCnt.toUInt32, bframe.frameNo.toUInt32,
    bframe.frameType, bframe.frameLen, bframe.ts.tvSec.toUInt32, bframe.ts.tvUsec.toUInt32,
    bframe.pos₀, bframe.pos₁, bframe.dataChecksum, 0, 0, 0, 0, 0, 0]
  ofWords
    | [magic, useCnt, frameNo, frameType, frameLen, sec, usec, pos₀, pos₁, checksum,
        _, _, _, _, _, _] =>
        some ⟨magic, useCnt.toInt32, frameNo.toInt32, frameType, frameLen,
          ⟨sec.toInt32, usec.toInt32⟩, pos₀, pos₁, checksum⟩
    | _ => none
  length_toWords _ := rfl
  ofWords_toWords bframe := by simp

def DiskGlobal.format : WordFormat DiskGlobal where
  size := 7
  toWords dg := [dg.magic, dg.useCnt, dg.basketNum.toUInt32, 0, 0, 0, 0]
  ofWords
    | [magic, useCnt, basketNum, _, _, _, _] => some ⟨magic, useCnt, basketNum.toInt32⟩
    | _ => none
  length_toWords _ := rfl
  ofWords_toWords dg := by simp

@[simp] theorem BasketGlobal.format_len : BasketGlobal.format.len = basketGlobalLen := rfl
@[simp] theorem BasketFragment.format_len : BasketFragment.format.len = basketFragmentLen := rfl
@[simp] theorem BasketIFrame.format_len : BasketIFrame.format.len = basketIframeLen := rfl
@[simp] theorem BasketFrame.format_len : BasketFrame.format.len = basketFrameLen := rfl
@[simp] theorem DiskGlobal.format_len : DiskGlobal.format.len = diskGlobalLen := rfl

/-! ## Frames and fragments in memory -/

/-- What `strg_basket_write` is given about one frame. `timeStamp` is what
`hdr->u64TimeStamp` reads; the size is the length of the data and, being an
`int`, below `2 ^ 31`. -/
structure Frame where
  data : List UInt8
  frameNo : Int32
  frameType : FrameType
  encodeType : EncodeType
  timeStamp : UInt64
  size_lt : data.length < 2 ^ 31

/-- `frame_size`. -/
def Frame.size (f : Frame) : UInt32 := UInt32.ofNat f.data.length

theorem Frame.toNat_size (f : Frame) : f.size.toNat = f.data.length := by
  have h := f.size_lt
  simp only [Frame.size, UInt32.toNat_ofNat']
  omega

/-- `BasketGlobalInfo`: a basket in memory. The path is derived from the
index. -/
structure BasketGlobalInfo where
  basketIdx : Nat
  updateFlag : Bool
  bg : BasketGlobal
  bfList : List BasketFragment
  readRef : Int
  freeSpace : UInt32
  freeIframe : UInt32
  beginTime : Int32
  endTime : Int32
  recordType : RecordType
  deriving DecidableEq, Repr, Inhabited

/-- `BasketFileInfo`: an open basket. `bgi` stands for the pointer and is the
index of the basket; `curBf` stands for the pointer to the fragment being
written and is its place in `bf_list`. -/
structure BasketFileInfo where
  bgi : Nat
  curBf : Option Nat
  curBfIdx : Nat
  firstVts : UInt64
  firstIpcVts : UInt64
  firstAts : UInt64
  firstIpcAts : UInt64
  deriving DecidableEq, Repr, Inhabited

/-- `RecordQueryInfo`: what a query reports about one fragment, and what a
reader asks for. -/
structure RecordQueryInfo where
  chn : Int32
  diskIdx : Int32
  basketIdx : Int32
  bfIdx : Int32
  beginIframeIdx : Int32
  iframeNum : Int32
  beginTime : Int32
  endTime : Int32
  fragmentSize : Int32
  recordType : RecordType
  deriving DecidableEq, Repr, Inhabited

structure StorageFragmentInfo where
  beginTime : Int32
  endTime : Int32
  totalFrameCnt : Int32
  fragmentSize : Int32
  recordType : RecordType
  deriving DecidableEq, Repr

/-- `BasketReadInfo`: a reader's cursor. `bgi` and `bf` stand for pointers, as
in `BasketFileInfo`. -/
structure BasketReadInfo where
  bgi : Nat
  bf : Nat
  beginIframeIdx : Int32
  iframeIdx : Int32
  iframeNum : Int32
  readPos : Int32
  readCnt : Int32
  beginPos : Int32
  fragmentSize : Int32
  deriving DecidableEq, Repr

end Nvr.Storage
