import Mathlib.Data.List.Basic
import Nvr.Lib.WordRecord

/-!
# The upgrade file

`makeupdatefile.c` packs the images that a description lists into one file: a
header, and for each entry an information record and the packet of its image. A
filesys image makes as many entries as it has parts of 2 MB.
-/

namespace Nvr.Update

open WordRecord

def updateFileHdrMagic : UInt32 := 0x415159a2

def ipncUpdatePacketMagic : UInt32 := 0x188a4423

/-- The kinds of packets that have an image. -/
inductive ImageType where
  | kernel
  | filesys
  | logo
  deriving DecidableEq, Repr

/-- `IPNC_UPDATE_TYPE_KERNEL` and so on. -/
def ImageType.code : ImageType → Int32
  | .kernel => 1
  | .filesys => 2
  | .logo => 4

/-- The word at a position. -/
def wordAt (bytes : List UInt8) (off : Nat) : UInt32 :=
  bytesWord (bytes.getD off 0) (bytes.getD (off + 1) 0) (bytes.getD (off + 2) 0)
    (bytes.getD (off + 3) 0)

/-! ## The records -/

/-- `UpdateHdr`. -/
structure UpdateHdr where
  magic : UInt32
  packetType : Int32
  dataLen : Int32
  offset : Int32
  devIndex : Int32
  deriving DecidableEq, Repr

/-- `sizeof(UpdateHdr)`. -/
def updateHdrLen : Nat := 20

def UpdateHdr.bytes (hdr : UpdateHdr) : List UInt8 :=
  wordsBytes [hdr.magic, hdr.packetType.toUInt32, hdr.dataLen.toUInt32, hdr.offset.toUInt32,
    hdr.devIndex.toUInt32]

/-- `sizeof(NVR_UPGRADE_FILE_HDR_S)`, and of the tool's own name for it. -/
def upgradeFileHdrLen : Nat := 48

/-- `TI_UPGRADE_FILE_HDR_S` with the fields that the tool sets; the others are 0. -/
def upgradeFileHdr (u32FileNum u32TotalLen : UInt32) : List UInt8 :=
  wordsBytes [updateFileHdrMagic, 0, u32FileNum, u32TotalLen] ++ List.replicate 32 0

/-- `sizeof(NVR_UPGRADE_FILE_INFO_S)`. -/
def upgradeFileInfoLen : Nat := 256

/-- A file name of the description, which has 256 bytes there. -/
structure FileName where
  chars : List UInt8
  length_lt : chars.length < 256

/-- `TI_UPGRADE_FILE_INFO_S`: the name copied over zeros, and then the size set,
over what a name of more than 128 bytes has left there. -/
def upgradeFileInfo (name : FileName) (u32FileSize : UInt32) : List UInt8 :=
  let copied := name.chars ++ List.replicate (upgradeFileInfoLen - name.chars.length) 0
  copied.take 128 ++ wordBytes u32FileSize ++ copied.drop 132

/-! ## Packing -/

/-- A packet of the description, with the bytes of its file. -/
structure PacketObj where
  name : FileName
  packetType : ImageType
  offset : Int32
  devIndex : Int32
  image : List UInt8

/-- What `PutInUpdateFile` is given: a name, and a header with an image behind. -/
structure Entry where
  name : FileName
  hdr : UpdateHdr
  image : List UInt8

/-- `dat`. -/
def Entry.dat (e : Entry) : List UInt8 := e.hdr.bytes ++ e.image

/-- `dataLen`. -/
def Entry.dataLen (e : Entry) : Int32 := Int32.ofNat e.dat.length

/-- An entry as `PutInUpdateFile` writes it. -/
def Entry.bytes (e : Entry) : List UInt8 :=
  upgradeFileInfo e.name e.dataLen.toUInt32 ++ e.dat.take e.dataLen.toInt.toNat

/-- The header of a packet with `dataLen` bytes that go to `offset`. -/
def PacketObj.hdr (p : PacketObj) (offset dataLen : Int32) : UpdateHdr :=
  ⟨ipncUpdatePacketMagic, p.packetType.code, dataLen, offset, p.devIndex⟩

/-- `ProcessKernelPacket` and `ProcessLogoPacket`, which are the same: the file
in one entry, none if its size is not an `int`. -/
def processWholePacket (p : PacketObj) : List Entry :=
  let filesize := Int32.ofNat p.image.length
  if filesize < 0 then []
  else [⟨p.name, p.hdr p.offset filesize, p.image.take filesize.toInt.toNat⟩]

def processKernelPacket (p : PacketObj) : List Entry := processWholePacket p

def processLogoPacket (p : PacketObj) : List Entry := processWholePacket p

/-- The most that is in one packet of a filesys image. -/
def filesysPacketLen : Nat := 2048 * 1024

/-- The loop of `ProcessFileSysPacket` over what is left of the image. -/
def filesysPackets (p : PacketObj) : Nat → Int32 → List UInt8 → List Entry
  | 0, _, _ => []
  | rounds + 1, offset, image =>
      if image = [] then []
      else
        let part := image.take filesysPacketLen
        let packetlen := Int32.ofNat part.length
        ⟨p.name, p.hdr offset packetlen, part⟩ ::
          filesysPackets p rounds (offset + packetlen) (image.drop filesysPacketLen)

def processFileSysPacket (p : PacketObj) : List Entry :=
  let filesize := Int32.ofNat p.image.length
  filesysPackets p p.image.length p.offset (p.image.take filesize.toInt.toNat)

/-- `ProcessPacketReq` for images. -/
def processPacketReq (p : PacketObj) : List Entry :=
  match p.packetType with
  | .kernel => processKernelPacket p
  | .filesys => processFileSysPacket p
  | .logo => processLogoPacket p

/-- `UpdateFileObj`: what is written behind the header, and the counts in it. -/
structure UpdateFileObj where
  body : List UInt8
  u32TotalLen : UInt32
  u32FileNum : UInt32

/-- `PutInUpdateFile`. -/
def putInUpdateFile (obj : UpdateFileObj) (e : Entry) : UpdateFileObj where
  body := obj.body ++ e.bytes
  u32TotalLen := obj.u32TotalLen + (UInt32.ofNat upgradeFileInfoLen + e.dataLen.toUInt32)
  u32FileNum := obj.u32FileNum + 1

/-- `CloseUpdateFile`: the file with its header. -/
def closeUpdateFile (obj : UpdateFileObj) : List UInt8 :=
  upgradeFileHdr obj.u32FileNum obj.u32TotalLen ++ obj.body

/-- The entries of a description. -/
def entries (ps : List PacketObj) : List Entry := ps.flatMap processPacketReq

/-- The file that is made of it. -/
def updateFile (ps : List PacketObj) : List UInt8 :=
  closeUpdateFile ((entries ps).foldl putInUpdateFile ⟨[], 0, 0⟩)

end Nvr.Update
