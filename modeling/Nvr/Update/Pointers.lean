import Nvr.Lib.ByteFile
import Nvr.Update.File

/-!
# Receiving an upgrade, in memory

`update.c` once more, with its pointers. The packets of an upgrade are in memory that
has other bytes around them, `pUpdataBuf` keeps what earlier entries have left in it,
and a call is known by what it has read, copied and written: the parts of the packet
that it consumed, the parts of `pUpdataBuf` that it copied to, and what went to the
flash.

`nvr_update_write` allocates `pUpdataBuf` with the first packet and frees it with an
empty one, after the last. In between it is `nvr_update_write_data`.
-/

namespace Nvr.Update.Pointers

open WordRecord

/-- Some bytes of a memory: where they start, and how many there are. -/
structure Span where
  start : Int
  len : Int

/-- A packet, and what the memory has around it. Its length is an `int`. -/
structure Packet where
  bytes : List UInt8
  around : Int → UInt8
  nonempty : bytes ≠ []
  length_lt : bytes.length < 2 ^ 31

/-- The byte at a place, seen from the start of the packet. -/
def Packet.byte (p : Packet) (i : Int) : UInt8 :=
  if 0 ≤ i ∧ i < p.bytes.length then p.bytes.getD i.toNat 0 else p.around i

/-- `n` bytes from a place on. -/
def Packet.copy (p : Packet) (start : Int) (n : Nat) : List UInt8 :=
  (List.range n).map fun (i : Nat) => p.byte (start + (i : Int))

def nvrMaxUpdateBuf : Nat := 8096 * 1024

/-- The word at a place. -/
def memWord (mem : ByteFile) (off : Nat) : UInt32 :=
  bytesWord (mem off) (mem (off + 1)) (mem (off + 2)) (mem (off + 3))

/-- The statics. `calls` counts the calls of `nvr_update_write_packet`. -/
structure Statics where
  pUpdataBuf : ByteFile
  sUpdateOff : Nat
  stUpdateFileHdr : ByteFile
  stUpdateFileInfo : ByteFile
  sLastFileHdrOk : Bool
  sLastFileHdrLen : Nat
  sLastFileInfoOk : Bool
  sLastFileInfoLen : Nat
  calls : Nat

/-- `stUpdateFileInfo.u32FileSize`. -/
def fileSizeOf (info : ByteFile) : Nat := (memWord info 128).toNat

/-- Whether the device of an entry opens, and whether `fwrite` succeeds. -/
structure DeviceIo where
  opens : Bool
  writes : Bool

/-- What is written to the flash: the header in front of it, and the size of the entry. -/
structure FlashWrite where
  hdr : UpdateHdr
  size : Nat

/-- A call, as far as it has come. The sum of two `int`s that is not one is undefined. -/
structure Call where
  s : Statics
  reads : List Span
  stores : List Span
  flash : List FlashWrite
  overflow : Bool

/-! ## A full entry -/

def hdrOfMem (mem : ByteFile) : UpdateHdr where
  magic := memWord mem 0
  packetType := (memWord mem 4).toInt32
  dataLen := (memWord mem 8).toInt32
  offset := (memWord mem 12).toInt32
  devIndex := (memWord mem 16).toInt32

/-- `nvr_update_write_packet`: whether it succeeds, and what it writes. The header is read from
`pUpdataBuf`, whatever the length of the entry is. -/
def nvrUpdateWritePacket (device : DeviceIo) (pUpdataBuf : ByteFile) (len : Nat) :
    Bool × Option FlashWrite :=
  let hdr := hdrOfMem pUpdataBuf
  if hdr.magic ≠ ipncUpdatePacketMagic then (false, none)
  else if hdr.dataLen.toUInt32 + UInt32.ofNat updateHdrLen ≠ UInt32.ofNat len then (false, none)
  else if hdr.packetType = ImageType.code .kernel ∨ hdr.packetType = ImageType.code .filesys then
    if device.opens then (device.writes && hdr.dataLen ≠ 0, some ⟨hdr, len⟩) else (false, none)
  else if hdr.packetType = ImageType.code .logo then
    if hdr.dataLen.toInt < 1024 then (false, none)
    else if device.opens then (true, some ⟨hdr, len⟩)
    else (false, none)
  else (true, none)

/-! ## Copying -/

namespace Call

variable (p : Packet) (c : Call) (pData : Int) (n : Nat)

/-- `memcpy(pUpdataBuf + sUpdateOff, pData, n)`, and `sUpdateOff += n`. -/
def toBuf : Call :=
  { c with
    s := { c.s with
      pUpdataBuf := c.s.pUpdataBuf.write c.s.sUpdateOff (p.copy pData n)
      sUpdateOff := c.s.sUpdateOff + n }
    reads := c.reads ++ [⟨pData, n⟩]
    stores := c.stores ++ [⟨c.s.sUpdateOff, n⟩] }

/-- `memcpy((char *)&stUpdateFileInfo + off, pData, n)`. -/
def toInfo (off : Nat) : Call :=
  { c with
    s := { c.s with stUpdateFileInfo := c.s.stUpdateFileInfo.write off (p.copy pData n) }
    reads := c.reads ++ [⟨pData, n⟩] }

/-- `memcpy((char *)&stUpdateFileHdr + off, pData, n)`. -/
def toHdr (off : Nat) : Call :=
  { c with
    s := { c.s with stUpdateFileHdr := c.s.stUpdateFileHdr.write off (p.copy pData n) }
    reads := c.reads ++ [⟨pData, n⟩] }

/-- A full entry is handed to `nvr_update_write_packet`. -/
def writePacket (io : Nat → DeviceIo) : Bool × Call :=
  let written := nvrUpdateWritePacket (io c.s.calls) c.s.pUpdataBuf c.s.sUpdateOff
  (written.1,
    { c with
      s := { c.s with calls := c.s.calls + 1 }
      flash := c.flash ++ written.2.toList })

end Call

/-! ## The parser -/

/-- `nvr_update_first_packet`. -/
def nvrUpdateFirstPacket (p : Packet) (c : Call) (pData : Int) (nLen : Nat) : Int × Call :=
  let nCopyLen := min nLen (upgradeFileHdrLen - c.s.sLastFileHdrLen)
  let c := c.toHdr p pData nCopyLen c.s.sLastFileHdrLen
  let c := { c with s := { c.s with sLastFileHdrLen := c.s.sLastFileHdrLen + nCopyLen } }
  if c.s.sLastFileHdrLen ≠ upgradeFileHdrLen then (nCopyLen, c)
  else
    let c := { c with s := { c.s with sLastFileHdrOk := true } }
    if memWord c.s.stUpdateFileHdr 0 ≠ updateFileHdrMagic then (-1, c) else (nCopyLen, c)

/-- `nvr_update_write_hdr_info`. -/
def nvrUpdateWriteHdrInfo (p : Packet) (c : Call) (pData : Int) (nLen : Nat) : Nat × Call :=
  let nCopyLen := min nLen (upgradeFileInfoLen - c.s.sLastFileInfoLen)
  let c := c.toInfo p pData nCopyLen c.s.sLastFileInfoLen
  let c := { c with s := { c.s with sLastFileInfoLen := c.s.sLastFileInfoLen + nCopyLen } }
  if c.s.sLastFileInfoLen ≠ upgradeFileInfoLen then (nCopyLen, c)
  else
    (nCopyLen,
      { c with s := { c.s with sLastFileInfoOk := true, sLastFileInfoLen := 0, sUpdateOff := 0 } })

/-- The loop of `nvr_update_write_file`. -/
def nvrUpdateWriteFile (io : Nat → DeviceIo) (p : Packet) (c : Call) (pData : Int) (nLen : Nat) :
    Bool × Call :=
  let u32FileSize := fileSizeOf c.s.stUpdateFileInfo
  if c.s.sUpdateOff + nLen < u32FileSize then (true, c)
  else if u32FileSize < c.s.sUpdateOff then
    -- a `memcpy` of a negative length
    (false, { c with
      reads := c.reads ++ [⟨pData, u32FileSize - c.s.sUpdateOff⟩]
      stores := c.stores ++ [⟨c.s.sUpdateOff, u32FileSize - c.s.sUpdateOff⟩] })
  else
    let nCopyLen := u32FileSize - c.s.sUpdateOff
    let written := (c.toBuf p pData nCopyLen).writePacket io
    if !written.1 then (false, written.2)
    else
      let c := { written.2 with s := { written.2.s with sUpdateOff := 0 } }
      let pData := pData + nCopyLen
      let nLen := nLen - nCopyLen
      if upgradeFileInfoLen ≤ nLen then
        let c := c.toInfo p pData upgradeFileInfoLen 0
        let c := { c with s := { c.s with sLastFileInfoOk := true } }
        let pData := pData + upgradeFileInfoLen
        let nLen := nLen - upgradeFileInfoLen
        if fileSizeOf c.s.stUpdateFileInfo ≤ nLen then nvrUpdateWriteFile io p c pData nLen
        else (true, c.toBuf p pData nLen)
      else if 0 < nLen then
        let c := c.toInfo p pData nLen 0
        (true, { c with s := { c.s with sLastFileInfoLen := nLen, sLastFileInfoOk := false } })
      else (true, { c with s := { c.s with sLastFileInfoLen := 0, sLastFileInfoOk := false } })
  termination_by nLen
  decreasing_by
    have hinfo : 0 < upgradeFileInfoLen := by decide
    omega

/-- The end of `nvr_update_write_data`, behind the header and the information record. -/
def writeEntry (io : Nat → DeviceIo) (p : Packet) (c : Call) (pData : Int) (nLen : Nat) :
    Bool × Call :=
  if nLen = 0 then (true, c)
  else if c.s.sLastFileInfoOk then
    if 2 ^ 31 ≤ c.s.sUpdateOff + nLen then (false, { c with overflow := true })
    else if nvrMaxUpdateBuf < c.s.sUpdateOff + nLen then (false, c)
    else if fileSizeOf c.s.stUpdateFileInfo ≤ c.s.sUpdateOff + nLen then
      nvrUpdateWriteFile io p c pData nLen
    else (true, c.toBuf p pData nLen)
  else (true, c)

/-- The statics as the first packet finds them. -/
def Statics.cleared (s : Statics) : Statics :=
  { s with
    sLastFileHdrOk := false
    sLastFileHdrLen := 0
    sLastFileInfoOk := false
    sLastFileInfoLen := 0
    stUpdateFileHdr := fun _ => 0
    stUpdateFileInfo := fun _ => 0 }

/-- `nvr_update_write_data`, where `s` is cleared already for the first packet. What
`nvr_update_first_packet` returns is added to the pointer, also when it is -1. -/
def nvrUpdateWriteData (io : Nat → DeviceIo) (s : Statics) (p : Packet) : Bool × Call :=
  let c : Call := ⟨s, [], [], [], false⟩
  let first := if s.sLastFileHdrOk then (0, c) else nvrUpdateFirstPacket p c 0 p.bytes.length
  let nLen := (p.bytes.length - first.1).toNat
  let info :=
    if first.2.s.sLastFileInfoOk then (0, first.2)
    else nvrUpdateWriteHdrInfo p first.2 first.1 nLen
  writeEntry io p info.2 (first.1 + info.1) (nLen - info.1)

/-- The statics after some packets of an upgrade. -/
def afterPackets (io : Nat → DeviceIo) (s : Statics) (ps : List Packet) : Statics :=
  ps.foldl (fun s p => (nvrUpdateWriteData io s p).2.s) s.cleared

end Nvr.Update.Pointers
