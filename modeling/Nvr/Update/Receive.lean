import Nvr.Lib.ByteFile
import Nvr.Lib.Collect
import Nvr.Update.File

/-!
# Receiving an upgrade

`update.c`. The upgrade file comes in packets, cut anywhere; the statics of the
file keep what is complete of the header, of the information record and of the
entry that is being received. A full entry goes to the flash at once.
-/

namespace Nvr.Update

open WordRecord ByteFile Collect

/-- `NVR_MAX_UPDATE_BUF`. -/
def nvrMaxUpdateBuf : Nat := 8096 * 1024

/-- The devices and the file that an upgrade writes. -/
structure Flash where
  kernel : ByteFile
  filesys : ByteFile
  logo : List UInt8

/-- Whether the n-th call of `nvr_update_write_packet` can write to its device,
and whether an upgrade may begin. -/
structure Env where
  flashOk : Nat → Bool
  begins : Bool

/-- The statics, and the flash; `calls` has what `nvr_update_write_packet` was
called with. -/
structure Updater where
  updataBuf : Option (List UInt8)
  updateOff : Nat
  fileHdr : List UInt8
  fileInfo : List UInt8
  lastFileHdrOk : Bool
  lastFileHdrLen : Nat
  lastFileInfoOk : Bool
  lastFileInfoLen : Nat
  flash : Flash
  calls : List (List UInt8)

namespace Updater

variable (u : Updater)

/-- `pUpdataBuf`. -/
def buf : List UInt8 := u.updataBuf.getD []

/-- `stUpdateFileInfo.u32FileSize`. -/
def fileSize : Nat := (wordAt u.fileInfo 128).toNat

/-- `memcpy(pUpdataBuf + sUpdateOff, pData, …)`. -/
def append (data : List UInt8) : Updater :=
  { u with
    updataBuf := some (patch u.buf u.updateOff data)
    updateOff := u.updateOff + data.length }

end Updater

/-! ## A full entry -/

/-- The header at the front of an entry. -/
def UpdateHdr.ofBytes (data : List UInt8) : UpdateHdr where
  magic := wordAt data 0
  packetType := (wordAt data 4).toInt32
  dataLen := (wordAt data 8).toInt32
  offset := (wordAt data 12).toInt32
  devIndex := (wordAt data 16).toInt32

/-- `nvr_update_write_kernel`, `nvr_update_write_filesys` and
`nvr_update_write_logo`, as the type says. A `fwrite` of no bytes fails. -/
def Flash.install (f : Flash) (ok : Bool) (hdr : UpdateHdr) (image : List UInt8) :
    Bool × Flash :=
  if hdr.packetType = ImageType.code .kernel then
    if ok && !image.isEmpty then (true, { f with kernel := f.kernel.write 0 image }) else (false, f)
  else if hdr.packetType = ImageType.code .filesys then
    if ok && !image.isEmpty then
      (true, { f with filesys := f.filesys.write hdr.offset.toInt.toNat image })
    else (false, f)
  else if hdr.packetType = ImageType.code .logo then
    if image.length < 1024 then (false, f)
    else if ok then (true, { f with logo := image })
    else (false, f)
  else (true, f)

/-- `nvr_update_write_packet`. -/
def nvrUpdateWritePacket (env : Env) (u : Updater) : Bool × Updater :=
  let data := u.buf.take u.updateOff
  let hdr := UpdateHdr.ofBytes data
  let called := { u with calls := u.calls ++ [data] }
  if hdr.magic ≠ ipncUpdatePacketMagic then (false, called)
  else if hdr.dataLen.toInt + updateHdrLen ≠ data.length then (false, called)
  else
    let installed := u.flash.install (env.flashOk u.calls.length) hdr
      ((data.drop updateHdrLen).take hdr.dataLen.toInt.toNat)
    (installed.1, { called with flash := installed.2 })

/-! ## A packet -/

/-- How a call ends: with 0, with -1, or with bytes read or written where there
is no buffer. -/
inductive Ret where
  | ok
  | failed
  | wild
  deriving DecidableEq, Repr

/-- `nvr_update_first_packet`, with the bytes that it takes; `none` is -1. -/
def nvrUpdateFirstPacket (u : Updater) (pData : List UInt8) : Option Nat × Updater :=
  let n := min pData.length (upgradeFileHdrLen - u.lastFileHdrLen)
  let u :=
    { u with
      fileHdr := patch u.fileHdr u.lastFileHdrLen (pData.take n)
      lastFileHdrLen := u.lastFileHdrLen + n }
  if u.lastFileHdrLen ≠ upgradeFileHdrLen then (some n, u)
  else
    (if wordAt u.fileHdr 0 ≠ updateFileHdrMagic then none else some n,
      { u with lastFileHdrOk := true })

/-- `nvr_update_write_hdr_info`, with the bytes that it takes. -/
def nvrUpdateWriteHdrInfo (u : Updater) (pData : List UInt8) : Nat × Updater :=
  let n := min pData.length (upgradeFileInfoLen - u.lastFileInfoLen)
  let u :=
    { u with
      fileInfo := patch u.fileInfo u.lastFileInfoLen (pData.take n)
      lastFileInfoLen := u.lastFileInfoLen + n }
  if u.lastFileInfoLen ≠ upgradeFileInfoLen then (n, u)
  else (n, { u with lastFileInfoOk := true, lastFileInfoLen := 0, updateOff := 0 })

/-- The loop of `nvr_update_write_file`. A round that goes on takes a whole
information record, which bounds the rounds by the bytes that there are. -/
def nvrUpdateWriteFile (env : Env) : Nat → Updater → List UInt8 → Ret × Updater
  | 0, u, _ => (.ok, u)
  | rounds + 1, u, pData =>
      if u.updateOff + pData.length < u.fileSize then (.ok, u)
      else
        let n := u.fileSize - u.updateOff
        let written := nvrUpdateWritePacket env (u.append (pData.take n))
        if written.1 then
          let u := { written.2 with updateOff := 0 }
          let pData := pData.drop n
          if upgradeFileInfoLen ≤ pData.length then
            let u := { u with fileInfo := pData.take upgradeFileInfoLen, lastFileInfoOk := true }
            let pData := pData.drop upgradeFileInfoLen
            if u.fileSize ≤ pData.length then nvrUpdateWriteFile env rounds u pData
            else (.ok, u.append pData)
          else if 0 < pData.length then
            (.ok, { u with
              fileInfo := patch u.fileInfo 0 pData
              lastFileInfoLen := pData.length
              lastFileInfoOk := false })
          else (.ok, { u with lastFileInfoLen := 0, lastFileInfoOk := false })
        else (.failed, written.2)

/-- `nvr_update_write_data` for what is behind the information record. -/
def writeEntry (env : Env) (u : Updater) (pData : List UInt8) : Ret × Updater :=
  if pData = [] then (.ok, u)
  else if u.lastFileInfoOk then
    if u.updateOff + pData.length > nvrMaxUpdateBuf then (.failed, u)
    else if u.updateOff + pData.length ≥ u.fileSize then
      nvrUpdateWriteFile env (pData.length + 1) u pData
    else (.ok, u.append pData)
  else (.ok, u)

/-- `nvr_update_write_data` for what is behind the header. -/
def writeBehindHdr (env : Env) (u : Updater) (pData : List UInt8) : Ret × Updater :=
  let info := if u.lastFileInfoOk then (0, u) else nvrUpdateWriteHdrInfo u pData
  writeEntry env info.2 (pData.drop info.1)

/-- The statics as the first packet finds them. -/
def Updater.cleared (u : Updater) : Updater :=
  { u with
    lastFileHdrOk := false
    lastFileHdrLen := 0
    lastFileInfoOk := false
    lastFileInfoLen := 0
    fileHdr := List.replicate upgradeFileHdrLen 0
    fileInfo := List.replicate upgradeFileInfoLen 0 }

/-- `nvr_update_write_data`. After a wrong magic it goes on at the byte before
the packet. -/
def nvrUpdateWriteData (env : Env) (u : Updater) (pData : List UInt8) (nPackNo : Nat) :
    Ret × Updater :=
  let u := if nPackNo = 0 then u.cleared else u
  if u.lastFileHdrOk then writeBehindHdr env u pData
  else
    let first := nvrUpdateFirstPacket u pData
    match first.1 with
    | none => (.wild, first.2)
    | some n => writeBehindHdr env first.2 (pData.drop n)

/-- `nvr_update_write`. -/
def nvrUpdateWrite (env : Env) (u : Updater) (pData : List UInt8) (nPackNo : Nat) :
    Ret × Updater :=
  if u.updataBuf.isNone ∧ nPackNo = 0 ∧ ¬env.begins then (.failed, u)
  else
    let u :=
      if u.updataBuf.isNone ∧ nPackNo = 0 then { u with updataBuf := some [], updateOff := 0 }
      else u
    if pData = [] ∧ u.updataBuf.isSome then (.ok, { u with updataBuf := none, updateOff := 0 })
    else
      let written := nvrUpdateWriteData env u pData nPackNo
      if u.updataBuf.isNone ∧ written.2.updataBuf.isSome then (.wild, u) else written

/-- The packets from the number `nPackNo` on, one after the other. -/
def feed (env : Env) : Nat → Updater → List (List UInt8) → Updater
  | _, u, [] => u
  | nPackNo, u, p :: ps => feed env (nPackNo + 1) (nvrUpdateWrite env u p nPackNo).2 ps

end Nvr.Update
