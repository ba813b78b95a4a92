import Nvr.Lib.ByteFile
import Nvr.Server.ParamSys

/-!
# Exporting and importing the configuration

`nvr_param_export` and `nvr_param_import` of `nvr_param_sys.c`. An exported file is
a header and the bytes of `gSysInfo`; the header has the length of what follows
and its MD5 checksum. An import reads as many bytes as the header says, compares
the checksum, and copies that many over `gSysInfo`, all but the network settings,
which stay as they are.

The memory is seen from the start of `gSysInfo` on, so that what lies behind it
can be told apart. The checksum is glib's.
-/

namespace Nvr.Server

open WordRecord

/-- `g_compute_checksum_for_data(G_CHECKSUM_MD5, ..)`: `NULL`, or a string of 32
characters. -/
structure Md5 where
  sum : List UInt8 → Option (List UInt8)
  length_sum : ∀ {data s}, sum data = some s → s.length = 32
  no_nul : ∀ {data s}, sum data = some s → ∀ c ∈ s, c ≠ 0

/-- `'J' | ('E' << 8) | ('X' << 16) | ('P' << 24)`. -/
def exportHeadMagic : UInt32 := 0x5058454A

/-- `NVR_PARAM_EXPORT_HEAD_S`. -/
structure ExportHead where
  u32Magic : UInt32
  u32Version : UInt32
  u32Length : UInt32
  szMd5Sum : List UInt8

/-- `sizeof(szMd5Sum)` and the size of the header. -/
def md5SumLen : Nat := 128

def exportHeadLen : Nat := 12 + md5SumLen

def ExportHead.bytes (h : ExportHead) : List UInt8 :=
  wordsBytes [h.u32Magic, h.u32Version, h.u32Length] ++ h.szMd5Sum

def ExportHead.ofBytes (bytes : List UInt8) : ExportHead :=
  let words := bytesWords (bytes.take 12)
  ⟨words.getD 0 0, words.getD 1 0, words.getD 2 0, (bytes.drop 12).take md5SumLen⟩

/-- The characters in front of the first NUL. -/
def cString (chars : List UInt8) : List UInt8 := chars.takeWhile (· ≠ 0)

/-- Where `struNetCfg` is in the configuration, and its size. -/
def netCfgOft : Nat := 576

def netCfgLen : Nat := 208

/-- `gSysInfo`, in the memory from its start on. -/
def sysInfoOf (mem : ByteFile) : SysInfo where
  bytes := mem.read 0 sizeofSysInfo
  length_bytes := ByteFile.length_read mem 0 sizeofSysInfo

/-! ## Export -/

/-- What happens to an export: whether the file opens and each of the two records is
written, what an unfinished file has, and what was on the stack where the checksum
goes. -/
structure ExportIo where
  opens : Bool
  writesHead : Bool
  writesSys : Bool
  unfinished : List UInt8
  stack : List UInt8
  length_stack : stack.length = md5SumLen

/-- `g_strlcpy` of a string into a buffer that had `stack` in it. -/
def strlcpy (stack src : List UInt8) : List UInt8 :=
  let copied := src.take (stack.length - 1) ++ [0]
  copied ++ stack.drop copied.length

def exportHead (sum stack : List UInt8) : ExportHead where
  u32Magic := exportHeadMagic
  u32Version := 1
  u32Length := UInt32.ofNat sizeofSysInfo
  szMd5Sum := strlcpy stack sum

/-- `nvr_param_export`: what it returns, and the file if one was opened. -/
def nvrParamExport (md5 : Md5) (io : ExportIo) (gSysInfo : SysInfo) :
    Int × Option (List UInt8) :=
  match md5.sum gSysInfo.bytes with
  | none => (-1, none)
  | some sum =>
      if !io.opens then (-1, none)
      else if !io.writesHead || !io.writesSys then (-1, some io.unfinished)
      else (0, some ((exportHead sum io.stack).bytes ++ gSysInfo.bytes))

/-! ## Import -/

/-- What an import returns and leaves; how many bytes from the start of `gSysInfo` on were
compared and how far it wrote; and whether the configuration is marked as changed. -/
structure Imported where
  ret : Int
  mem : ByteFile
  compared : Nat
  written : Nat
  sysParamChange : Bool

/-- The parameters that pass the checks are compared with `gSysInfo` and copied over it,
and the network settings are put back. -/
def takeParam (pParam : List UInt8) (mem : ByteFile) : Imported :=
  let struNetCfg := mem.read netCfgOft netCfgLen
  if mem.read 0 pParam.length ≠ pParam then
    ⟨0, (mem.write 0 pParam).write netCfgOft struNetCfg, pParam.length,
      max pParam.length (netCfgOft + netCfgLen), true⟩
  else ⟨0, mem, pParam.length, 0, false⟩

/-- Nothing is done. -/
def refuse (mem : ByteFile) : Imported := ⟨-1, mem, 0, 0, false⟩

/-- `nvr_param_import` of a file, which is `none` if it does not open. A record of no
bytes is not read: `fread` returns 0 for it. -/
def nvrParamImport (md5 : Md5) (file : Option (List UInt8)) (mem : ByteFile) : Imported :=
  match file with
  | none => refuse mem
  | some file =>
      if file.length < exportHeadLen then refuse mem
      else
        let head := ExportHead.ofBytes (file.take exportHeadLen)
        if head.u32Magic ≠ exportHeadMagic ∨ 0x1000000 < head.u32Length then refuse mem
        else
          let rest := file.drop exportHeadLen
          if head.u32Length = 0 ∨ rest.length < head.u32Length.toNat then refuse mem
          else
            let pParam := rest.take head.u32Length.toNat
            match md5.sum pParam with
            | none => refuse mem
            | some sum =>
                if sum ≠ cString head.szMd5Sum then refuse mem else takeParam pParam mem

end Nvr.Server
