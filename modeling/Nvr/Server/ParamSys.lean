import Nvr.Lib.WordRecord

/-!
# The stored configuration

`nvr_param_sys.c`, as far as the system configuration goes. It is one flat
structure, stored as its bytes in two files, the main one and a backup. It is
read by overlaying what a file has on the defaults, and written by rewriting
one file after the other, each with up to five attempts.

A write is not one step: the power may go at any point of it, so it is a
relation between what the files hold at one moment and at the next. What `fwrite`
has handed on grows byte by byte; a file may be closed before all is written.
-/

namespace Nvr.Server

open WordRecord

/-- `sizeof(NVR_PARAM_SYS_INFO_S)`, on the 32-bit machine. -/
def sizeofSysInfo : Nat := 17600

/-- `NVR_PARAM_SYS_INFO_S`, as its bytes. -/
@[ext] structure SysInfo where
  bytes : List UInt8
  length_bytes : bytes.length = sizeofSysInfo

/-- The first word of the structure. -/
def SysInfo.u32Size (c : SysInfo) : UInt32 :=
  bytesWord (c.bytes.getD 0 0) (c.bytes.getD 1 0) (c.bytes.getD 2 0) (c.bytes.getD 3 0)

/-- What the defaults put behind the first two words: they overwrite some fields
and leave others, such as the network settings, as they are. -/
structure DefaultCfg where
  fill : List UInt8 → List UInt8
  length_fill : ∀ l, (fill l).length = l.length

def nvrParamDefaultSysCfg (defaults : DefaultCfg) (gSysInfo : SysInfo) : SysInfo where
  bytes := wordBytes (UInt32.ofNat sizeofSysInfo) ++ wordBytes 0x0001 ++
    defaults.fill (gSysInfo.bytes.drop 8)
  length_bytes := by
    simp [defaults.length_fill, gSysInfo.length_bytes, sizeofSysInfo]

/-- `fread` of a whole structure from a file over what the structure holds. -/
def SysInfo.overlay (c : SysInfo) (file : List UInt8) : SysInfo where
  bytes := file.take sizeofSysInfo ++ c.bytes.drop (file.take sizeofSysInfo).length
  length_bytes := by
    simp only [List.length_append, List.length_take, List.length_drop, c.length_bytes]
    omega

/-! ## Reading -/

/-- `sysconf` and `sysconf_bak`; a file that is not there is `none`. -/
structure ParamFiles where
  main : Option (List UInt8)
  bak : Option (List UInt8)

/-- `nvr_param_read_sys_param_info`: what it returns, and `gSysInfo` after it. -/
def nvrParamReadSysParamInfo (defaults : DefaultCfg) (gSysInfo : SysInfo) (files : ParamFiles) :
    Int × SysInfo :=
  let gSysInfo := nvrParamDefaultSysCfg defaults gSysInfo
  match files.main, files.bak with
  | none, none => (-1, gSysInfo)
  | some main, none => (0, gSysInfo.overlay main)
  | none, some bak => (0, gSysInfo.overlay bak)
  | some main, some bak =>
      let struSysInfo := gSysInfo.overlay main
      let struBackSysInfo := gSysInfo.overlay bak
      if struSysInfo.bytes ≠ struBackSysInfo.bytes then
        if struSysInfo.u32Size = UInt32.ofNat sizeofSysInfo ∨
            struBackSysInfo.u32Size ≠ UInt32.ofNat sizeofSysInfo then (0, struSysInfo)
        else (0, struBackSysInfo)
      else (0, struSysInfo)

/-! ## Writing -/

/-- Where `nvr_param_write_file` is: about to open the file, writing it, or
about to look at what it has written, with so many attempts left. -/
inductive WritePhase where
  | opening
  | writing (tries : Nat)
  | checking (tries : Nat)
  | done (ok : Bool)

/-- The next thing `nvr_param_write_file` does to a file. -/
inductive WriteStep (data : List UInt8) :
    WritePhase × Option (List UInt8) → WritePhase × Option (List UInt8) → Prop
  | openFails (f) : WriteStep data (.opening, f) (.done false, f)
  | open (f) : WriteStep data (.opening, f) (.writing 5, some [])
  | write {n : Nat} {b : List UInt8} {x : UInt8} :
      b ++ [x] <+: data → WriteStep data (.writing n, some b) (.writing n, some (b ++ [x]))
  | close (n : Nat) (f) : WriteStep data (.writing n, f) (.checking n, f)
  | checkFails (n : Nat) (f) : WriteStep data (.checking (n + 1), f) (.checking n, f)
  | same (n : Nat) : WriteStep data (.checking (n + 1), some data) (.done true, some data)
  | differs {n : Nat} {b : List UInt8} :
      b ≠ data → WriteStep data (.checking (n + 1), some b) (.writing n, some [])
  | differsOpenFails {n : Nat} {b : List UInt8} :
      b ≠ data → WriteStep data (.checking (n + 1), some b) (.checking n, some b)
  | giveUp (f) : WriteStep data (.checking 0, f) (.done false, f)

/-- Where `nvr_param_write_sys_param_info` is. -/
inductive SavePhase where
  | main (phase : WritePhase)
  | bak (phase : WritePhase)
  | done (ok : Bool)

/-- The next thing `nvr_param_write_sys_param_info` does to the files. The
backup is not touched before the main file has been read back. -/
inductive SaveStep (data : List UInt8) : SavePhase × ParamFiles → SavePhase × ParamFiles → Prop
  | main {phase phase' : WritePhase} {f f' bak : Option (List UInt8)} :
      WriteStep data (phase, f) (phase', f') →
        SaveStep data (.main phase, ⟨f, bak⟩) (.main phase', ⟨f', bak⟩)
  | mainFails (files) : SaveStep data (.main (.done false), files) (.done false, files)
  | mainDone (files) : SaveStep data (.main (.done true), files) (.bak .opening, files)
  | bak {phase phase' : WritePhase} {main f f' : Option (List UInt8)} :
      WriteStep data (phase, f) (phase', f') →
        SaveStep data (.bak phase, ⟨main, f⟩) (.bak phase', ⟨main, f'⟩)
  | bakDone (ok : Bool) (files) : SaveStep data (.bak (.done ok), files) (.done ok, files)

end Nvr.Server
