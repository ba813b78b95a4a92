import Nvr.Lib.ByteFile
import Nvr.Lib.WordRecord

/-!
# The system configuration on flash

`syscfg.c`. The configuration that a device leaves the factory with lies twice
on one block device, in two erase blocks. A save writes the first copy and then
the second; a read takes the first copy that is sound, and if neither is, it
stores the factory defaults over both.

The power may go during a save. What has been written of a copy by then is not
sound: the copy is torn.
-/

namespace Nvr.Syscfg

open WordRecord

/-- `DEV_SystemCfg` without its checksum, as its words. -/
@[ext] structure SystemCfg where
  words : List UInt32
  length_words : words.length = 58

/-- `SYSTEM_CFG_MAGIC`. -/
def systemCfgMagic : UInt32 := 0x4e565258

namespace SystemCfg

variable (cfg : SystemCfg)

def magic : UInt32 := cfg.words.getD 0 0
def platformServer : UInt32 := cfg.words.getD 26 0
def platformClient : UInt32 := cfg.words.getD 27 0
def supportLang : UInt32 := cfg.words.getD 28 0

/-- The configuration with another word at place `i`. -/
def setWord (i : Nat) (w : UInt32) : SystemCfg where
  words := cfg.words.set i w
  length_words := by rw [List.length_set, cfg.length_words]

/-- The stored form: `calc_cfg_checksum` puts the sum of the words behind them,
and `check_cfg_checksum` compares it. -/
def format : WordFormat SystemCfg where
  size := 58
  toWords := words
  ofWords ws := if h : ws.length = 58 then some ⟨ws, h⟩ else none
  length_toWords := length_words
  ofWords_toWords c := dif_pos c.length_words

end SystemCfg

/-- `DEV_SYSTEM_CFG_LEN`. -/
def devSystemCfgLen : Nat := 236

@[simp] theorem formpointlen : SystemCfg.format.len = devSystemCfgLen := rfl

/-- `g_defsyscfg`, as its bytes before the checksum. -/
def defSyscfgBytes : List UInt8 :=
  wordBytes systemCfgMagic ++
  -- u8SerialId
  [0x43, 0x4e, 0x56, 0x52] ++ List.replicate 10 0x30 ++ List.replicate 34 0 ++
  -- u8DiNum to u8SoftType, with the byte before u16DevType
  [0, 0, 4, 0, 0, 1, 1, 1, 1, 1, 0, 0] ++
  -- u16DevType, u16PlatformFlag
  [0, 0, 0, 0] ++
  -- u8HwVer
  [0x76, 0x31, 0x2e, 0x31] ++ List.replicate 12 0 ++
  -- u8Mac, u8FactoryChecked, u8NoWdt
  [0xe0, 0x3c, 0x5b, 0x11, 0x22, 0x33, 0, 0] ++
  wordBytes 0xC0A801F0 ++ wordBytes 0xFFFFFF00 ++ wordBytes 0xC0A80101 ++
  wordBytes 0xFFFFFFFF ++ wordBytes 0xFFFFFFFF ++ wordBytes 0xFFFFFFFF ++
  -- u8DefLang, u8Rev
  List.replicate 116 0

/-- `g_defsyscfg`. -/
def gDefsyscfg : SystemCfg where
  words := bytesWords defSyscfgBytes
  length_words := by decide

/-! ## The device -/

/-- `g_offset1` as `open_file` computes it: the last block but one of 256 KiB, or
the one after where the device does not end with a block. -/
def openOffset1 (size : Nat) : Nat :=
  (size - 512 * 1024 + 256 * 1024 - 1) / (256 * 1024) * (256 * 1024)

/-- `g_offset2`. -/
def openOffset2 (size : Nat) : Nat := openOffset1 size - 256 * 1024

/-- `/dev/nandb` once `open_file` has looked at it. It is large enough for the two
copies. -/
structure Nand where
  size : Nat
  bytes : ByteFile
  offset1 : Nat
  offset2 : Nat
  large : 512 * 1024 < size
  small : size < 2 ^ 31
  offset1_eq : offset1 = openOffset1 size
  offset2_eq : offset2 = openOffset2 size

/-- `open_file`. -/
def openFile (size : Nat) (bytes : ByteFile) (large : 512 * 1024 < size)
    (small : size < 2 ^ 31) : Nand :=
  ⟨size, bytes, openOffset1 size, openOffset2 size, large, small, rfl, rfl⟩

namespace Nand

variable (d : Nand)

/-- `lseek` and `write`. -/
def write (off : Nat) (data : List UInt8) : Nand :=
  { d with bytes := d.bytes.write off data }

/-- `lseek` and `read` of a copy, `none` if less than all of it is read. -/
def readCopy (off : Nat) : Option (List UInt8) :=
  if off + devSystemCfgLen ≤ d.size then some (d.bytes.read off devSystemCfgLen) else none

end Nand

/-- `write_cfg_file`. -/
def writeCfgFile (d : Nand) (cfg : SystemCfg) : Nand :=
  (d.write d.offset1 (SystemCfg.format.encode cfg)).write d.offset2
    (SystemCfg.format.encode cfg)

/-- The two checks that a copy has to pass. -/
def soundCopy (bytes : List UInt8) : Option SystemCfg :=
  (SystemCfg.format.decode bytes).filter fun cfg => cfg.magic = systemCfgMagic

/-- The fields that are given their default when they are 0. -/
def fillDefaults (cfg : SystemCfg) : SystemCfg :=
  let cfg := if cfg.platformServer = 0 then cfg.setWord 26 gDefsyscfg.platformServer else cfg
  let cfg := if cfg.platformClient = 0 then cfg.setWord 27 gDefsyscfg.platformClient else cfg
  if cfg.supportLang = 0 then cfg.setWord 28 gDefsyscfg.supportLang else cfg

/-- `pUseCfg` of `read_cfg_file`. -/
def useCfg (d : Nand) : Option SystemCfg :=
  match d.readCopy d.offset1, d.readCopy d.offset2 with
  | some cfg1, none => soundCopy cfg1
  | none, some cfg2 => soundCopy cfg2
  | some cfg1, some cfg2 =>
      match soundCopy cfg1 with
      | some cfg => some cfg
      | none => soundCopy cfg2
  | none, none => none

/-- `read_cfg_file`: the configuration it gives back and the device after it. -/
def readCfgFile (d : Nand) : SystemCfg × Nand :=
  match useCfg d with
  | some cfg => (fillDefaults cfg, d)
  | none => (fillDefaults gDefsyscfg, writeCfgFile d gDefsyscfg)

/-! ## Interrupted saves -/

/-- What is left of a copy that was being written. -/
structure Torn where
  bytes : List UInt8
  length_bytes : bytes.length = devSystemCfgLen
  fails : SystemCfg.format.decode bytes = none

/-- Where the power goes during `write_cfg_file`. -/
inductive Cut where
  | before
  | first (left : Torn)
  | between
  | second (left : Torn)

/-- The device when the power has gone during `write_cfg_file`. -/
def cutCfgFile (d : Nand) (cfg : SystemCfg) : Cut → Nand
  | .before => d
  | .first left => d.write d.offset1 left.bytes
  | .between => d.write d.offset1 (SystemCfg.format.encode cfg)
  | .second left =>
      (d.write d.offset1 (SystemCfg.format.encode cfg)).write d.offset2 left.bytes

/-- A device in use. `saved` is the configuration of the last save that came to
its end and `cutOff` those of the saves that did not since then; the program
knows neither. -/
structure Device where
  nand : Nand
  saved : SystemCfg
  cutOff : List SystemCfg
  up : Bool

inductive Op where
  | save (cfg : SystemCfg)
  | cut (cfg : SystemCfg) (point : Cut)
  | restart

/-- What happens to a device. After a cut nothing happens before the restart. -/
inductive Step : Device → Op → Device → Prop
  | save {s : Device} (cfg : SystemCfg) (hup : s.up = true) :
      Step s (.save cfg) { s with nand := writeCfgFile s.nand cfg, saved := cfg, cutOff := [] }
  | cut {s : Device} (cfg : SystemCfg) (point : Cut) (hup : s.up = true) :
      Step s (.cut cfg point)
        { s with nand := cutCfgFile s.nand cfg point, cutOff := cfg :: s.cutOff, up := false }
  | restart (s : Device) :
      Step s .restart { s with nand := (readCfgFile s.nand).2, up := true }

end Nvr.Syscfg
