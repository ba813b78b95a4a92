import Mathlib.Data.List.Basic
import Mathlib.Logic.Function.Iterate

/-!
# The description of an upgrade

`parseDesFile` of `makeupdatefile.c` reads the description of an upgrade file line by line.
Inside a line it looks for keywords, and behind some of them for a value. The line is a C
string: what `strlen` sees of it are its bytes up to the first 0.

A value is copied into a buffer of the caller's, and a call is known by how many bytes it
has copied there and from where (`ValueCall`). What `ProcessPacketReq` makes of a packet
is not modelled here; the packets that it is called with are kept.
-/

namespace Nvr.Update.Describe

def ascii (s : String) : List UInt8 := s.toList.map fun c => c.toNat.toUInt8

def space : UInt8 := 32
def quote : UInt8 := 34
def semicolon : UInt8 := 59
def equals : UInt8 := 61

/-- `for(; i<len; i++)` as long as `p` holds of `dat[i]`. -/
def advance (p : UInt8 → Bool) (dat : List UInt8) (i : Nat) : Nat :=
  i + ((dat.drop i).takeWhile p).length

def isBlank (c : UInt8) : Bool := c = space

/-! ## Values -/

/-- `atoi`. -/
def atoi (str : List UInt8) : Int :=
  let digits (s : List UInt8) : Int :=
    (s.takeWhile fun c => 48 ≤ c && c ≤ 57).foldl (fun n c => 10 * n + (c.toNat - 48 : Int)) 0
  let s := (str.takeWhile (· ≠ 0)).dropWhile fun c => c = 32 || (9 ≤ c && c ≤ 13)
  match s with
  | 45 :: s => -digits s
  | 43 :: s => digits s
  | s => digits s

/-- A call of `GetValueInt` or `GetValueStr`: what it returns, the string afterwards, and
the `memcpy` if it comes that far. -/
structure Value where
  ret : Int
  dat : List UInt8
  index : Nat
  bytes : List UInt8

/-- A call that returns -1. -/
def Value.none (dat : List UInt8) : Value := ⟨-1, dat, 0, []⟩

/-- Where a value begins, behind blanks, an equals sign and blanks. -/
def valueStart (dat : List UInt8) : Option Nat :=
  let i := advance isBlank dat 0
  if i = dat.length then Option.none
  else if dat.getD i 0 ≠ equals then Option.none
  else some (advance isBlank dat (i + 1))

/-- `GetValueInt`. Its `str` has 32 bytes; the value is `atoi` of what is copied there. -/
def getValueInt (dat : List UInt8) : Value :=
  match valueStart dat with
  | Option.none => .none dat
  | some index =>
      let i := advance (· ≠ semicolon) dat index
      let number := (dat.drop index).take (i - index)
      let number := number.map fun c => if isBlank c then 0 else c
      ⟨i, dat.take index ++ number ++ dat.drop i, index, number⟩

/-- `GetValueStr`. Its `flg` is 1 from the start, whether there is a quotation mark or
not. -/
def getValueStr (dat : List UInt8) (datlen : Nat) : Value :=
  match valueStart dat with
  | Option.none => .none dat
  | some start =>
      let index := if dat.getD start 0 = quote then start + 1 else start
      let i := advance (· ≠ quote) dat index
      let bytes := (dat.drop index).take (min datlen (i - index))
      ⟨advance (· ≠ semicolon) dat i, dat, index, bytes⟩

/-- `GetPacketType`. -/
def getPacketType (str : List UInt8) : Int :=
  if ascii "kernel" <+: str then 1
  else if ascii "filesys" <+: str then 2
  else if ascii "cmd" <+: str then 3
  else if ascii "logo" <+: str then 4
  else 1

/-- `GetCmdType`. -/
def getCmdType (str : List UInt8) : Int :=
  if ascii "reset" <+: str then 3
  else if ascii "file" <+: str then 2
  else if ascii "erase" <+: str then 1
  else if ascii "match" <+: str then 5
  else 0

/-! ## Packets -/

/-- `PacketObj`, as far as a description sets it. -/
structure DesPacket where
  name : List UInt8
  path : List UInt8
  hardware : List UInt8
  devIndex : Int
  packetType : Int
  offset : Int
  cmd : Int
  size : Int

/-- The packet that a line with `updatepacket` begins. -/
def DesPacket.cleared : DesPacket :=
  ⟨List.replicate 256 0, List.replicate 128 0, List.replicate 256 0, 0, 0, 0, 0, 0⟩

/-- `memcpy` to the front of a field. -/
def copyTo (field bytes : List UInt8) : List UInt8 := bytes ++ field.drop bytes.length

/-- `UDPATE_DES_PACKET_DEVINDEX` and so on, in the order of the comparisons. -/
inductive Key where
  | devindex
  | packetType
  | file
  | offset
  | cmd
  | size
  | path
  | hardware
  deriving DecidableEq, Repr

def Key.all : List Key := [.devindex, .packetType, .file, .offset, .cmd, .size, .path, .hardware]

def Key.text : Key → List UInt8
  | .devindex => ascii "devindex"
  | .packetType => ascii "packetType"
  | .file => ascii "file"
  | .offset => ascii "offset"
  | .cmd => ascii "cmd"
  | .size => ascii "size"
  | .path => ascii "path"
  | .hardware => ascii "hardware"

/-- The size of the buffer that the value is copied to. -/
def Key.cap : Key → Nat
  | .devindex | .offset | .size => 32
  | .packetType | .cmd => 32
  | .file => 256
  | .path => 128
  | .hardware => 256

/-- Whether the value is a number. -/
def Key.IsInt (k : Key) : Prop := k = .devindex ∨ k = .offset ∨ k = .size

instance (k : Key) : Decidable k.IsInt := inferInstanceAs (Decidable (_ ∨ _))

def Key.value (k : Key) (dat : List UInt8) : Value :=
  if k.IsInt then getValueInt dat else getValueStr dat k.cap

/-- What the value is stored to. A number is stored only if there is one. -/
def Key.store (k : Key) (v : Value) (p : DesPacket) : DesPacket :=
  let typestr := copyTo (List.replicate 32 0) v.bytes
  match k with
  | .devindex => if v.ret = -1 then p else { p with devIndex := atoi v.bytes }
  | .packetType => { p with packetType := getPacketType typestr }
  | .file => { p with name := copyTo p.name v.bytes }
  | .offset => if v.ret = -1 then p else { p with offset := atoi v.bytes }
  | .cmd => { p with cmd := getCmdType typestr }
  | .size => if v.ret = -1 then p else { p with size := atoi v.bytes }
  | .path => { p with path := copyTo p.path v.bytes }
  | .hardware => { p with hardware := copyTo p.hardware v.bytes }

/-! ## A line -/

/-- The inner loop: the bytes of the line, where it is, and the packet. -/
structure DesState where
  dat : List UInt8
  i : Int
  packetflg : Int
  packet : DesPacket
  processed : List DesPacket

/-- What a call copies: to a buffer of `cap` bytes, `written` bytes that lie behind
`source` in a string of `len`. -/
structure ValueCall where
  cap : Nat
  written : Nat
  source : Nat
  len : Nat

/-- `&dat[i]` as a string. -/
def DesState.string (s : DesState) : List UInt8 := (s.dat.drop s.i.toNat).takeWhile (· ≠ 0)

/-- `strncmp(&dat[i], text, strlen(text)) == 0`. -/
def DesState.At (s : DesState) (text : List UInt8) : Prop := text <+: s.dat.drop s.i.toNat

instance (s : DesState) (text : List UInt8) : Decidable (s.At text) :=
  inferInstanceAs (Decidable (_ <+: _))

/-- A keyword with a value, from behind the keyword on. -/
def takeValue (k : Key) (s : DesState) : DesState × List ValueCall :=
  if s.packetflg = 2 then
    let v := k.value s.string
    ({ s with
        dat := s.dat.take s.i.toNat ++ v.dat ++ s.dat.drop (s.i.toNat + s.string.length)
        i := s.i + v.ret
        packet := k.store v s.packet },
      [⟨k.cap, v.bytes.length, v.index, s.string.length⟩])
  else (s, [])

/-- The blanks in front of a keyword. -/
def DesState.skipBlanks (s : DesState) : DesState :=
  { s with i := advance isBlank s.dat s.i.toNat }

/-- The branches of the inner loop. -/
def desBranch (s : DesState) : DesState × List ValueCall :=
  if s.At (ascii "updatepacket") then
    ({ s with packet := .cleared, packetflg := 1, i := s.i + 12 }, [])
  else if s.At (ascii "\x7b") then
    ({ s with packetflg := if s.packetflg = 1 then 2 else s.packetflg, i := s.i + 1 }, [])
  else if s.At (ascii "\x7d") then
    ({ s with
        processed := if s.packetflg = 2 then s.processed ++ [s.packet] else s.processed
        packetflg := if s.packetflg = 2 then 0 else s.packetflg
        i := s.i + 1 }, [])
  else match Key.all.find? fun k => s.At k.text with
    | some k => takeValue k { s with i := s.i + k.text.length }
    | Option.none =>
        ({ s with i := advance (fun c => c ≠ space && c ≠ quote) s.dat s.i.toNat }, [])

/-- The inner loop has come to the end of the line. -/
def DesState.Done (s : DesState) : Prop := (s.dat.length : Int) ≤ s.i

instance (s : DesState) : Decidable s.Done := inferInstanceAs (Decidable (_ ≤ _))

/-- A round of the inner loop, `while(i<len)`. -/
def desStep (s : DesState) : DesState × List ValueCall :=
  if s.Done then (s, [])
  else if s.skipBlanks.Done then (s.skipBlanks, [])
  else desBranch s.skipBlanks

def desRun (s : DesState) (n : Nat) : DesState := (fun s => (desStep s).1)^[n] s

/-- A line as `fgets` gives it, up to its first 0. -/
structure DesLine where
  chars : List UInt8
  length_le : chars.length ≤ 199
  nonzero : ∀ c ∈ chars, c ≠ 0

/-- Where the inner loop begins, if it does: not in a blank line, and not in a comment. -/
def DesLine.start (l : DesLine) (packetflg : Int) (packet : DesPacket)
    (processed : List DesPacket) : Option DesState :=
  let i := advance isBlank l.chars 0
  if i = l.chars.length then Option.none
  else if l.chars.getD i 0 = 35 then Option.none
  else some ⟨l.chars, i, packetflg, packet, processed⟩

end Nvr.Update.Describe
