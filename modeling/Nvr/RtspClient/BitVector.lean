import Nvr.Lib.ExpGolomb

/-!
# The bit reader

`bitvector` of `bitvector.cpp` and `ExpGolomb` of `exp_golomb.cpp`. `char` is unsigned and
`unsigned long` has 32 bits, as on the processor that the recorder has. A read behind the
end of the bytes is a fault, and so is a shift by as many bits as the type has.
-/

namespace Nvr.RtspClient

def maxLenth : Nat := 32

inductive BitFault where
  | read
  | write
  | shift
  deriving DecidableEq, Repr

/-- `bitvector`. -/
structure BitVector where
  bitstr : List UInt8
  bitpos : Nat
  curbitpos : Nat
  totalbit : Nat

namespace BitVector

def new (s : List UInt8) (bp : UInt8) (tb : Nat) : BitVector :=
  ⟨s, bp.toNat, (bp &&& 7).toNat, tb⟩

/-- `temp[i]` as an `int`. -/
def promote (temp : List UInt8) (i : Nat) : BitVec 32 := (temp.getD i 0).toBitVec.setWidth 32

/-- The five bytes as an `unsigned long long`. Both operands of `|=` are an `int` before. -/
def gathered (temp : List UInt8) : BitVec 64 :=
  ((promote temp 0 <<< 24).signExtend 64 <<< 8) |||
    ((promote temp 1 <<< 24) ||| (promote temp 2 <<< 16) ||| (promote temp 3 <<< 8) |||
      promote temp 4).signExtend 64

/-- The number of bits that a call goes on by: not more than there are. -/
def clamp (b : BitVector) (n : Nat) : Nat :=
  let n := if n > maxLenth then maxLenth else n
  if (b.bitpos + n) % 2 ^ 32 > b.totalbit then (b.totalbit + 2 ^ 32 - b.bitpos) % 2 ^ 32 % 256
  else n

def advance (b : BitVector) (n : Nat) : BitVector :=
  { b with bitpos := (b.bitpos + n) % 2 ^ 32, curbitpos := (b.bitpos + n) % 2 ^ 32 % 8 }

/-- `bitvector::read_bits`. -/
def readBits (b : BitVector) (n : Nat) : Except BitFault (UInt32 × BitVector) :=
  if n = 0 then .ok (0, b)
  else
    let n := b.clamp n
    let nbyte := (b.curbitpos + n + 7) / 8
    let suffixn := 8 - (b.curbitpos + n) % 8
    if 5 < nbyte then .error .write
    else if b.bitstr.length < b.bitpos / 8 + nbyte then .error .read
    else
      let temp := List.replicate (5 - nbyte) 0 ++ (b.bitstr.drop (b.bitpos / 8)).take nbyte
      let ret := (gathered temp >>> suffixn) &&& ((1#64 <<< n) - 1#64)
      .ok (.ofBitVec (ret.setWidth 32), b.advance n)

/-- `bitvector::skip_bits`. -/
def skipBits (b : BitVector) (n : Nat) : BitVector :=
  if n = 0 then b else b.advance (b.clamp n)

/-- `bitvector::read_1bit`. -/
def read1bit (b : BitVector) : Except BitFault (UInt32 × BitVector) :=
  if b.bitstr.length ≤ b.bitpos / 8 then .error .read
  else
    let curchar := b.bitstr.getD (b.bitpos / 8) 0
    let suffixn := 7 - b.curbitpos
    .ok (.ofBitVec ((curchar.toBitVec.setWidth 32 >>> suffixn) &&& 1#32), b.advance 1)

/-- The loop over the leading zeros, with the bits that are left. -/
def leadingZeroBits : Nat → BitVector → Nat → Except BitFault (Nat × BitVector)
  | 0, _, _ => .error .read
  | left + 1, b, zeroBits =>
      match b.read1bit with
      | .error fault => .error fault
      | .ok (bit, b) =>
          let zeroBits := (zeroBits + 1) % 256
          if bit ≠ 0 then .ok (zeroBits, b) else leadingZeroBits left b zeroBits

/-- `ExpGolomb::parse_codenum`. -/
def parseCodenum (b : BitVector) : Except BitFault (UInt32 × BitVector) :=
  match leadingZeroBits (8 * b.bitstr.length - b.bitpos) b 255 with
  | .error fault => .error fault
  | .ok (zeroBits, b) =>
      match b.readBits zeroBits with
      | .error fault => .error fault
      | .ok (suffix, b) =>
          if 32 ≤ zeroBits then .error .shift
          else .ok (1 <<< UInt32.ofNat zeroBits - 1 + suffix, b)

/-- `ExpGolomb::parse_ue`. -/
def parseUe (b : BitVector) : Except BitFault (UInt32 × BitVector) := b.parseCodenum

/-- `ExpGolomb::parse_se`. -/
def parseSe (b : BitVector) : Except BitFault (Int32 × BitVector) :=
  match b.parseCodenum with
  | .error fault => .error fault
  | .ok (codenum, b) =>
      let ret := ((codenum + 1) >>> 1).toInt32
      .ok (if codenum &&& 1 ≠ 0 then ret else -ret, b)

end BitVector

/-! ## Sequences of calls -/

/-- A call, with a length that is allowed. -/
inductive BitCall where
  | readBits (n : Nat) (le : n ≤ maxLenth)
  | skipBits (n : Nat) (le : n ≤ maxLenth)
  | read1bit
  | parseUe
  | parseSe

/-- What a call returns, and the reader afterwards. -/
def BitVector.call (b : BitVector) : BitCall → Except BitFault (Int × BitVector)
  | .readBits n _ => (b.readBits n).map fun r => (r.1.toNat, r.2)
  | .skipBits n _ => .ok (0, b.skipBits n)
  | .read1bit => b.read1bit.map fun r => (r.1.toNat, r.2)
  | .parseUe => b.parseUe.map fun r => (r.1.toNat, r.2)
  | .parseSe => b.parseSe.map fun r => (r.1.toInt, r.2)

/-- What the calls return and how far each of them goes, up to the first fault. -/
def BitVector.run (b : BitVector) : List BitCall → List (Option (Int × Nat))
  | [] => []
  | c :: cs =>
      match b.call c with
      | .error _ => [none]
      | .ok (v, b') => some (v, b'.bitpos - b.bitpos) :: b'.run cs

/-! ## What the calls are for -/

/-- The value of a call and the bits that it takes, if the string has as many. -/
def BitCall.reference (bits : List Bool) : BitCall → Option (Int × Nat)
  | .readBits n _ => if n ≤ bits.length then some (BitString.value (bits.take n), n) else none
  | .skipBits n _ => if n ≤ bits.length then some (0, n) else none
  | .read1bit => bits.head?.map fun bit => (bit.toNat, 1)
  | .parseUe => (ExpGolomb.read bits).map fun code => (code.1, code.2)
  | .parseSe => (ExpGolomb.read bits).map fun code => (ExpGolomb.signed code.1, code.2)

/-- Calls one after another, if all stay within the string. -/
def referenceRun (bits : List Bool) : List BitCall → Option (List (Int × Nat))
  | [] => some []
  | c :: cs =>
      match c.reference bits with
      | none => none
      | some (v, len) => (referenceRun (bits.drop len) cs).map fun vs => (v, len) :: vs

/-- A string of bytes the number of whose bits is an `unsigned int`. -/
structure ByteString where
  bytes : List UInt8
  small : 8 * bytes.length < 2 ^ 32

def ByteString.totalbit (s : ByteString) : Nat := 8 * s.bytes.length

def ByteString.bits (s : ByteString) : List Bool := BitString.ofBytes s.bytes

/-- A reader that is at a position of a string. -/
def ByteString.reader (s : ByteString) (p : Nat) : BitVector := ⟨s.bytes, p, p % 8, s.totalbit⟩

end Nvr.RtspClient
