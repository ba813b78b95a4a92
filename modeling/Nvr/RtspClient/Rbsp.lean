import Nvr.Lib.EmulationPrevention

/-!
# Raw byte sequences

`rbsp::torbsp` of `h264_rbsp.cpp`. What is written to `buf` is written from its beginning
on, so that the bytes written are the buffer up to `NumBytesInRBSP`. Nothing is written
when a byte is read that is not in `src`.
-/

namespace Nvr.RtspClient

/-- `NEXT24BIT`, of three bytes of `src`. -/
def next24Bit (src : List UInt8) (pos : Nat) : Option (BitVec 32) :=
  match src[pos]?, src[pos + 1]?, src[pos + 2]? with
  | some a, some b, some c =>
      some (((a.toBitVec.setWidth 32 <<< 16) ||| (b.toBitVec.setWidth 32 <<< 8) |||
        c.toBitVec.setWidth 32) &&& 0x0fff#32)
  | _, _, _ => none

/-- Whether the next two bytes are written and a third one is left out. -/
def isPrevention (src : List UInt8) (pos : Nat) : Option Bool :=
  if pos + 2 < src.length then (next24Bit src pos).map fun bits => bits = 0x000003#32
  else some false

/-- The loop of `torbsp`, with the bytes written. In every round `pos` goes on. -/
def torbspLoop (src : List UInt8) (limit : Nat) : Nat → Nat → List UInt8 → Option (List UInt8)
  | 0, _, buf => some buf
  | rounds + 1, pos, buf =>
      if pos < src.length ∧ buf.length < limit then
        match isPrevention src pos, src[pos]?, src[pos + 1]? with
        | some true, some a, some b => torbspLoop src limit rounds (pos + 3) (buf ++ [a, b])
        | some false, some a, _ => torbspLoop src limit rounds (pos + 1) (buf ++ [a])
        | _, _, _ => none
      else some buf

/-- `rbsp::torbsp`. The limit is `buflen-3`, as an `unsigned int`. -/
def torbsp (src : List UInt8) (buflen : UInt32) : Option (List UInt8) :=
  torbspLoop src (buflen - 3).toNat src.length 1 []

end Nvr.RtspClient
