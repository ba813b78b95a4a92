import Nvr.RtspClient.BitVector

/-!
# What the bit reader reads

`read_bits` gathers up to five bytes and shifts out the bits behind those it is asked for.
There are two things that go wrong. If the last bit is the last of its byte nothing is to
be shifted out, but a whole byte is, so that every bit comes from the byte before. And the
four lower bytes are put together in an `int`: if its sign bit is set the byte above them,
which is needed only if the bits reach into five bytes, becomes all ones. `CodeBit` says so
for each bit, and `ReadMeets` when none of it shows.
-/

namespace Nvr.RtspClient

open BitString

variable {bytes temp : List UInt8} {p n q i j : Nat}

/-! ## Five bytes -/

theorem promote_getLsbD (temp : List UInt8) (i j : Nat) :
    (BitVector.promote temp i).getLsbD j = Byte.bit (temp.getD i 0) j := by
  rw [BitVector.promote, BitVec.getLsbD_setWidth, Byte.bit]
  by_cases hj : j < 32
  · simp [hj]
  · rw [BitVec.getLsbD_of_ge _ j (by omega)]
    simp

theorem promote_shift (temp : List UInt8) (i k j : Nat) :
    (BitVector.promote temp i <<< k).getLsbD j =
      (decide (j < 32) && decide (k ≤ j) && Byte.bit (temp.getD i 0) (j - k)) := by
  rw [BitVec.getLsbD_shiftLeft, promote_getLsbD]
  by_cases hk : j < k
  · simp [hk]
  · simp [hk, Nat.not_lt.1 hk]

theorem gathered_low (temp : List UInt8) (hj : j < 32) :
    (BitVector.gathered temp).getLsbD j = Byte.bit (temp.getD (4 - j / 8) 0) (j % 8) := by
  have hhigh : ∀ x : UInt8, ∀ k, 8 ≤ k → Byte.bit x k = false := fun x k hk => Byte.bit_of_le hk
  have hfirst : ((BitVector.promote temp 0 <<< 24).signExtend 64 <<< 8).getLsbD j = false := by
    rw [BitVec.getLsbD_shiftLeft, BitVec.getLsbD_signExtend, promote_shift]
    by_cases h8 : j < 8
    · simp [h8]
    · have h32 : j - 8 < 32 := by omega
      have h24 : ¬24 ≤ j - 8 := by omega
      simp [h32, h24]
  rw [BitVector.gathered, BitVec.getLsbD_or, hfirst, Bool.false_or, BitVec.getLsbD_signExtend,
    if_pos hj]
  simp only [BitVec.getLsbD_or, promote_shift, promote_getLsbD, hj, decide_true, Bool.true_and,
    show j < 64 by omega]
  obtain h0 | h1 | h2 | h3 : j / 8 = 0 ∨ j / 8 = 1 ∨ j / 8 = 2 ∨ j / 8 = 3 := by omega
  · simp [show ¬24 ≤ j by omega, show ¬16 ≤ j by omega, show ¬8 ≤ j by omega, h0,
      Nat.mod_eq_of_lt (show j < 8 by omega)]
  · simp [show ¬24 ≤ j by omega, show ¬16 ≤ j by omega, show 8 ≤ j by omega, h1,
      show j % 8 = j - 8 by omega, hhigh _ j (by omega)]
  · simp [show ¬24 ≤ j by omega, show 16 ≤ j by omega, show 8 ≤ j by omega, h2,
      show j % 8 = j - 16 by omega, hhigh _ j (by omega), hhigh _ (j - 8) (by omega)]
  · simp [show 24 ≤ j by omega, show 16 ≤ j by omega, show 8 ≤ j by omega, h3,
      show j % 8 = j - 24 by omega, hhigh _ j (by omega), hhigh _ (j - 8) (by omega),
      hhigh _ (j - 16) (by omega)]

theorem gathered_high (temp : List UInt8) (hj : 32 ≤ j) (hj' : j < 40) :
    (BitVector.gathered temp).getLsbD j =
      (Byte.bit (temp.getD 0 0) (j - 32) || Byte.bit (temp.getD 1 0) 7) := by
  have hhigh : ∀ x : UInt8, ∀ k, 8 ≤ k → Byte.bit x k = false := fun x k hk => Byte.bit_of_le hk
  have hfirst : ((BitVector.promote temp 0 <<< 24).signExtend 64 <<< 8).getLsbD j =
      Byte.bit (temp.getD 0 0) (j - 32) := by
    rw [BitVec.getLsbD_shiftLeft, BitVec.getLsbD_signExtend, promote_shift]
    simp [show j < 64 by omega, show ¬j < 8 by omega, show j - 8 < 32 by omega,
      show j - 8 < 64 by omega, show 24 ≤ j - 8 by omega, show j - 8 - 24 = j - 32 by omega]
  rw [BitVector.gathered, BitVec.getLsbD_or, hfirst, BitVec.getLsbD_signExtend, if_neg (by omega),
    BitVec.msb_eq_getLsbD_last]
  simp only [BitVec.getLsbD_or, promote_shift, promote_getLsbD]
  simp [show j < 64 by omega, hhigh]

/-- A bit of the bytes gathered from `8 * first` on, from the end of the last of them. -/
def window (bytes : List UInt8) (first nbyte j : Nat) : Bool :=
  decide (j < 8 * nbyte) && bitAt bytes (8 * first + 8 * nbyte - 1 - j)

/-- The five bytes of `temp`. -/
def tempOf (bytes : List UInt8) (first nbyte : Nat) : List UInt8 :=
  List.replicate (5 - nbyte) 0 ++ (bytes.drop first).take nbyte

theorem tempOf_getD {first nbyte : Nat} (hnbyte : nbyte ≤ 5) (hi : i < 5) :
    (tempOf bytes first nbyte).getD i 0 =
      if i < 5 - nbyte then 0 else bytes.getD (first + (i - (5 - nbyte))) 0 := by
  rw [tempOf]
  split
  · rename_i hlt
    rw [List.getD_eq_getElem?_getD, List.getElem?_append_left (by rwa [List.length_replicate]),
      List.getElem?_replicate_of_lt hlt]
    rfl
  · rename_i hge
    rw [List.getD_eq_getElem?_getD,
      List.getElem?_append_right (by rw [List.length_replicate]; omega), List.length_replicate,
      List.getElem?_take_of_lt (by omega), List.getElem?_drop, List.getD_eq_getElem?_getD]

theorem bit_tempOf {first nbyte : Nat} (hnbyte : nbyte ≤ 5) (hj : j < 40) :
    Byte.bit ((tempOf bytes first nbyte).getD (4 - j / 8) 0) (j % 8) =
      window bytes first nbyte j := by
  rw [tempOf_getD hnbyte (by omega), window, bitAt]
  by_cases hlt : j < 8 * nbyte
  · have hdiv : (8 * first + 8 * nbyte - 1 - j) / 8 = first + (4 - j / 8 - (5 - nbyte)) := by omega
    have hmod : 7 - (8 * first + 8 * nbyte - 1 - j) % 8 = j % 8 := by omega
    rw [if_neg (by omega), hdiv, hmod, decide_eq_true hlt, Bool.true_and]
  · rw [if_pos (by omega), decide_eq_false hlt, Bool.false_and, Byte.bit_zero]

/-- What is gathered is the window, but with ones above a sign bit that is set. -/
theorem gathered_tempOf {first nbyte : Nat} (hnbyte : nbyte ≤ 5) (hj : j < 40) :
    (BitVector.gathered (tempOf bytes first nbyte)).getLsbD j =
      (window bytes first nbyte j || (decide (32 ≤ j) && window bytes first nbyte 31)) := by
  by_cases hlow : j < 32
  · rw [gathered_low _ hlow, bit_tempOf hnbyte hj, decide_eq_false (Nat.not_le.2 hlow),
      Bool.false_and, Bool.or_false]
  · have hbit : j / 8 = 4 := by omega
    have hfirst := @bit_tempOf bytes _ first _ hnbyte hj
    have hsecond := @bit_tempOf bytes _ first _ hnbyte (show 31 < 40 by omega)
    rw [hbit] at hfirst
    rw [gathered_high _ (Nat.not_lt.1 hlow) hj, decide_eq_true (Nat.not_lt.1 hlow), Bool.true_and,
      ← hfirst, ← hsecond]
    congr 2
    omega

/-! ## `read_bits` -/

/-- The bit that a call returns for the one at `q`. -/
def CodeBit (bytes : List UInt8) (p n q : Nat) : Bool :=
  let second := 8 * (p / 8) + 8
  if (p + n) % 8 = 0 then
    if q < second then decide (p % 8 + n = 32) && bitAt bytes (8 * (p / 8))
    else bitAt bytes (q - 8)
  else bitAt bytes q || (decide (q < second ∧ 32 < p % 8 + n) && bitAt bytes second)

/-- `n` bits from `p` on are read as they are: their end is not the end of a byte, and they
reach into four bytes only, or the second byte is small, or those in the first byte are all
ones; or every bit is what it is taken for. -/
def ReadMeets (bytes : List UInt8) (p n : Nat) : Prop :=
  let second := 8 * (p / 8) + 8
  n = 0 ∨
    if (p + n) % 8 = 0 then
      ∀ q, p ≤ q → q < p + n → bitAt bytes q =
        if q < second then decide (p % 8 + n = 32) && bitAt bytes (8 * (p / 8))
        else bitAt bytes (q - 8)
    else p % 8 + n ≤ 32 ∨ bitAt bytes second = false ∨
      ∀ q, p ≤ q → q < second → bitAt bytes q = true

/-- The mask of the lower bits. -/
theorem mask_getLsbD (hn : n ≤ 32) (hi : i < 64) :
    ((1#64 <<< n) - 1#64).getLsbD i = decide (i < n) := by
  have hpow : (1#64 <<< n) - 1#64 = BitVec.ofNat 64 (2 ^ n - 1) := by
    have hlt : 2 ^ n ≤ 2 ^ 32 := Nat.pow_le_pow_right Nat.two_pos hn
    have hpos : 0 < 2 ^ n := Nat.two_pow_pos n
    refine BitVec.eq_of_toNat_eq ?_
    simp only [BitVec.toNat_sub, BitVec.toNat_shiftLeft, BitVec.toNat_ofNat, Nat.shiftLeft_eq]
    omega
  rw [hpow, BitVec.getLsbD_ofNat, Nat.testBit_two_pow_sub_one]
  simp [hi]

/-- The value of a call, bit by bit. -/
theorem read_value_testBit {suffixn : Nat} (ret : BitVec 64) (hn : n ≤ 32) (i : Nat) :
    ((UInt32.ofBitVec (((ret >>> suffixn) &&& ((1#64 <<< n) - 1#64)).setWidth 32)).toNat).testBit i =
      (decide (i < n) && ret.getLsbD (suffixn + i)) := by
  show ((((ret >>> suffixn) &&& ((1#64 <<< n) - 1#64)).setWidth 32).toNat).testBit i = _
  rw [BitVec.testBit_toNat, BitVec.getLsbD_setWidth, BitVec.getLsbD_and, BitVec.getLsbD_ushiftRight]
  by_cases hi : i < 64
  · rw [mask_getLsbD hn hi]
    by_cases hin : i < n
    · simp [hin, show i < 32 by omega]
    · simp [hin]
  · rw [BitVec.getLsbD_of_ge _ i (by omega), BitVec.getLsbD_of_ge _ (suffixn + i) (by omega)]
    simp

/-- Where a bit that is asked for comes from. -/
theorem gathered_codeBit (hn : 0 < n) (hn' : n ≤ 32) (hi : i < n) :
    (BitVector.gathered (tempOf bytes (p / 8) ((p % 8 + n + 7) / 8))).getLsbD
      (8 - (p % 8 + n) % 8 + i) = CodeBit bytes p n (p + n - 1 - i) := by
  rw [gathered_tempOf (by omega) (by omega), window, window, CodeBit]
  have hmod : (p + n) % 8 = (p % 8 + n) % 8 := by omega
  have hp : p = 8 * (p / 8) + p % 8 := by omega
  have hcur : p % 8 < 8 := Nat.mod_lt p (by decide)
  rw [hmod]
  generalize p / 8 = first at hp ⊢
  generalize p % 8 = cur at hp hcur ⊢
  generalize hnbyte : (cur + n + 7) / 8 = nbyte
  generalize hj : 8 - (cur + n) % 8 + i = j
  split
  · rename_i hzero
    split
    · rename_i hq
      have hnot : ¬j < 8 * nbyte := by omega
      rw [decide_eq_false hnot, Bool.false_and, Bool.false_or]
      by_cases hfour : cur + n = 32
      · have hpos : 8 * first + 8 * nbyte - 1 - 31 = 8 * first := by omega
        rw [decide_eq_true (show 32 ≤ j by omega), decide_eq_true (show 31 < 8 * nbyte by omega),
          decide_eq_true hfour, hpos, Bool.true_and]
      · rw [decide_eq_false (show ¬31 < 8 * nbyte by omega), decide_eq_false hfour, Bool.false_and,
          Bool.and_false, Bool.false_and]
    · rename_i hq
      have hpos : 8 * first + 8 * nbyte - 1 - j = p + n - 1 - i - 8 := by omega
      rw [decide_eq_true (show j < 8 * nbyte by omega), decide_eq_false (show ¬32 ≤ j by omega),
        Bool.true_and, Bool.false_and, Bool.or_false, hpos]
  · rename_i hzero
    have hpos : 8 * first + 8 * nbyte - 1 - j = p + n - 1 - i := by omega
    rw [decide_eq_true (show j < 8 * nbyte by omega), Bool.true_and, hpos]
    congr 1
    by_cases hhigh : 32 ≤ j
    · have hsecond : 8 * first + 8 * nbyte - 1 - 31 = 8 * first + 8 := by omega
      rw [decide_eq_true hhigh, decide_eq_true (show 31 < 8 * nbyte by omega), hsecond,
        decide_eq_true (show p + n - 1 - i < 8 * first + 8 ∧ 32 < cur + n by omega),
        Bool.true_and]
    · rw [decide_eq_false hhigh, decide_eq_false
        (show ¬(p + n - 1 - i < 8 * first + 8 ∧ 32 < cur + n) by omega), Bool.false_and,
        Bool.false_and]

/-- All bits are as they are. -/
theorem codeBit_iff : (∀ q, p ≤ q → q < p + n → CodeBit bytes p n q = bitAt bytes q) ↔
    ReadMeets bytes p n := by
  simp only [CodeBit, ReadMeets]
  obtain rfl | hn := Nat.eq_zero_or_pos n
  · exact ⟨fun _ => .inl rfl, fun _ q hq hq' => by omega⟩
  have hne : ¬n = 0 := by omega
  rw [or_iff_right hne]
  split
  · exact ⟨fun h q hq hq' => (h q hq hq').symm, fun h q hq hq' => (h q hq hq').symm⟩
  · constructor
    · intro h
      by_cases hfour : p % 8 + n ≤ 32
      · exact .inl hfour
      refine .inr ?_
      cases hsecond : bitAt bytes (8 * (p / 8) + 8) with
      | false => exact .inl rfl
      | true =>
          refine .inr fun q hq hq' => ?_
          have hbit := h q hq (by omega)
          rw [decide_eq_true ⟨hq', Nat.not_le.1 hfour⟩, hsecond] at hbit
          rw [← hbit]
          exact Bool.or_true _
    · intro h q hq hq'
      obtain hfour | hsecond | hones := h
      · rw [decide_eq_false fun hd => Nat.not_le.2 hd.2 hfour, Bool.false_and, Bool.or_false]
      · rw [hsecond, Bool.and_false, Bool.or_false]
      · by_cases hfirst : q < 8 * (p / 8) + 8
        · rw [hones q hq hfirst, Bool.true_or]
        · rw [decide_eq_false fun hd => hfirst hd.1, Bool.false_and, Bool.or_false]

variable {s : ByteString}

theorem clamp_inside (hle : p + n ≤ s.totalbit) (hn : n ≤ 32) : (s.reader p).clamp n = n := by
  have hsmall : s.totalbit < 2 ^ 32 := s.small
  have hpos : (s.reader p).bitpos = p := rfl
  have htotal : (s.reader p).totalbit = s.totalbit := rfl
  rw [BitVector.clamp, hpos, htotal, maxLenth, if_neg (show ¬n > 32 by omega),
    if_neg (show ¬(p + n) % 2 ^ 32 > s.totalbit by omega)]

theorem advance_inside (hle : p + n ≤ s.totalbit) :
    (s.reader p).advance n = s.reader (p + n) := by
  have hsmall : s.totalbit < 2 ^ 32 := s.small
  have hmod : (p + n) % 2 ^ 32 = p + n := Nat.mod_eq_of_lt (by omega)
  show BitVector.mk s.bytes ((p + n) % 2 ^ 32) ((p + n) % 2 ^ 32 % 8) s.totalbit = _
  rw [hmod]
  rfl

/-- A call that stays within the string goes on by its bits, and returns them if nothing
shows of what goes wrong. -/
theorem readBits_inside (hle : p + n ≤ s.totalbit) (hn : n ≤ 32) :
    ∃ r : UInt32, (s.reader p).readBits n = .ok (r, s.reader (p + n)) ∧ r.toNat < 2 ^ n ∧
      (r.toNat = value ((s.bits.drop p).take n) ↔ ReadMeets s.bytes p n) := by
  rw [BitVector.readBits]
  split
  · rename_i hzero
    subst hzero
    exact ⟨0, rfl, by decide, ⟨fun _ => .inl rfl, fun _ => rfl⟩⟩
  · rename_i hne
    have hcur : (s.reader p).curbitpos = p % 8 := rfl
    have hpos : (s.reader p).bitpos = p := rfl
    have hbytes : (s.reader p).bitstr = s.bytes := rfl
    have hlen : p + n ≤ 8 * s.bytes.length := hle
    rw [clamp_inside hle hn, hcur, hpos, hbytes]
    dsimp only
    rw [if_neg (by omega), if_neg (by omega), advance_inside hle]
    refine ⟨_, rfl, ?_, ?_⟩
    · refine Nat.lt_pow_two_of_testBit _ fun i hi => ?_
      rw [read_value_testBit _ hn, decide_eq_false (by omega), Bool.false_and]
    · rw [ByteString.bits, eq_slice_iff hlen (Nat.lt_pow_two_of_testBit _ fun i hi => by
        rw [read_value_testBit _ hn, decide_eq_false (by omega), Bool.false_and]), ← codeBit_iff]
      have hbit : ∀ i < n, (UInt32.ofBitVec (((BitVector.gathered (tempOf s.bytes (p / 8)
          ((p % 8 + n + 7) / 8)) >>> (8 - (p % 8 + n) % 8)) &&&
          ((1#64 <<< n) - 1#64)).setWidth 32)).toNat.testBit i =
          CodeBit s.bytes p n (p + n - 1 - i) := by
        intro i hi
        rw [read_value_testBit _ hn, decide_eq_true hi, Bool.true_and,
          gathered_codeBit (by omega) hn hi]
      constructor
      · intro h q hq hq'
        have hback : p + n - 1 - (p + n - 1 - q) = q := by omega
        have hat := h (p + n - 1 - q) (by omega)
        rw [hback] at hat
        rw [← hat]
        have hcode := hbit (p + n - 1 - q) (by omega)
        rw [hback] at hcode
        exact hcode.symm
      · intro h i hi
        rw [← h (p + n - 1 - i) (by omega) (by omega)]
        exact hbit i hi

/-! ## `read_1bit` and the leading zeros -/

theorem bits_length (s : ByteString) : s.bits.length = s.totalbit := length_ofBytes s.bytes

theorem bits_drop (hlt : p < s.totalbit) :
    s.bits.drop p = bitAt s.bytes p :: s.bits.drop (p + 1) := by
  have hlen : p < s.bits.length := by rwa [bits_length]
  have hbit : s.bits[p]? = some (bitAt s.bytes p) := getElem?_ofBytes hlt
  rw [List.drop_eq_getElem_cons hlen]
  rw [List.getElem?_eq_getElem hlen] at hbit
  rw [Option.some.inj hbit]

theorem read1bit_inside (hlt : p < s.totalbit) :
    ∃ r : UInt32, (s.reader p).read1bit = .ok (r, s.reader (p + 1)) ∧
      r.toNat = (bitAt s.bytes p).toNat := by
  have hlen : p < 8 * s.bytes.length := hlt
  have hpos : (s.reader p).bitpos = p := rfl
  have hcur : (s.reader p).curbitpos = p % 8 := rfl
  have hbytes : (s.reader p).bitstr = s.bytes := rfl
  rw [BitVector.read1bit, hpos, hcur, hbytes, if_neg (by omega), advance_inside hlt]
  refine ⟨_, rfl, ?_⟩
  generalize hx : s.bytes.getD (p / 8) 0 = x
  have hbit : bitAt s.bytes p = Byte.bit x (7 - p % 8) := by rw [bitAt, hx]
  refine Nat.eq_of_testBit_eq fun i => ?_
  show (((x.toBitVec.setWidth 32 >>> (7 - p % 8)) &&& 1#32).toNat).testBit i = _
  rw [BitVec.testBit_toNat, BitVec.getLsbD_and, BitVec.getLsbD_ushiftRight,
    BitVec.getLsbD_setWidth, hbit, BitVec.getLsbD_one]
  cases i with
  | zero =>
      rw [Nat.testBit_zero, Byte.bit]
      cases x.toBitVec.getLsbD (7 - p % 8) <;> simp [show 7 - p % 8 < 32 by omega]
  | succ i =>
      cases Byte.bit x (7 - p % 8) <;> simp [Nat.testBit_succ]

theorem zeros_cons (b : Bool) (bs : List Bool) :
    ExpGolomb.zeros (b :: bs) = if b then 0 else ExpGolomb.zeros bs + 1 := by
  cases b <;> rfl

/-- The loop stops behind the first one, or reads behind the end. -/
theorem leadingZeroBits_inside (left p k : Nat) (hleft : p + left = s.totalbit) :
    BitVector.leadingZeroBits left (s.reader p) k =
      if ExpGolomb.zeros (s.bits.drop p) < left then
        .ok ((k + ExpGolomb.zeros (s.bits.drop p) + 1) % 256,
          s.reader (p + ExpGolomb.zeros (s.bits.drop p) + 1))
      else .error .read := by
  induction left generalizing p k with
  | zero => rw [BitVector.leadingZeroBits, if_neg (Nat.not_lt_zero _)]
  | succ left ih =>
      have hlt : p < s.totalbit := by omega
      obtain ⟨r, hread, hr⟩ := read1bit_inside hlt
      rw [BitVector.leadingZeroBits, hread, bits_drop hlt, zeros_cons]
      dsimp only
      cases hbit : bitAt s.bytes p with
      | true =>
          rw [hbit] at hr
          have hne : r ≠ 0 := by
            rintro rfl
            cases hr
          rw [if_pos hne, if_pos rfl, if_pos (Nat.succ_pos left)]
      | false =>
          rw [hbit] at hr
          have hzero : r = 0 := UInt32.toNat_inj.1 hr
          rw [if_neg (not_not_intro hzero), if_neg Bool.false_ne_true, ih (p + 1) _ (by omega)]
          generalize ExpGolomb.zeros (s.bits.drop (p + 1)) = z
          by_cases hz : z < left
          · have hcount : ((k + 1) % 256 + z + 1) % 256 = (k + (z + 1) + 1) % 256 := by omega
            have hpos : p + 1 + z + 1 = p + (z + 1) + 1 := by omega
            rw [if_pos hz, if_pos (Nat.succ_lt_succ hz), hcount, hpos]
          · rw [if_neg hz, if_neg fun h => hz (Nat.lt_of_succ_lt_succ h)]

/-! ## Exp-Golomb codes -/

/-- A code as the calls take it: the zeros in front of the one, and whether the bits behind
it are as many as a shift allows and are read as they are. -/
def CodeMeets (s : ByteString) (p : Nat) : Prop :=
  let z := ExpGolomb.zeros (s.bits.drop p)
  z ≤ 31 ∧ ReadMeets s.bytes (p + z + 1) z

/-- The loop of a code, from a position in the string. -/
theorem zeroBits_inside (hle : p ≤ s.totalbit) :
    BitVector.leadingZeroBits (8 * (s.reader p).bitstr.length - (s.reader p).bitpos)
      (s.reader p) 255 =
      if ExpGolomb.zeros (s.bits.drop p) < s.totalbit - p then
        .ok (ExpGolomb.zeros (s.bits.drop p) % 256,
          s.reader (p + ExpGolomb.zeros (s.bits.drop p) + 1))
      else .error .read := by
  have hleft : 8 * (s.reader p).bitstr.length - (s.reader p).bitpos = s.totalbit - p := rfl
  rw [hleft, leadingZeroBits_inside _ p 255 (by omega)]
  generalize ExpGolomb.zeros (s.bits.drop p) = z
  have hcount : (255 + z + 1) % 256 = z % 256 := by omega
  rw [hcount]

theorem parseCodenum_of_zeros (hle : p ≤ s.totalbit)
    (hz : ¬ExpGolomb.zeros (s.bits.drop p) < s.totalbit - p) :
    (s.reader p).parseCodenum = .error .read := by
  rw [BitVector.parseCodenum, zeroBits_inside hle, if_neg hz]

theorem parseCodenum_of_fault {fault : BitFault} (hle : p ≤ s.totalbit)
    (hz : ExpGolomb.zeros (s.bits.drop p) < s.totalbit - p)
    (hread : (s.reader (p + ExpGolomb.zeros (s.bits.drop p) + 1)).readBits
      (ExpGolomb.zeros (s.bits.drop p) % 256) = .error fault) :
    (s.reader p).parseCodenum = .error fault := by
  rw [BitVector.parseCodenum, zeroBits_inside hle, if_pos hz]
  dsimp only
  rw [hread]

theorem parseCodenum_of_read {suffix : UInt32} {b : BitVector} (hle : p ≤ s.totalbit)
    (hz : ExpGolomb.zeros (s.bits.drop p) < s.totalbit - p)
    (hread : (s.reader (p + ExpGolomb.zeros (s.bits.drop p) + 1)).readBits
      (ExpGolomb.zeros (s.bits.drop p) % 256) = .ok (suffix, b)) :
    (s.reader p).parseCodenum =
      if 32 ≤ ExpGolomb.zeros (s.bits.drop p) % 256 then .error .shift
      else .ok (1 <<< UInt32.ofNat (ExpGolomb.zeros (s.bits.drop p) % 256) - 1 + suffix, b) := by
  rw [BitVector.parseCodenum, zeroBits_inside hle, if_pos hz]
  dsimp only
  rw [hread]

/-- A code within the string: read as it is if it can be, and otherwise with another value
or not at all. -/
theorem parseCodenum_inside {k len : Nat} (hle : p ≤ s.totalbit)
    (href : ExpGolomb.read (s.bits.drop p) = some (k, len)) :
    p + len ≤ s.totalbit ∧
      (CodeMeets s p → ∃ r : UInt32, (s.reader p).parseCodenum = .ok (r, s.reader (p + len)) ∧
        r.toNat = k ∧ k < 2 ^ 32 - 1) ∧
      (¬CodeMeets s p → ∀ r b, (s.reader p).parseCodenum = .ok (r, b) →
        2 ^ 33 - 1 ≤ k ∨ r.toNat ≠ k ∧ r.toNat < 2 ^ 32 - 1 ∧ k < 2 ^ 32 - 1) := by
  rw [ExpGolomb.read] at href
  rw [CodeMeets]
  have hfault := @parseCodenum_of_fault p s
  have hok := @parseCodenum_of_read p s
  generalize ExpGolomb.zeros (s.bits.drop p) = z at href hfault hok ⊢
  split at href
  swap
  · cases href
  rename_i hinside
  obtain ⟨hk, hlen⟩ := Prod.mk.inj (Option.some.inj href)
  rw [List.length_drop, bits_length] at hinside
  rw [List.drop_drop, ← Nat.add_assoc] at hk
  have hleft : z < s.totalbit - p := by omega
  refine ⟨by omega, ?_⟩
  have hslice : value ((s.bits.drop (p + z + 1)).take z) < 2 ^ z := by
    refine Nat.lt_of_lt_of_le (value_lt _) (Nat.pow_le_pow_right Nat.two_pos ?_)
    rw [List.length_take]
    exact Nat.min_le_left _ _
  by_cases hz : z ≤ 31
  · have hpow : 2 ^ z ≤ 2 ^ 31 := Nat.pow_le_pow_right Nat.two_pos hz
    have hpos : 0 < 2 ^ z := Nat.two_pow_pos z
    have hmod : z % 256 = z := Nat.mod_eq_of_lt (by omega)
    obtain ⟨r, hread, hr, hmeets⟩ := readBits_inside (s := s) (p := p + z + 1) (n := z)
      (by omega) (by omega)
    have hend : p + z + 1 + z = p + len := by omega
    rw [hend] at hread
    rw [hok hle hleft (by rw [hmod, hread]), hmod, if_neg (show ¬32 ≤ z by omega)]
    have hvalue := ExpGolomb.toNat_codenum hz hr
    constructor
    · rintro ⟨-, hm⟩
      refine ⟨_, rfl, ?_, by omega⟩
      rw [hvalue, hmeets.2 hm, hk]
    · intro hnot r' b hparse
      cases hparse
      refine .inr ⟨?_, by omega, by omega⟩
      rw [hvalue]
      intro heq
      refine hnot ⟨hz, hmeets.1 ?_⟩
      omega
  · refine ⟨fun hm => absurd hm.1 hz, fun _ r b hparse => .inl ?_⟩
    -- from 32 zeros on there is no value, until the count of them has gone around
    have hwrapped : 33 ≤ z := by
      by_contra hlow
      have hz32 : z = 32 := by omega
      subst hz32
      cases hread : (s.reader (p + 32 + 1)).readBits (32 % 256) with
      | error fault => rw [hfault hle hleft hread] at hparse; cases hparse
      | ok r' => rw [hok hle hleft hread, if_pos (by decide)] at hparse; cases hparse
    have hpow : 2 ^ 33 ≤ 2 ^ z := Nat.pow_le_pow_right Nat.two_pos hwrapped
    omega

/-! ## Calls -/

/-- The integer of a signed code, from a number that is not the largest. -/
theorem parseSe_value {c : UInt32} (hc : c.toNat < 2 ^ 32 - 1) :
    (if c &&& 1 ≠ 0 then ((c + 1) >>> 1).toInt32 else -((c + 1) >>> 1).toInt32).toInt =
      ExpGolomb.signed c.toNat := by
  have hadd : (c + 1).toNat = c.toNat + 1 := by
    rw [UInt32.toNat_add, UInt32.toNat_one, Nat.mod_eq_of_lt (by omega)]
  have hhalf : ((c + 1) >>> 1).toNat = (c.toNat + 1) / 2 := by
    rw [UInt32.toNat_shiftRight, hadd]
    exact Nat.shiftRight_eq_div_pow _ 1
  have hint : ((c + 1) >>> 1).toInt32.toInt = (c.toNat + 1) / 2 := by
    show ((c + 1) >>> 1).toBitVec.toInt = _
    rw [BitVec.toInt_eq_toNat_of_lt (by
      show 2 * ((c + 1) >>> 1).toNat < 2 ^ 32
      omega)]
    show (((c + 1) >>> 1).toNat : Int) = _
    rw [hhalf]
    omega
  have hodd : c &&& 1 ≠ 0 ↔ c.toNat % 2 = 1 := by
    rw [ne_eq, ← UInt32.toNat_inj, UInt32.toNat_and, UInt32.toNat_one, Nat.and_one_is_mod,
      UInt32.toNat_zero]
    omega
  rw [ExpGolomb.signed]
  by_cases ho : c.toNat % 2 = 1
  · rw [if_pos (hodd.2 ho), if_pos ho, hint]
  · rw [if_neg (hodd.not.2 ho), if_neg ho, Int32.toInt_neg, hint, Int.bmod_eq_of_le (by omega)
      (by omega)]
    omega

/-- A call whose bits are read as they are. -/
def CallMeets (s : ByteString) (p : Nat) : BitCall → Prop
  | .readBits n _ => ReadMeets s.bytes p n
  | .skipBits _ _ => True
  | .read1bit => True
  | .parseUe => CodeMeets s p
  | .parseSe => CodeMeets s p

/-- What a call does that stays within the string. -/
theorem call_inside {c : BitCall} {v : Int} {len : Nat} (hle : p ≤ s.totalbit)
    (href : c.reference (s.bits.drop p) = some (v, len)) :
    p + len ≤ s.totalbit ∧
      (CallMeets s p c → (s.reader p).call c = .ok (v, s.reader (p + len))) ∧
      (¬CallMeets s p c → ∀ b, (s.reader p).call c ≠ .ok (v, b)) := by
  have hrest : (s.bits.drop p).length = s.totalbit - p := by
    rw [List.length_drop, bits_length]
  cases c with
  | readBits n hn =>
      rw [BitCall.reference, hrest] at href
      split at href
      · obtain ⟨rfl, rfl⟩ := Prod.mk.inj (Option.some.inj href)
        have hend : p + n ≤ s.totalbit := by omega
        obtain ⟨r, hread, -, hmeets⟩ := readBits_inside hend hn
        rw [BitVector.call, hread]
        refine ⟨hend, fun hm => ?_, fun hnot b hok => ?_⟩
        · show Except.ok ((r.toNat : Int), _) = _
          rw [hmeets.2 hm]
        · have heq : ((r.toNat : Int), s.reader (p + n)) = (_, b) := Except.ok.inj hok
          exact hnot (hmeets.1 (Int.ofNat_inj.1 (Prod.mk.inj heq).1))
      · cases href
  | skipBits n hn =>
      rw [BitCall.reference, hrest] at href
      split at href
      · obtain ⟨rfl, rfl⟩ := Prod.mk.inj (Option.some.inj href)
        have hend : p + n ≤ s.totalbit := by omega
        refine ⟨hend, fun _ => ?_, fun hnot => absurd trivial hnot⟩
        rw [BitVector.call, BitVector.skipBits]
        split
        · rename_i hzero
          subst hzero
          rfl
        · rw [clamp_inside hend hn, advance_inside hend]
      · cases href
  | read1bit =>
      have hlt : p < s.totalbit := by
        by_contra hge
        rw [BitCall.reference, List.drop_eq_nil_of_le (by rw [bits_length]; omega)] at href
        cases href
      rw [BitCall.reference, bits_drop hlt] at href
      obtain ⟨rfl, rfl⟩ := Prod.mk.inj (Option.some.inj href)
      obtain ⟨r, hread, hr⟩ := read1bit_inside hlt
      refine ⟨hlt, fun _ => ?_, fun hnot => absurd trivial hnot⟩
      rw [BitVector.call, hread]
      show Except.ok ((r.toNat : Int), _) = _
      rw [hr]
  | parseUe =>
      rw [BitCall.reference] at href
      obtain ⟨⟨k, len'⟩, hcode, heq⟩ := Option.map_eq_some_iff.1 href
      obtain ⟨rfl, rfl⟩ := Prod.mk.inj heq
      obtain ⟨hend, hmeets, hnot⟩ := parseCodenum_inside hle hcode
      refine ⟨hend, fun hm => ?_, fun hn b hok => ?_⟩
      · obtain ⟨r, hparse, hr, -⟩ := hmeets hm
        rw [BitVector.call, BitVector.parseUe, hparse]
        show Except.ok ((r.toNat : Int), _) = _
        rw [hr]
      · rw [BitVector.call, BitVector.parseUe] at hok
        cases hparse : (s.reader p).parseCodenum with
        | error fault => rw [hparse] at hok; cases hok
        | ok r =>
            rw [hparse] at hok
            have heq' : ((r.1.toNat : Int), r.2) = ((k : Int), b) := Except.ok.inj hok
            have hk := Int.ofNat_inj.1 (Prod.mk.inj heq').1
            have hlt := r.1.toNat_lt
            obtain hbig | ⟨hne, -⟩ := hnot hn r.1 r.2 hparse
            · omega
            · exact hne hk
  | parseSe =>
      rw [BitCall.reference] at href
      obtain ⟨⟨k, len'⟩, hcode, heq⟩ := Option.map_eq_some_iff.1 href
      obtain ⟨rfl, rfl⟩ := Prod.mk.inj heq
      obtain ⟨hend, hmeets, hnot⟩ := parseCodenum_inside hle hcode
      refine ⟨hend, fun hm => ?_, fun hn b hok => ?_⟩
      · obtain ⟨r, hparse, hr, hk⟩ := hmeets hm
        rw [BitVector.call, BitVector.parseSe, hparse]
        show Except.ok (Int32.toInt _, _) = _
        rw [parseSe_value (by rw [hr]; exact hk), hr]
      · rw [BitVector.call, BitVector.parseSe] at hok
        cases hparse : (s.reader p).parseCodenum with
        | error fault => rw [hparse] at hok; cases hok
        | ok r =>
            rw [hparse] at hok
            have heq' := (Prod.mk.inj (Except.ok.inj hok)).1
            obtain hbig | ⟨hne, hr, hk⟩ := hnot hn r.1 r.2 hparse
            · have hlow := Int32.le_toInt
                (if r.1 &&& 1 ≠ 0 then ((r.1 + 1) >>> 1).toInt32 else -((r.1 + 1) >>> 1).toInt32)
              have hhigh := Int32.toInt_lt
                (if r.1 &&& 1 ≠ 0 then ((r.1 + 1) >>> 1).toInt32 else -((r.1 + 1) >>> 1).toInt32)
              rw [heq', ExpGolomb.signed] at hlow hhigh
              split at hlow <;> split at hhigh <;> omega
            · rw [parseSe_value hr] at heq'
              exact hne (ExpGolomb.signed_inj heq')

/-! ## Sequences of calls -/

/-- The calls one after another, each from where the one before ends. -/
def CallsMeet (s : ByteString) (p : Nat) : List BitCall → Prop
  | [] => True
  | c :: cs => CallMeets s p c ∧
      CallsMeet s (p + ((c.reference (s.bits.drop p)).map Prod.snd).getD 0) cs

theorem run_inside {cs : List BitCall} {vs : List (Int × Nat)} (hle : p ≤ s.totalbit)
    (href : referenceRun (s.bits.drop p) cs = some vs) :
    (s.reader p).run cs = vs.map some ↔ CallsMeet s p cs := by
  induction cs generalizing p vs with
  | nil =>
      cases href
      exact ⟨fun _ => trivial, fun _ => rfl⟩
  | cons c cs ih =>
      rw [referenceRun] at href
      cases hc : c.reference (s.bits.drop p) with
      | none => rw [hc] at href; cases href
      | some r =>
          obtain ⟨v, len⟩ := r
          rw [hc] at href
          obtain ⟨ws, hws, rfl⟩ := Option.map_eq_some_iff.1 href
          obtain ⟨hend, hmeets, hnot⟩ := call_inside hle hc
          rw [List.drop_drop] at hws
          rw [CallsMeet, hc]
          show _ ↔ CallMeets s p c ∧ CallsMeet s (p + len) cs
          rw [← ih hend hws, BitVector.run]
          by_cases hm : CallMeets s p c
          · have hlen : (s.reader (p + len)).bitpos - (s.reader p).bitpos = len :=
              Nat.add_sub_cancel_left p len
            rw [hmeets hm]
            dsimp only
            rw [hlen, List.map_cons, List.cons_inj_right]
            exact ⟨fun h => ⟨hm, h⟩, fun h => h.2⟩
          · refine ⟨fun hrun => absurd hrun ?_, fun h => absurd h.1 hm⟩
            cases hcall : (s.reader p).call c with
            | error fault => exact fun h => nomatch h
            | ok r =>
                obtain ⟨v', b'⟩ := r
                intro h
                have hhead := Option.some.inj (List.cons.inj h).1
                rw [(Prod.mk.inj hhead).1] at hcall
                exact hnot hm b' hcall

/-! ## The end of the string -/

/-- A read of a code reads nothing behind the end: its first one is inside, and the
position behind the bits that are then asked for is an `unsigned int`. -/
def CodeInside (s : ByteString) (p : Nat) : Prop :=
  let z := ExpGolomb.zeros (s.bits.drop p)
  z < s.totalbit - p ∧ p + z + 1 + min (z % 256) 32 < 2 ^ 32

theorem readBits_end (hle : p ≤ s.totalbit) (n : Nat) :
    (s.reader p).readBits n ≠ .error .read ↔ p + min n 32 < 2 ^ 32 := by
  have hsmall : s.totalbit < 2 ^ 32 := s.small
  have hlen : s.totalbit = 8 * s.bytes.length := rfl
  have hcur : (s.reader p).curbitpos = p % 8 := rfl
  have hpos : (s.reader p).bitpos = p := rfl
  have hbytes : (s.reader p).bitstr = s.bytes := rfl
  have htotal : (s.reader p).totalbit = s.totalbit := rfl
  rw [BitVector.readBits]
  split
  · rename_i hzero
    subst hzero
    exact ⟨fun _ => by omega, fun _ h => nomatch h⟩
  · have hmin : (if n > maxLenth then maxLenth else n) = min n 32 := by
      rw [maxLenth]
      split <;> omega
    rw [BitVector.clamp, hmin, hpos, htotal, hcur, hbytes]
    dsimp only
    by_cases hlt : p + min n 32 < 2 ^ 32
    · refine ⟨fun _ => hlt, fun _ => ?_⟩
      rw [Nat.mod_eq_of_lt hlt]
      split
      · rw [if_neg (by omega), if_neg (by omega)]
        exact fun h => nomatch h
      · rw [if_neg (by omega), if_neg (by omega)]
        exact fun h => nomatch h
    · refine ⟨fun h => absurd ?_ h, fun h => absurd h hlt⟩
      rw [if_neg (show ¬(p + min n 32) % 2 ^ 32 > s.totalbit by omega), if_neg (by omega),
        if_pos (by omega)]

theorem parseCodenum_end (hle : p ≤ s.totalbit) :
    (s.reader p).parseCodenum ≠ .error .read ↔ CodeInside s p := by
  rw [CodeInside]
  by_cases hz : ExpGolomb.zeros (s.bits.drop p) < s.totalbit - p
  · have hend := readBits_end (show p + ExpGolomb.zeros (s.bits.drop p) + 1 ≤ s.totalbit by omega)
      (ExpGolomb.zeros (s.bits.drop p) % 256)
    rw [and_iff_right hz, ← hend]
    cases hread : (s.reader (p + ExpGolomb.zeros (s.bits.drop p) + 1)).readBits
      (ExpGolomb.zeros (s.bits.drop p) % 256) with
    | error fault => rw [parseCodenum_of_fault hle hz hread]
    | ok r =>
        rw [parseCodenum_of_read hle hz hread]
        refine ⟨fun _ h => (nomatch h), fun _ => ?_⟩
        split <;> exact fun h => nomatch h
  · rw [parseCodenum_of_zeros hle hz]
    exact ⟨fun h => absurd rfl h, fun h => absurd h.1 hz⟩

/-! ## The law of the reader -/

theorem new_eq (s : ByteString) (bp : UInt8) :
    BitVector.new s.bytes bp s.totalbit = s.reader bp.toNat := by
  have hand : (bp &&& 7).toNat = bp.toNat % 8 := by
    rw [UInt8.toNat_and]
    exact Nat.and_two_pow_sub_one_eq_mod bp.toNat 3
  rw [BitVector.new, hand]
  rfl

/-- Calls that stay within the string return its bits and go on by them. -/
def CallsLaw (s : ByteString) (bp : UInt8) (cs : List BitCall) : Prop :=
  ∀ vs, referenceRun (s.bits.drop bp.toNat) cs = some vs →
    (BitVector.new s.bytes bp s.totalbit).run cs = vs.map some

/-- A code is read from a position without a look behind the end. -/
def CodeLaw (s : ByteString) (p : Nat) : Prop := (s.reader p).parseCodenum ≠ .error .read

/-- Calls that stay within the string return what they should if and only if each of them
can be read as it is, and a code is read inside the string if and only if there is a one
behind its position, and what is behind that does not wrap. -/
theorem bitReader_iff (s : ByteString) (bp : UInt8) (cs : List BitCall) (p : Nat)
    (hbp : bp.toNat ≤ s.totalbit) (hp : p ≤ s.totalbit) :
    (CallsLaw s bp cs ↔
      (referenceRun (s.bits.drop bp.toNat) cs ≠ none → CallsMeet s bp.toNat cs)) ∧
    (CodeLaw s p ↔ CodeInside s p) := by
  refine ⟨⟨fun hlaw hstays => ?_, fun hmeet vs hvs => ?_⟩, parseCodenum_end hp⟩
  · obtain ⟨vs, hvs⟩ := Option.ne_none_iff_exists'.1 hstays
    have hrun := hlaw vs hvs
    rw [new_eq] at hrun
    exact (run_inside hbp hvs).1 hrun
  · rw [new_eq]
    exact (run_inside hbp hvs).2 (hmeet (by rw [hvs]; exact Option.some_ne_none vs))

/-- The byte 41. -/
def oneByteString : ByteString := ⟨[0x41], by decide⟩

theorem bitReader_iff_oneByteString :
    (CallsLaw oneByteString 0 [.readBits 8 (by decide)] ↔
      (referenceRun (oneByteString.bits.drop 0) [.readBits 8 (by decide)] ≠ none →
        CallsMeet oneByteString 0 [.readBits 8 (by decide)])) ∧
    (CodeLaw oneByteString 0 ↔ CodeInside oneByteString 0) :=
  bitReader_iff oneByteString 0 [.readBits 8 (by decide)] 0 (Nat.zero_le _) (Nat.zero_le _)

/-- Eight bits of the byte 41 are read as 0, and behind its end a code is looked for. -/
theorem not_readerLaw :
    ¬((∀ (s : ByteString) (bp : UInt8) (cs : List BitCall), bp.toNat ≤ s.totalbit →
        CallsLaw s bp cs) ∧
      ∀ (s : ByteString) (p : Nat), p ≤ s.totalbit → CodeLaw s p) := by
  rintro ⟨hlaw, -⟩
  have hrun := hlaw oneByteString 0 [.readBits 8 (by decide)] (Nat.zero_le _) [(0x41, 8)]
    (by decide)
  have hcode : (BitVector.new oneByteString.bytes 0 oneByteString.totalbit).run
      [.readBits 8 (by decide)] = [some (0, 8)] := by decide +kernel
  rw [hcode] at hrun
  exact absurd hrun (by decide)

end Nvr.RtspClient
