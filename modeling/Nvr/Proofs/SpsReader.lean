import Nvr.Lib.BitGrammar
import Nvr.RtspClient.H264Parse

/-!
# The reader of a sequence parameter set

The functions over `bs_t` read bits, and the codes that are made of them, as they stand in
front of the reader (`bits`). A number is put together byte by byte, its upper part first,
so the loop's invariant is that what is still to come is all zeros in the result. On the
other side no function looks at a byte behind the end, whatever the bytes are.
-/

namespace Nvr.RtspClient

open BitString BitGrammar

variable {s : Bs} {n : Nat}

/-! ## What is in front of the reader -/

/-- The position of the next bit. -/
def Bs.pos (s : Bs) : Nat := 8 * s.p + (8 - s.i_left.toNat)

def Bs.bits (s : Bs) : List Bool := (ofBytes s.bytes).drop s.pos

/-- There is a bit left in the byte, or all of them. -/
def Bs.Ok (s : Bs) : Prop := 1 ≤ s.i_left ∧ s.i_left ≤ 8

/-- A program over the reader takes bits. -/
def BsReads {α : Type} (m : StateM Bs α) (bs : List Bool) (v : α) : Prop :=
  Reads Bs.bits Bs.Ok m bs v

/-- A reader that has gone on by some bits. -/
theorem bits_of_pos {s' : Bs} (hbytes : s'.bytes = s.bytes) (hpos : s'.pos = s.pos + n) :
    s'.bits = s.bits.drop n := by
  rw [Bs.bits, Bs.bits, hbytes, hpos, List.drop_drop]

theorem lt_end_of_bits (hok : s.Ok) {bs more : List Bool} (hne : bs ≠ [])
    (hbits : s.bits = bs ++ more) : s.p < s.bytes.length ∧ s.pos + bs.length ≤ 8 * s.bytes.length := by
  have hlen := congrArg List.length hbits
  rw [Bs.bits, List.length_drop, length_ofBytes, List.length_append] at hlen
  have hpos := List.length_pos_of_ne_nil hne
  have hp : s.pos = 8 * s.p + (8 - s.i_left.toNat) := rfl
  obtain ⟨hone, height⟩ := hok
  omega

/-- The bits that a reader takes are a slice. -/
theorem slice_of_bits {bs more : List Bool} (hbits : s.bits = bs ++ more) :
    ((ofBytes s.bytes).drop s.pos).take bs.length = bs := by
  have htake : s.bits.take bs.length = bs := by
    rw [hbits]
    exact List.take_left
  exact htake

/-- `n` bits from the reader on that are in one byte. -/
theorem value_in_byte (hok : s.Ok) {bs more : List Bool} (hbits : s.bits = bs ++ more)
    (hne : bs ≠ []) {k : Nat} (hk : bs.length + k = s.i_left.toNat) :
    (s.bytes.getD s.p 0).toNat / 2 ^ k % 2 ^ bs.length = value bs := by
  obtain ⟨hp, hend⟩ := lt_end_of_bits hok hne hbits
  obtain ⟨hone, height⟩ := hok
  have hpos : s.pos = 8 * s.p + (8 - s.i_left.toNat) := rfl
  have hlt : (s.bytes.getD s.p 0).toNat / 2 ^ k % 2 ^ bs.length < 2 ^ bs.length :=
    Nat.mod_lt _ (Nat.two_pow_pos _)
  have hbitwise := (eq_slice_iff hend hlt).2 fun i hi => by
    have hdiv : (s.pos + bs.length - 1 - i) / 8 = s.p := by omega
    have hmod : 7 - (s.pos + bs.length - 1 - i) % 8 = k + i := by omega
    rw [bitAt, hdiv, hmod, Byte.bit_eq_testBit, Nat.testBit_mod_two_pow, decide_eq_true hi,
      Bool.true_and, Nat.testBit_div_two_pow, Nat.add_comm]
  rw [hbitwise, slice_of_bits hbits]

/-! ## `_bs_read` -/

theorem iMask_toNat (hn : n ≤ 32) : (iMask n).toNat = 2 ^ n - 1 := by
  have hpow : 2 ^ n ≤ 2 ^ 32 := Nat.pow_le_pow_right Nat.two_pos hn
  have hpos : 0 < 2 ^ n := Nat.two_pow_pos n
  exact UInt32.toNat_ofNat_of_lt' (show 2 ^ n - 1 < 2 ^ 32 by omega)

/-- Some bits of a byte, shifted down and masked. -/
theorem shifted_toNat (x : UInt8) {k n : Nat} (hk : k < 32) (hn : n ≤ 32) :
    ((x.toUInt32 >>> .ofNat k) &&& iMask n).toNat = x.toNat / 2 ^ k % 2 ^ n := by
  rw [UInt32.toNat_and, iMask_toNat hn, UInt32.toNat_shiftRight, Nat.and_two_pow_sub_one_eq_mod,
    UInt32.toNat_ofNat_of_lt' (show k < 2 ^ 32 by omega), Nat.mod_eq_of_lt hk,
    Nat.shiftRight_eq_div_pow, UInt8.toNat_toUInt32]

/-- The lower bits of a number whose lower bits are zeros. -/
theorem or_toNat {a b : UInt32} {high k : Nat} (ha : a.toNat = high * 2 ^ k)
    (hb : b.toNat < 2 ^ k) : (a ||| b).toNat = high * 2 ^ k + b.toNat := by
  rw [UInt32.toNat_or, ha, Nat.mul_comm, Nat.two_pow_add_eq_or_of_lt hb]

/-- Some bits of the byte have been taken. -/
theorem leave_bits (hok : s.Ok) (hn : (n : Int) ≤ s.i_left) (hpos : 0 < n) :
    (s.leave (s.i_left - n)).Ok ∧ (s.leave (s.i_left - n)).bits = s.bits.drop n := by
  obtain ⟨hone, height⟩ := hok
  have hp : s.pos = 8 * s.p + (8 - s.i_left.toNat) := rfl
  rw [Bs.leave]
  split
  · refine ⟨⟨Int.le.intro_sub _ rfl, Int.le_refl 8⟩, bits_of_pos rfl ?_⟩
    show 8 * (s.p + 1) + (8 - Int.toNat 8) = s.pos + n
    have height' : Int.toNat 8 = 8 := rfl
    omega
  · rename_i hne
    refine ⟨⟨?_, ?_⟩, bits_of_pos rfl ?_⟩
    · show 1 ≤ s.i_left - n
      omega
    · show s.i_left - n ≤ 8
      omega
    · show 8 * s.p + (8 - (s.i_left - n).toNat) = s.pos + n
      omega

theorem drop_bits {bs more : List Bool} (hbits : s.bits = bs ++ more) :
    s.bits.drop bs.length = more := by
  rw [hbits]
  exact List.drop_left

/-- The last round: the bits that are asked for are in the byte. -/
theorem bsReadLoop_inside {rounds : Nat} {acc : UInt32} (hn : 0 < n)
    (hp : s.p < s.bytes.length) (hle : (n : Int) ≤ s.i_left) :
    bsReadLoop (rounds + 1) n acc s =
      (acc ||| (((s.bytes.getD s.p 0).toUInt32 >>> .ofNat (s.i_left - n).toNat) &&& iMask n),
        s.leave (s.i_left - n)) := by
  have hend : ¬s.p_end ≤ s.p := Nat.not_le.2 hp
  rw [bsReadLoop]
  dsimp only
  rw [if_neg (by omega), if_neg hend, if_pos (by omega)]
  rfl

/-- A round in front of it: the rest of the byte. -/
theorem bsReadLoop_across {rounds : Nat} {acc : UInt32} (hp : s.p < s.bytes.length)
    (hone : 1 ≤ s.i_left) (hlt : s.i_left < n) :
    bsReadLoop (rounds + 1) n acc s =
      bsReadLoop rounds (n - s.i_left)
        (acc ||| (((s.bytes.getD s.p 0).toUInt32 &&& iMask s.i_left.toNat) <<<
          .ofNat (-(s.i_left - n)).toNat)) (s.leave 0) := by
  have hend : ¬s.p_end ≤ s.p := Nat.not_le.2 hp
  rw [bsReadLoop]
  dsimp only
  rw [if_neg (by omega), if_neg hend, if_neg (by omega)]

/-- The rest of a byte, in front of the bits that are still to come. -/
theorem upper_toNat (x : UInt8) {l k : Nat} (hl : l ≤ 8) (hk : l + k ≤ 32) (hpos : 0 < l) :
    ((x.toUInt32 &&& iMask l) <<< .ofNat k).toNat = x.toNat % 2 ^ l * 2 ^ k := by
  have hlt : x.toNat % 2 ^ l * 2 ^ k < 2 ^ 32 := by
    calc x.toNat % 2 ^ l * 2 ^ k < 2 ^ l * 2 ^ k :=
          Nat.mul_lt_mul_of_pos_right (Nat.mod_lt _ (Nat.two_pow_pos l)) (Nat.two_pow_pos k)
      _ = 2 ^ (l + k) := (Nat.pow_add 2 l k).symm
      _ ≤ 2 ^ 32 := Nat.pow_le_pow_right Nat.two_pos hk
  rw [UInt32.toNat_shiftLeft, UInt32.toNat_and, iMask_toNat (by omega),
    Nat.and_two_pow_sub_one_eq_mod, UInt8.toNat_toUInt32,
    UInt32.toNat_ofNat_of_lt' (show k < 2 ^ 32 by omega), Nat.mod_eq_of_lt (show k < 32 by omega),
    Nat.shiftLeft_eq, Nat.mod_eq_of_lt hlt]

/-- The bits that are asked for are put behind those that the result has. -/
theorem bsReadLoop_reads (rounds : Nat) : ∀ (s : Bs) (bs more : List Bool) (acc : UInt32)
    (high : Nat), s.Ok → s.bits = bs ++ more → bs.length ≤ rounds → bs.length ≤ 32 →
    acc.toNat = high * 2 ^ bs.length →
      (bsReadLoop rounds bs.length acc s).1.toNat = high * 2 ^ bs.length + value bs ∧
        (bsReadLoop rounds bs.length acc s).2.Ok ∧
        (bsReadLoop rounds bs.length acc s).2.bits = more := by
  induction rounds with
  | zero =>
      intro s bs more acc high hok hbits hle _ hacc
      obtain rfl := List.length_eq_zero_iff.1 (Nat.le_zero.1 hle)
      exact ⟨hacc, hok, hbits⟩
  | succ rounds ih =>
      intro s bs more acc high hok hbits hle hle32 hacc
      obtain rfl | hne := eq_or_ne bs []
      · have hnone : bsReadLoop (rounds + 1) ([] : List Bool).length acc s = (acc, s) := by
          rw [bsReadLoop]
          exact if_pos (Int.le_refl 0)
        rw [hnone]
        exact ⟨hacc, hok, hbits⟩
      have hpos := List.length_pos_of_ne_nil hne
      obtain ⟨hone, height⟩ := hok
      obtain ⟨hp, -⟩ := lt_end_of_bits ⟨hone, height⟩ hne hbits
      by_cases hin : (bs.length : Int) ≤ s.i_left
      · have hvalue := value_in_byte ⟨hone, height⟩ hbits hne
          (show bs.length + (s.i_left - bs.length).toNat = s.i_left.toNat by omega)
        obtain ⟨hok', hbits'⟩ := leave_bits ⟨hone, height⟩ hin hpos
        rw [bsReadLoop_inside hpos hp hin]
        refine ⟨?_, hok', hbits'.trans (drop_bits hbits)⟩
        have hshift := shifted_toNat (s.bytes.getD s.p 0)
          (show (s.i_left - bs.length).toNat < 32 by omega) hle32
        rw [hvalue] at hshift
        rw [or_toNat hacc (by rw [hshift]; exact value_lt bs), hshift]
      · obtain ⟨l, hl⟩ : ∃ l : Nat, s.i_left = l := ⟨s.i_left.toNat, by omega⟩
        -- the bits of this byte, and those behind it
        obtain ⟨front, back, rfl, hfront⟩ : ∃ front back, bs = front ++ back ∧ front.length = l :=
          ⟨bs.take l, bs.drop l, (List.take_append_drop l bs).symm, by
            rw [List.length_take]; omega⟩
        rw [List.length_append] at hle hle32 hacc hin ⊢
        rw [List.append_assoc] at hbits
        have hfne : front ≠ [] := List.ne_nil_of_length_pos (by omega)
        have hvalue := value_in_byte ⟨hone, height⟩ hbits hfne
          (show front.length + 0 = s.i_left.toNat by omega)
        obtain ⟨hok', hbits'⟩ := leave_bits (n := front.length) ⟨hone, height⟩ (by omega) (by omega)
        have hzero : s.i_left - (front.length : Int) = 0 := by omega
        rw [hzero, drop_bits hbits] at hbits'
        rw [hzero] at hok'
        have hleft : ((front.length + back.length : Nat) : Int) - s.i_left = back.length := by omega
        have hshl : (-(s.i_left - ((front.length + back.length : Nat) : Int))).toNat =
            back.length := by omega
        rw [bsReadLoop_across hp hone (by omega), hleft, hshl]
        have hupper := upper_toNat (s.bytes.getD s.p 0) (l := s.i_left.toNat) (k := back.length)
          (by omega) (by omega) (by omega)
        have hvalue' : (s.bytes.getD s.p 0).toNat % 2 ^ s.i_left.toNat = value front := by
          rw [← hvalue, Nat.pow_zero, Nat.div_one]
          congr 2
          omega
        rw [hvalue'] at hupper
        have hlt : value front * 2 ^ back.length < 2 ^ (front.length + back.length) := by
          rw [Nat.pow_add]
          exact Nat.mul_lt_mul_of_pos_right (value_lt front) (Nat.two_pow_pos _)
        have hnext := ih (s.leave 0) back more _ (high * 2 ^ front.length + value front) hok' hbits'
          (by omega) (by omega) (by
            rw [or_toNat hacc (by rw [hupper]; exact hlt), hupper, Nat.pow_add]
            ring)
        rw [value_append, Nat.pow_add]
        refine ⟨hnext.1.trans ?_, hnext.2⟩
        ring

/-- `_bs_read` of a string of bits. -/
theorem bsRead_reads {bs : List Bool} (hle : bs.length ≤ 32) :
    BsReads (bsRead bs.length) bs (.ofNat (value bs)) := by
  intro s more hok hbits
  obtain ⟨hvalue, hok', hbits'⟩ := bsReadLoop_reads bs.length s bs more 0 0 hok hbits (Nat.le_refl _)
    hle (Nat.zero_mul _).symm
  refine ⟨UInt32.toNat_inj.1 ?_, hok', hbits'⟩
  have hlt : value bs < 2 ^ 32 :=
    Nat.lt_of_lt_of_le (value_lt bs) (Nat.pow_le_pow_right Nat.two_pos hle)
  rw [UInt32.toNat_ofNat_of_lt' hlt]
  show (bsReadLoop bs.length bs.length 0 s).1.toNat = _
  rw [hvalue, Nat.zero_mul, Nat.zero_add]

theorem bsRead1_reads (b : Bool) : BsReads bsRead1 [b] (if b then 1 else 0) := by
  intro s more hok hbits
  obtain ⟨hp, -⟩ := lt_end_of_bits hok (List.cons_ne_nil b []) hbits
  have hend : s.p < s.p_end := hp
  obtain ⟨hone, height⟩ := hok
  have hvalue := value_in_byte ⟨hone, height⟩ hbits (List.cons_ne_nil b [])
    (show [b].length + (s.i_left - 1).toNat = s.i_left.toNat by
      rw [List.length_singleton]; omega)
  obtain ⟨hok', hbits'⟩ := leave_bits (n := 1) ⟨hone, height⟩ (by omega) Nat.one_pos
  have hrun : bsRead1 s = ((((s.bytes.getD s.p 0).toUInt32 >>> .ofNat (s.i_left - 1).toNat) &&& 1),
      s.leave (s.i_left - 1)) := if_pos hend
  rw [hrun]
  refine ⟨UInt32.toNat_inj.1 ?_, hok', hbits'.trans (drop_bits hbits)⟩
  have hshift := shifted_toNat (s.bytes.getD s.p 0) (n := 1)
    (show (s.i_left - 1).toNat < 32 by omega) (by decide)
  have hmask : iMask 1 = 1 := rfl
  rw [hmask] at hshift
  show (((s.bytes.getD s.p 0).toUInt32 >>> .ofNat (s.i_left - 1).toNat) &&& 1).toNat = _
  rw [hshift]
  have hone' : (s.bytes.getD s.p 0).toNat / 2 ^ (s.i_left - 1).toNat % 2 ^ 1 = value [b] := hvalue
  rw [hone']
  cases b <;> rfl

/-! ## `_bs_skip` -/

theorem bsSkipLoop_spec (rounds : Nat) : ∀ s : Bs, s.i_left ≤ 8 → 0 < s.i_left + 8 * rounds →
    (bsSkipLoop rounds s).Ok ∧ (bsSkipLoop rounds s).bytes = s.bytes ∧
      8 * ((bsSkipLoop rounds s).p : Int) - (bsSkipLoop rounds s).i_left = 8 * s.p - s.i_left := by
  induction rounds with
  | zero =>
      intro s hle hpos
      have hone : 0 < s.i_left := by omega
      exact ⟨⟨hone, hle⟩, rfl, rfl⟩
  | succ rounds ih =>
      intro s hle hpos
      rw [bsSkipLoop]
      split
      · obtain ⟨hok, hbytes, hpos'⟩ := ih { s with p := s.p + 1, i_left := s.i_left + 8 }
          (by show s.i_left + 8 ≤ 8; omega) (by show 0 < s.i_left + 8 + 8 * rounds; omega)
        refine ⟨hok, hbytes, hpos'.trans ?_⟩
        show 8 * ((s.p + 1 : Nat) : Int) - (s.i_left + 8) = _
        omega
      · rename_i hgt
        exact ⟨⟨Int.not_le.1 hgt, hle⟩, rfl, rfl⟩

theorem bsSkip_reads {bs : List Bool} : BsReads (bsSkip bs.length) bs () := by
  intro s more hok hbits
  obtain ⟨hone, height⟩ := hok
  have hspec := bsSkipLoop_spec (bs.length + 1) { s with i_left := s.i_left - bs.length }
    (by show s.i_left - bs.length ≤ 8; omega)
    (by show 0 < s.i_left - bs.length + 8 * (bs.length + 1 : Nat); omega)
  have hrun : (bsSkip bs.length s).2 =
      bsSkipLoop (bs.length + 1) { s with i_left := s.i_left - bs.length } := rfl
  rw [← hrun] at hspec
  generalize (bsSkip bs.length s).2 = s' at hspec ⊢
  obtain ⟨hok', hbytes, hpos⟩ := hspec
  refine ⟨rfl, hok', ?_⟩
  rw [← drop_bits hbits]
  refine bits_of_pos hbytes ?_
  have hbefore : s.pos = 8 * s.p + (8 - s.i_left.toNat) := rfl
  have hafter : s'.pos = 8 * s'.p + (8 - s'.i_left.toNat) := rfl
  have hleft : 8 * (s'.p : Int) - s'.i_left = 8 * s.p - (s.i_left - bs.length) := hpos
  obtain ⟨hone', height'⟩ := hok'
  omega

/-! ## Codes -/

theorem ueLoop_succ (left i : Nat) (s : Bs) : ueLoop (left + 1) i s =
    if (bsRead1 s).1 = 0 ∧ (bsRead1 s).2.p < (bsRead1 s).2.p_end then
      ueLoop left (i + 1) (bsRead1 s).2
    else (i, (bsRead1 s).2) := by
  show (if (bsRead1 s).1 = 0 ∧ (bsRead1 s).2.p < (bsRead1 s).2.p_end then
    ueLoop left (i + 1) else pure i : StateM Bs Nat) (bsRead1 s).2 = _
  split <;> rfl

/-- The zeros of a code are counted, and the one behind them is taken. -/
theorem ueLoop_reads (z : Nat) : ∀ left i, z ≤ left →
    BsReads (ueLoop left i) (List.replicate z false ++ [true]) (i + z) := by
  induction z with
  | zero =>
      intro left i _ s more hok hbits
      obtain ⟨hvalue, hok', hbits'⟩ := bsRead1_reads true s more hok hbits
      have hrun : ueLoop left i s = (i, (bsRead1 s).2) := by
        cases left with
        | zero => rfl
        | succ left =>
            rw [ueLoop_succ, if_neg]
            rintro ⟨hzero, -⟩
            rw [hvalue] at hzero
            cases hzero
      rw [hrun]
      exact ⟨rfl, hok', hbits'⟩
  | succ z ih =>
      intro left i hle s more hok hbits
      obtain ⟨left, rfl⟩ : ∃ l, left = l + 1 := ⟨left - 1, by omega⟩
      obtain ⟨hvalue, hok', hbits'⟩ := bsRead1_reads false s
        (List.replicate z false ++ [true] ++ more) hok hbits
      have hne : List.replicate z false ++ [true] ≠ [] :=
        List.append_ne_nil_of_right_ne_nil _ (List.cons_ne_nil _ _)
      obtain ⟨hp, -⟩ := lt_end_of_bits hok' hne hbits'
      rw [ueLoop_succ, if_pos ⟨hvalue, hp⟩]
      have hnext := ih left (i + 1) (by omega) _ more hok' hbits'
      rw [Nat.add_right_comm] at hnext
      exact hnext

section

variable {shl32 : UInt32}

/-- A number that a code can have, as `_bs_read_ue` returns it. -/
theorem bsReadUe_reads {k : Nat} (hk : k < 2 ^ 32 - 1) :
    BsReads (bsReadUe shl32) (ExpGolomb.code k) (toInt (.ofNat k)) := by
  have hpow : 2 ^ Nat.log2 (k + 1) ≤ k + 1 := Nat.log2_self_le (Nat.succ_ne_zero k)
  have hpow' : k + 1 < 2 ^ (Nat.log2 (k + 1) + 1) := Nat.lt_log2_self
  have hz : Nat.log2 (k + 1) ≤ 31 := by
    by_contra hgt
    have hle : 2 ^ 32 ≤ 2 ^ Nat.log2 (k + 1) := Nat.pow_le_pow_right Nat.two_pos (by omega)
    omega
  have hsplit : ExpGolomb.code k = List.replicate (Nat.log2 (k + 1)) false ++ [true] ++
      (ofNat (Nat.log2 (k + 1)) (k + 1 - 2 ^ Nat.log2 (k + 1)) ++ []) := by
    rw [ExpGolomb.code, List.append_nil, List.append_assoc]
    rfl
  rw [hsplit]
  generalize Nat.log2 (k + 1) = z at hpow hpow' hz ⊢
  have hlt : k + 1 - 2 ^ z < 2 ^ z := by
    rw [Nat.pow_succ] at hpow'
    omega
  have hvalue : toInt (shlOne shl32 z - 1 + .ofNat (value (ofNat z (k + 1 - 2 ^ z)))) =
      toInt (.ofNat k) := by
    have hz32 : 2 ^ z ≤ 2 ^ 31 := Nat.pow_le_pow_right Nat.two_pos hz
    have hsmall : (UInt32.ofNat (k + 1 - 2 ^ z)).toNat = k + 1 - 2 ^ z :=
      UInt32.toNat_ofNat_of_lt' (show k + 1 - 2 ^ z < 2 ^ 32 by omega)
    rw [value_ofNat hlt, shlOne, if_pos (show z < 32 by omega)]
    congr 1
    refine UInt32.toNat_inj.1 ?_
    rw [ExpGolomb.toNat_codenum hz (by rw [hsmall]; exact hlt), hsmall,
      UInt32.toNat_ofNat_of_lt' (show k < 2 ^ 32 by omega)]
    omega
  refine (ueLoop_reads z 32 0 (by omega)).bind ?_
  have hbits := @bsRead_reads (ofNat z (k + 1 - 2 ^ z)) (by rw [length_ofNat]; omega)
  rw [length_ofNat] at hbits
  rw [Nat.zero_add]
  refine hbits.bind ?_
  rw [hvalue]
  exact reads_pure _

theorem toInt_ofNat {k : Nat} (hk : k < 2 ^ 31) : toInt (.ofNat k) = k := by
  show (UInt32.ofNat k).toBitVec.toInt = k
  have hnat : (UInt32.ofNat k).toBitVec.toNat = k :=
    UInt32.toNat_ofNat_of_lt' (show k < 2 ^ 32 by omega)
  rw [BitVec.toInt_eq_toNat_of_lt (by rw [hnat]; omega), hnat]

/-- What `_bs_read_se` makes of a number. -/
def seOf (val : Int) : Int :=
  if val % 2 = 1 then (wrapInt (val + 1)).tdiv 2 else -(val.tdiv 2)

theorem bsReadSe_reads {x : Int} (hx : ExpGolomb.number x < 2 ^ 32 - 1) :
    BsReads (bsReadSe shl32) (ExpGolomb.signedCode x)
      (seOf (toInt (.ofNat (ExpGolomb.number x)))) :=
  (bsReadUe_reads hx).then (reads_pure _)

/-- A small integer is read as it is. -/
theorem seOf_number {x : Int} (hlow : -2 ^ 29 < x) (hhigh : x < 2 ^ 29) :
    seOf (toInt (.ofNat (ExpGolomb.number x))) = x := by
  have hlt : ExpGolomb.number x < 2 ^ 30 := by
    rw [ExpGolomb.number]
    split <;> omega
  rw [toInt_ofNat (by omega), seOf, wrapInt, ExpGolomb.number]
  split
  · split
    · rw [Int.bmod_eq_of_le (by omega) (by omega), Int.tdiv_eq_ediv_of_nonneg (by omega)]
      omega
    · omega
  · split
    · omega
    · rw [Int.tdiv_eq_ediv_of_nonneg (by omega)]
      omega

end

end Nvr.RtspClient
