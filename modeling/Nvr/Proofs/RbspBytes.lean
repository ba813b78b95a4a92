import Nvr.RtspClient.Rbsp

/-!
# Bytes without emulation prevention

`torbsp` takes out every 03 behind two bytes the second of which has its lower four bits 0:
the mask of `NEXT24BIT` has three digits where three bytes are compared. So bytes come
back as they were coded if and only if they are clean. Its limit is three bytes below the
size of the buffer, which for a buffer of fewer than three bytes is no limit.
-/

namespace Nvr.RtspClient

open EmulationPrevention

variable {src : List UInt8} {pos : Nat}

theorem getLsbD_next24Bit (a b c : UInt8) (i : Nat) :
    (((a.toBitVec.setWidth 32 <<< 16) ||| (b.toBitVec.setWidth 32 <<< 8) |||
      c.toBitVec.setWidth 32) &&& 0x0fff#32).getLsbD i =
      if i < 8 then Byte.bit c i else decide (i < 12) && Byte.bit b (i - 8) := by
  have hmask : (0x0fff#32).getLsbD i = decide (i < 12) := by
    rw [show (0x0fff#32 : BitVec 32) = BitVec.ofNat 32 (2 ^ 12 - 1) from rfl, BitVec.getLsbD_ofNat,
      Nat.testBit_two_pow_sub_one]
    by_cases hi : i < 12
    · simp [hi, show i < 32 by omega]
    · simp [hi]
  rw [BitVec.getLsbD_and, hmask]
  simp only [BitVec.getLsbD_or, BitVec.getLsbD_shiftLeft, BitVec.getLsbD_setWidth]
  by_cases h8 : i < 8
  · simp [h8, show i < 16 by omega, show i < 12 by omega, show i < 32 by omega, Byte.bit]
  · by_cases h12 : i < 12
    · have hc : c.toBitVec.getLsbD i = false := BitVec.getLsbD_of_ge _ i (by omega)
      simp [h8, h12, hc, show i < 16 by omega, show i < 32 by omega, show i - 8 < 32 by omega,
        Byte.bit]
    · simp [h8, h12]

/-- What is compared with 000003. -/
theorem next24Bit_eq_three (a b c : UInt8) :
    ((a.toBitVec.setWidth 32 <<< 16) ||| (b.toBitVec.setWidth 32 <<< 8) |||
      c.toBitVec.setWidth 32) &&& 0x0fff#32 = 0x000003#32 ↔ b &&& 0x0f = 0 ∧ c = 3 := by
  have hthree : ∀ i, (0x000003#32).getLsbD i =
      if i < 8 then Byte.bit 3 i else decide (i < 12) && Byte.bit 0 (i - 8) := by
    intro i
    rw [show (0x000003#32 : BitVec 32) = (3 : UInt8).toBitVec.setWidth 32 from rfl,
      BitVec.getLsbD_setWidth, Byte.bit_zero, Bool.and_false]
    split
    · rw [decide_eq_true (show i < 32 by omega), Bool.true_and]
      rfl
    · rw [BitVec.getLsbD_of_ge _ i (by omega), Bool.and_false]
  have hlow : ∀ j, Byte.bit (b &&& 0x0f) j = (decide (j < 4) && Byte.bit b j) := by
    intro j
    have hmask : Byte.bit 0x0f j = decide (j < 4) := by
      rw [Byte.bit, show (0x0f : UInt8).toBitVec = BitVec.ofNat 8 (2 ^ 4 - 1) from rfl,
        BitVec.getLsbD_ofNat, Nat.testBit_two_pow_sub_one]
      by_cases hj : j < 4
      · simp [hj, show j < 8 by omega]
      · simp [hj]
    rw [Byte.bit_and, hmask, Bool.and_comm]
  constructor
  · intro h
    have hbits : ∀ i, (if i < 8 then Byte.bit c i else decide (i < 12) && Byte.bit b (i - 8)) =
        if i < 8 then Byte.bit 3 i else decide (i < 12) && Byte.bit 0 (i - 8) := by
      intro i
      rw [← getLsbD_next24Bit a b c, h, hthree]
    refine ⟨Byte.ext fun j _ => ?_, Byte.ext fun j hj => ?_⟩
    · have hj' := hbits (j + 8)
      rw [if_neg (by omega), if_neg (by omega), Nat.add_sub_cancel, Byte.bit_zero,
        Bool.and_false] at hj'
      rw [hlow, Byte.bit_zero, ← hj']
      congr 1
      exact decide_eq_decide.2 (by omega)
    · have hj' := hbits j
      rwa [if_pos hj, if_pos hj] at hj'
  · rintro ⟨hzero, rfl⟩
    refine BitVec.eq_of_getLsbD_eq fun i _ => ?_
    rw [getLsbD_next24Bit, hthree]
    split
    · rfl
    · have hbit := hlow (i - 8)
      rw [hzero, Byte.bit_zero] at hbit
      rw [Byte.bit_zero, Bool.and_false, hbit]
      congr 1
      exact decide_eq_decide.2 (by omega)

/-! ## The loop -/

/-- From the end of `src` on. -/
theorem loop_end {limit rounds : Nat} {buf : List UInt8} (h : src.length ≤ pos) :
    torbspLoop src limit rounds pos buf = some buf := by
  cases rounds with
  | zero => rfl
  | succ rounds => rw [torbspLoop, if_neg fun hc => Nat.not_lt.2 h hc.1]

/-- The loop writes what the reader gives back, and reads nothing else than `src`. -/
theorem loop_eq (limit rounds : Nat) : ∀ (pos : Nat) (buf : List UInt8),
    src.length ≤ pos + rounds →
    torbspLoop src limit rounds pos buf =
      some (buf ++ stripUpTo (limit - buf.length) (src.drop pos)) := by
  induction rounds with
  | zero =>
      intro pos buf hle
      have hend : src.length ≤ pos := hle
      rw [torbspLoop, List.drop_eq_nil_of_le hend, stripUpTo_nil, List.append_nil]
  | succ rounds ih =>
      intro pos buf hle
      by_cases hgo : pos < src.length ∧ buf.length < limit
      · obtain ⟨left, hleft⟩ : ∃ left, limit - buf.length = left + 1 :=
          ⟨limit - buf.length - 1, by omega⟩
        rw [torbspLoop, if_pos hgo, isPrevention, hleft]
        have htail : ∀ k, src.drop (pos + k) = (src.drop pos).drop k := fun k => by
          rw [List.drop_drop]
        have hget : ∀ k, src[pos + k]? = (src.drop pos)[k]? := fun k => by
          rw [List.getElem?_drop]
        have hlen : (src.drop pos).length = src.length - pos := List.length_drop
        have hlast : src[pos]? = (src.drop pos)[0]? := hget 0
        generalize src.drop pos = rest at htail hget hlen hlast ⊢
        match rest with
        | [] =>
            simp only [List.length_nil] at hlen
            omega
        | [x] =>
            simp only [List.length_cons, List.length_nil] at hlen
            rw [if_neg (by omega), hlast]
            show torbspLoop src limit rounds (pos + 1) (buf ++ [x]) = _
            rw [ih (pos + 1) _ (by omega), htail 1]
            show some (buf ++ [x] ++ stripUpTo _ []) = some (buf ++ x :: stripUpTo left [])
            rw [stripUpTo_nil, stripUpTo_nil, List.append_nil]
        | [x, y] =>
            simp only [List.length_cons, List.length_nil] at hlen
            rw [if_neg (by omega), hlast]
            show torbspLoop src limit rounds (pos + 1) (buf ++ [x]) = _
            rw [ih (pos + 1) _ (by omega), htail 1]
            have hrest : limit - (buf ++ [x]).length = left := by
              rw [List.length_append, List.length_singleton]
              omega
            rw [hrest, List.append_assoc]
            rfl
        | x :: y :: z :: rest =>
            simp only [List.length_cons] at hlen
            rw [if_pos (by omega), next24Bit, hlast, hget 1, hget 2]
            dsimp only [List.getElem?_cons_zero, List.getElem?_cons_succ, Option.map_some]
            by_cases hmatch : y &&& 0x0f = 0 ∧ z = 3
            · rw [decide_eq_true ((next24Bit_eq_three x y z).2 hmatch), stripUpTo, if_pos hmatch]
              show torbspLoop src limit rounds (pos + 3) (buf ++ [x, y]) = _
              rw [ih (pos + 3) _ (by omega), htail 3]
              have hrest : limit - (buf ++ [x, y]).length = left - 1 := by
                rw [List.length_append, List.length_cons, List.length_singleton]
                omega
              rw [hrest, List.append_assoc]
              rfl
            · rw [decide_eq_false ((next24Bit_eq_three x y z).not.2 hmatch), stripUpTo,
                if_neg hmatch]
              show torbspLoop src limit rounds (pos + 1) (buf ++ [x]) = _
              rw [ih (pos + 1) _ (by omega), htail 1]
              have hrest : limit - (buf ++ [x]).length = left := by
                rw [List.length_append, List.length_singleton]
                omega
              rw [hrest, List.append_assoc]
              rfl
      · rw [torbspLoop, if_neg hgo]
        by_cases hend : src.length ≤ pos
        · rw [List.drop_eq_nil_of_le hend, stripUpTo_nil, List.append_nil]
        · have hfull : limit - buf.length = 0 := by omega
          rw [hfull, stripUpTo_zero, List.append_nil]

theorem torbsp_eq (src : List UInt8) (buflen : UInt32) :
    torbsp src buflen = some (stripUpTo (buflen - 3).toNat (src.drop 1)) := by
  rw [torbsp, loop_eq _ _ 1 [] (by omega)]
  rfl

/-! ## The law of `torbsp` -/

/-- Bytes that are coded and put behind a header come back, and their number. -/
def UndoneLaw (header : UInt8) (r : List UInt8) (buflen : UInt32) : Prop :=
  torbsp (header :: encode 0 r) buflen = some r

/-- Nothing outside `src` is read, and nothing outside `buf` is written. -/
def RbspInside (src : List UInt8) (buflen : UInt32) : Prop :=
  ∃ buf, torbsp src buflen = some buf ∧ buf.length ≤ buflen.toNat

/-- There is room for what is written: three bytes, or all of `src` but the header, or two
for three of which one is taken out. -/
def RbspRoom (src : List UInt8) (buflen : UInt32) : Prop :=
  3 ≤ buflen.toNat ∨ src.length ≤ buflen.toNat + 1 ∨
    buflen.toNat = 2 ∧ src.length = 4 ∧ src.getD 2 0 &&& 0x0f = 0 ∧ src.getD 3 0 = 3

theorem limit_of_ge {buflen : UInt32} (h : 3 ≤ buflen.toNat) :
    (buflen - 3).toNat = buflen.toNat - 3 :=
  UInt32.toNat_sub_of_le _ _ (UInt32.le_iff_toNat_le.2 h)

theorem limit_of_lt {buflen : UInt32} (h : buflen.toNat < 3) :
    (buflen - 3).toNat = 2 ^ 32 - 3 + buflen.toNat := by
  rw [UInt32.toNat_sub]
  show (2 ^ 32 - 3 + buflen.toNat) % 2 ^ 32 = _
  omega

theorem undone_iff {header : UInt8} {r : List UInt8} {buflen : UInt32}
    (h : r.length + 3 < buflen.toNat) : UndoneLaw header r buflen ↔ Clean r := by
  have hkept := strip_encode r
  have hlimit := @limit_of_ge buflen (by omega)
  have hall : stripUpTo (buflen - 3).toNat (encode 0 r) = strip (encode 0 r) :=
    (stripUpTo_eq_iff _ _).2 (by have := hkept.length_le; omega)
  have hout : torbsp (header :: encode 0 r) buflen = some (strip (encode 0 r)) := by
    rw [torbsp_eq, List.drop_succ_cons, List.drop_zero, hall]
  rw [UndoneLaw, hout]
  constructor
  · intro heq
    by_contra hnot
    have hlt := hkept.not_clean hnot
    rw [Option.some.inj heq] at hlt
    exact Nat.lt_irrefl _ hlt
  · intro hclean
    rw [hkept.clean hclean]

/-- How long what is left of a few bytes is. -/
theorem strip_length_le_iff {bytes : List UInt8} {n : Nat} (hn : n < 3) :
    (strip bytes).length ≤ n ↔ bytes.length ≤ n ∨
      n = 2 ∧ bytes.length = 3 ∧ bytes.getD 1 0 &&& 0x0f = 0 ∧ bytes.getD 2 0 = 3 := by
  match bytes with
  | [] => exact ⟨fun h => .inl h, fun _ => Nat.zero_le _⟩
  | [x] => simp [strip]
  | [x, y] => simp [strip]
  | [x, y, z] =>
      rw [strip]
      split
      · rename_i hmatch
        simp only [strip, List.length_cons, List.length_nil]
        constructor
        · intro h
          exact .inr ⟨by omega, trivial, hmatch⟩
        · rintro (h | h) <;> omega
      · rename_i hmatch
        simp only [strip, List.length_cons, List.length_nil]
        constructor
        · intro h
          omega
        · rintro (h | h)
          · omega
          · exact absurd h.2.2 hmatch
  | x :: y :: z :: w :: rest =>
      have hthree : 3 ≤ (strip (x :: y :: z :: w :: rest)).length := by
        rw [strip]
        split
        · have hpos := @strip_length_pos (w :: rest) (by simp)
          simp only [List.length_cons]
          omega
        · have htwo := @strip_length_ge (y :: z :: w :: rest) (by simp)
          simp only [List.length_cons]
          omega
      constructor
      · intro h
        omega
      · simp only [List.length_cons]
        rintro (h | h) <;> omega

theorem inside_iff (src : List UInt8) (buflen : UInt32) :
    RbspInside src buflen ↔ RbspRoom src buflen := by
  have hle := stripUpTo_length_le (buflen - 3).toNat (src.drop 1)
  have hiff := stripUpTo_eq_iff (buflen - 3).toNat (src.drop 1)
  have hlaw : RbspInside src buflen ↔
      (stripUpTo (buflen - 3).toNat (src.drop 1)).length ≤ buflen.toNat := by
    rw [RbspInside, torbsp_eq]
    constructor
    · rintro ⟨buf, hbuf, hlen⟩
      rwa [Option.some.inj hbuf]
    · exact fun h => ⟨_, rfl, h⟩
  rw [hlaw, RbspRoom]
  by_cases hthree : 3 ≤ buflen.toNat
  · rw [limit_of_ge hthree] at hle ⊢
    exact ⟨fun _ => .inl hthree, fun _ => by omega⟩
  · have hlimit := limit_of_lt (Nat.not_le.1 hthree)
    rw [or_iff_right hthree]
    have hstrip : (stripUpTo (buflen - 3).toNat (src.drop 1)).length ≤ buflen.toNat ↔
        (strip (src.drop 1)).length ≤ buflen.toNat := by
      constructor
      · intro h
        rwa [← hiff.1 (by omega)]
      · intro h
        rwa [hiff.2 (by omega)]
    rw [hstrip, strip_length_le_iff (Nat.not_le.1 hthree), List.length_drop]
    have hget : ∀ k, (src.drop 1).getD k 0 = src.getD (k + 1) 0 := fun k => by
      rw [List.getD_eq_getElem?_getD, List.getD_eq_getElem?_getD, List.getElem?_drop,
        Nat.add_comm]
    rw [hget, hget]
    refine or_congr (by omega) (and_congr_right fun _ => and_congr_left fun _ => by omega)

/-- Coded bytes come back if and only if no 03 stands in them behind two bytes the second
of which has its lower four bits 0, other than 00 00; and nothing is read or written
outside if and only if there is room. -/
theorem torbsp_iff (header : UInt8) (r src : List UInt8) (buflen buflen' : UInt32)
    (h : r.length + 3 < buflen.toNat) :
    (UndoneLaw header r buflen ↔ Clean r) ∧
      (RbspInside src buflen' ↔ RbspRoom src buflen') :=
  ⟨undone_iff h, inside_iff src buflen'⟩

theorem torbsp_iff_short :
    (UndoneLaw 0x67 [1, 0x10, 3] 7 ↔ Clean [1, 0x10, 3]) ∧
      (RbspInside [0x67, 1, 2, 3] 1 ↔ RbspRoom [0x67, 1, 2, 3] 1) :=
  torbsp_iff 0x67 [1, 0x10, 3] [0x67, 1, 2, 3] 7 1 (by decide)

/-- Of the bytes 01 10 03 the last one is taken out. -/
theorem not_torbspLaw :
    ¬((∀ (header : UInt8) (r : List UInt8) (buflen : UInt32), r.length + 3 < buflen.toNat →
        UndoneLaw header r buflen) ∧
      ∀ (src : List UInt8) (buflen : UInt32), RbspInside src buflen) := by
  rintro ⟨hlaw, -⟩
  have hback := hlaw 0x67 [1, 0x10, 3] 7 (by decide)
  have hcode : torbsp (0x67 :: encode 0 [1, 0x10, 3]) 7 = some [1, 0x10] := by decide +kernel
  rw [UndoneLaw, hcode] at hback
  exact absurd hback (by decide)

end Nvr.RtspClient
