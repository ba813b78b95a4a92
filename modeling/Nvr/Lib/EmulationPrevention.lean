import Mathlib.Data.List.Infix
import Nvr.Lib.BitString

/-!
# Emulation prevention

In a NAL unit no three bytes may look like a start code, so behind two zeros a byte of at
most 3 has a 03 put in front of it. A reader takes these out again; `strip` is a reader
that takes two bytes for zeros without looking at all of their bits, and `Clean` says of
which bytes it then gives back no more and no less than was put in.
-/

namespace EmulationPrevention

/-- How many zeros there are behind a byte that stands behind `zeros` of them. -/
def behind (zeros : Nat) (b : UInt8) : Nat := if b = 0 then zeros + 1 else 0

/-- Bytes behind `zeros` zeros, with the bytes that are to be put in between. -/
def encode : Nat → List UInt8 → List UInt8
  | _, [] => []
  | zeros, b :: rest =>
      if 2 ≤ zeros ∧ b ≤ 3 then 3 :: b :: encode (behind 0 b) rest
      else b :: encode (behind zeros b) rest

/-- A reader that looks at no bit of the first byte and at the lower four of the second. -/
def strip : List UInt8 → List UInt8
  | x :: y :: z :: rest =>
      if y &&& 0x0f = 0 ∧ z = 3 then x :: y :: strip rest else x :: strip (y :: z :: rest)
  | bytes => bytes

/-- The same reader, which stops when it has given back as many bytes. -/
def stripUpTo : Nat → List UInt8 → List UInt8
  | limit + 1, x :: y :: z :: rest =>
      if y &&& 0x0f = 0 ∧ z = 3 then x :: y :: stripUpTo (limit - 1) rest
      else x :: stripUpTo limit (y :: z :: rest)
  | limit + 1, x :: rest => x :: stripUpTo limit rest
  | _, _ => []

/-- No 03 that is not put in stands where one is looked for. -/
def Clean (bytes : List UInt8) : Prop :=
  ∀ x y : UInt8, [x, y, 3] <:+: bytes → y &&& 0x0f = 0 → x = 0 ∧ y = 0

variable {x y b : UInt8} {bytes rest : List UInt8} {zeros : Nat}

/-! ## Bytes that are clean -/

theorem clean_cons : Clean (x :: bytes) ↔
    (∀ y, [y, 3] <+: bytes → y &&& 0x0f = 0 → x = 0 ∧ y = 0) ∧ Clean bytes := by
  constructor
  · intro h
    refine ⟨fun y hy hlow => h x y ?_ hlow, fun u v huv hlow => h u v ?_ hlow⟩
    · exact (List.cons_prefix_cons.2 ⟨rfl, hy⟩).isInfix
    · exact List.infix_cons_iff.2 (.inr huv)
  · rintro ⟨hhead, htail⟩ u v huv hlow
    obtain hfront | hinside := List.infix_cons_iff.1 huv
    · obtain ⟨rfl, hv⟩ := List.cons_prefix_cons.1 hfront
      exact hhead v hv hlow
    · exact htail u v hinside hlow

theorem clean_nil : Clean [] := fun x y h => by
  have hlen := h.length_le
  cases hlen

/-- Whether a 03 is taken out behind two bytes. -/
theorem clean_cons_cons_cons {z : UInt8} : Clean (x :: y :: z :: rest) ↔
    (y &&& 0x0f = 0 ∧ z = 3 → x = 0 ∧ y = 0) ∧ Clean (y :: z :: rest) := by
  rw [clean_cons]
  refine and_congr_left fun _ => ⟨fun h hmatch => ?_, fun h v hv hlow => ?_⟩
  · refine h y ?_ hmatch.1
    rw [hmatch.2]
    exact ⟨rest, rfl⟩
  · obtain ⟨rfl, htwo⟩ := List.cons_prefix_cons.1 hv
    exact h ⟨hlow, ((List.cons_prefix_cons.1 htwo).1).symm⟩

theorem clean_of_length_le (h : bytes.length ≤ 2) : Clean bytes := fun u v huv _ => by
  have hlen := huv.length_le
  simp only [List.length_cons, List.length_nil] at hlen
  omega

/-! ## The reader and what was put in -/

theorem strip_length_le (bytes : List UInt8) : (strip bytes).length ≤ bytes.length := by
  fun_induction strip bytes with
  | case1 x y z rest _ ih => simp only [List.length_cons]; omega
  | case2 x y z rest _ ih => simp only [List.length_cons] at ih ⊢; omega
  | case3 bytes => exact Nat.le_refl _

theorem strip_length_pos (h : 1 ≤ bytes.length) : 1 ≤ (strip bytes).length := by
  fun_cases strip bytes with
  | case1 x y z rest _ => simp only [List.length_cons]; omega
  | case2 x y z rest _ => simp only [List.length_cons]; omega
  | case3 bytes => exact h

/-- From three bytes on at most one in three is taken out. -/
theorem strip_length_ge (h : 2 ≤ bytes.length) : 2 ≤ (strip bytes).length := by
  fun_cases strip bytes with
  | case1 x y z rest _ => simp only [List.length_cons]; omega
  | case2 x y z rest _ =>
      have hpos := @strip_length_pos (y :: z :: rest) (by simp)
      rw [List.length_cons]
      omega
  | case3 bytes => exact h

theorem stripUpTo_nil (limit : Nat) : stripUpTo limit [] = [] := by
  cases limit <;> rfl

theorem stripUpTo_zero (bytes : List UInt8) : stripUpTo 0 bytes = [] := by
  cases bytes <;> rfl

theorem stripUpTo_length_le (limit : Nat) (bytes : List UInt8) :
    (stripUpTo limit bytes).length ≤ limit + 1 := by
  fun_induction stripUpTo limit bytes with
  | case1 limit x y z rest _ ih =>
      simp only [List.length_cons]
      cases limit with
      | zero => rw [stripUpTo_zero]; simp
      | succ limit => omega
  | case2 limit x y z rest _ ih => simp only [List.length_cons]; omega
  | case3 limit x rest _ ih => simp only [List.length_cons]; omega
  | case4 => exact Nat.zero_le _

/-- A reader that has not come to its limit has come to the end. -/
theorem stripUpTo_eq_iff (limit : Nat) (bytes : List UInt8) :
    ((stripUpTo limit bytes).length < limit → stripUpTo limit bytes = strip bytes) ∧
      ((strip bytes).length ≤ limit → stripUpTo limit bytes = strip bytes) := by
  fun_induction stripUpTo limit bytes with
  | case1 limit x y z rest hmatch ih =>
      rw [strip, if_pos hmatch]
      simp only [List.length_cons]
      exact ⟨fun h => by rw [ih.1 (by omega)], fun h => by rw [ih.2 (by omega)]⟩
  | case2 limit x y z rest hmatch ih =>
      rw [strip, if_neg hmatch]
      simp only [List.length_cons]
      exact ⟨fun h => by rw [ih.1 (by omega)], fun h => by rw [ih.2 (by omega)]⟩
  | case3 limit x rest hshort ih =>
      have hone : strip (x :: rest) = x :: strip rest := by
        match rest with
        | [] => rfl
        | [y] => rfl
        | y :: z :: rest => exact absurd rfl (hshort y z rest)
      rw [hone]
      simp only [List.length_cons]
      exact ⟨fun h => by rw [ih.1 (by omega)], fun h => by rw [ih.2 (by omega)]⟩
  | case4 bytes limit hlong hshort =>
      cases limit with
      | zero =>
          refine ⟨fun h => absurd h (Nat.not_lt_zero _), fun h => ?_⟩
          exact (List.length_eq_zero_iff.1 (Nat.le_zero.1 h)).symm
      | succ limit =>
          cases bytes with
          | nil => exact ⟨fun _ => rfl, fun _ => rfl⟩
          | cons x rest => exact absurd rfl (hshort limit x rest rfl)

/-- The reader is at a byte behind `zeros` zeros: no byte that was put in can be in front
of it, or behind the next one if that is the second zero. -/
structure AtByte (zeros : Nat) (bytes : List UInt8) : Prop where
  second : 2 ≤ zeros → ∀ b rest, bytes = b :: rest → 3 < b
  first : 1 ≤ zeros → ∀ b rest, bytes = 0 :: b :: rest → 3 < b

theorem atByte_zero (bytes : List UInt8) : AtByte 0 bytes :=
  ⟨fun h => absurd h (by decide), fun h => absurd h (by decide)⟩

theorem encode_of_not (h : ¬(2 ≤ zeros ∧ b ≤ 3)) :
    encode zeros (b :: rest) = b :: encode (behind zeros b) rest := if_neg h

theorem encode_of_put (h : 2 ≤ zeros ∧ b ≤ 3) :
    encode zeros (b :: rest) = 3 :: encode 0 (b :: rest) := by
  rw [encode, if_pos h, encode_of_not fun h0 => absurd h0.1 (by decide)]

/-- Two zeros are behind a byte only if it is the second of them. -/
theorem eq_zero_of_behind (h : 1 ≤ behind zeros b) : b = 0 := by
  by_contra hne
  rw [behind, if_neg hne] at h
  exact absurd h (by decide)

/-! ## Gives back what was coded -/

/-- What a reader gives back: the bytes, or fewer if they are not clean. -/
structure Kept (bytes out : List UInt8) : Prop where
  clean : Clean bytes → out = bytes
  not_clean : ¬Clean bytes → out.length < bytes.length

theorem Kept.length_le {out : List UInt8} (h : Kept bytes out) : out.length ≤ bytes.length := by
  by_cases hc : Clean bytes
  · rw [h.clean hc]
  · exact Nat.le_of_lt (h.not_clean hc)

/-- Bytes that the reader passes on. -/
theorem Kept.append {out : List UInt8} (front : List UInt8)
    (hiff : Clean (front ++ bytes) ↔ Clean bytes) (h : Kept bytes out) :
    Kept (front ++ bytes) (front ++ out) where
  clean := fun hc => by rw [h.clean (hiff.1 hc)]
  not_clean := fun hc => by
    have hlt := h.not_clean (hiff.not.1 hc)
    rw [List.length_append, List.length_append]
    omega

/-- Nothing is put in at the byte, and nothing behind it. -/
theorem AtByte.next (hat : AtByte zeros (x :: b :: rest)) :
    encode zeros (x :: b :: rest) = x :: encode (behind zeros x) (b :: rest) ∧
      ¬(2 ≤ behind zeros x ∧ b ≤ 3) := by
  constructor
  · refine encode_of_not fun h => ?_
    have hx := hat.second h.1 x (b :: rest) rfl
    exact absurd h.2 (UInt8.not_le.2 hx)
  · rintro ⟨hzeros, hb⟩
    obtain rfl := eq_zero_of_behind (Nat.le_of_lt hzeros)
    rw [behind, if_pos rfl] at hzeros
    have hlt := hat.first (by omega) b rest rfl
    exact absurd hb (UInt8.not_le.2 hlt)

/-- The next byte is one where nothing is put in either. -/
theorem AtByte.step (hat : AtByte zeros (x :: b :: rest))
    (hput : ∀ c more, rest = c :: more → ¬(2 ≤ behind (behind zeros x) b ∧ c ≤ 3)) :
    AtByte (behind zeros x) (b :: rest) where
  second := by
    intro hz u more hu
    obtain ⟨rfl, -⟩ := List.cons.inj hu
    exact UInt8.not_le.1 fun hle => hat.next.2 ⟨hz, hle⟩
  first := by
    intro hz c more hc
    obtain ⟨rfl, htail⟩ := List.cons.inj hc
    refine UInt8.not_le.1 fun hle => hput c more htail ⟨?_, hle⟩
    rw [behind, if_pos rfl]
    omega

theorem low_eq_zero (hle : b ≤ 3) (hlow : b &&& 0x0f = 0) : b = 0 := by
  have hmod : b.toNat &&& 15 = b.toNat % 16 := Nat.and_two_pow_sub_one_eq_mod b.toNat 4
  have hand : b.toNat &&& 15 = 0 := congrArg UInt8.toNat hlow
  have hthree : b.toNat ≤ 3 := UInt8.le_iff_toNat_le.1 hle
  exact UInt8.toNat_inj.1 (show b.toNat = 0 by omega)

/-- A byte that is put in is taken out. -/
theorem kept_put {c : UInt8} (hle : c ≤ 3)
    (h : Kept (c :: rest) (strip (encode 0 (c :: rest)))) :
    Kept (0 :: 0 :: c :: rest) (strip (0 :: 0 :: 3 :: encode 0 (c :: rest))) := by
  have hstrip : strip (0 :: 0 :: 3 :: encode 0 (c :: rest)) =
      0 :: 0 :: strip (encode 0 (c :: rest)) := by
    rw [strip, if_pos ⟨rfl, rfl⟩]
  rw [hstrip]
  refine Kept.append [0, 0] ?_ h
  show Clean (0 :: 0 :: c :: rest) ↔ _
  rw [clean_cons_cons_cons, clean_cons, and_iff_right fun _ => ⟨rfl, rfl⟩, and_iff_right]
  intro v hv hlow
  obtain ⟨rfl, -⟩ := List.cons_prefix_cons.1 hv
  exact ⟨rfl, low_eq_zero hle hlow⟩

/-- A byte that is not put in, and taken out. -/
theorem kept_match (hlow : b &&& 0x0f = 0) (hdiff : ¬(x = 0 ∧ b = 0))
    (h : Kept rest (strip (encode 0 rest))) :
    Kept (x :: b :: 3 :: rest) (strip (x :: b :: 3 :: encode 0 rest)) := by
  have hstrip : strip (x :: b :: 3 :: encode 0 rest) = x :: b :: strip (encode 0 rest) := by
    rw [strip, if_pos ⟨hlow, rfl⟩]
  have hlen := h.length_le
  refine ⟨fun hclean => ?_, fun _ => ?_⟩
  · exact absurd ((clean_cons_cons_cons.1 hclean).1 ⟨hlow, rfl⟩) hdiff
  · rw [hstrip]
    simp only [List.length_cons]
    omega

/-- A byte that is passed on. -/
theorem kept_pass {c : UInt8} {coded : List UInt8} (hmatch : ¬(b &&& 0x0f = 0 ∧ c = 3))
    (h : Kept (b :: c :: rest) (strip (b :: c :: coded))) :
    Kept (x :: b :: c :: rest) (strip (x :: b :: c :: coded)) := by
  rw [strip, if_neg hmatch]
  refine Kept.append [x] ?_ h
  show Clean (x :: b :: c :: rest) ↔ _
  rw [clean_cons_cons_cons, and_iff_right fun h => absurd h hmatch]

theorem kept_strip (n : Nat) : ∀ (bytes : List UInt8) (zeros : Nat), bytes.length ≤ n →
    AtByte zeros bytes → Kept bytes (strip (encode zeros bytes)) := by
  induction n with
  | zero =>
      intro bytes zeros hlen _
      obtain rfl := List.length_eq_zero_iff.1 (Nat.le_zero.1 hlen)
      exact ⟨fun _ => rfl, fun h => absurd clean_nil h⟩
  | succ n ih =>
      intro bytes zeros hlen hat
      match bytes with
      | [] => exact ⟨fun _ => rfl, fun h => absurd clean_nil h⟩
      | [x] =>
          have hone : encode zeros [x] = [x] := encode_of_not fun h =>
            absurd h.2 (UInt8.not_le.2 (hat.second h.1 x [] rfl))
          rw [hone]
          exact ⟨fun _ => rfl, fun h => absurd (clean_of_length_le
            (show [x].length ≤ 2 from Nat.le_succ 1)) h⟩
      | [x, b] =>
          obtain ⟨hcode, hb⟩ := hat.next
          rw [hcode, encode_of_not hb]
          exact ⟨fun _ => rfl, fun h => absurd (clean_of_length_le
            (show [x, b].length ≤ 2 from Nat.le_refl 2)) h⟩
      | x :: b :: c :: rest =>
          obtain ⟨hcode, hb⟩ := hat.next
          simp only [List.length_cons] at hlen
          by_cases hput : 2 ≤ behind (behind zeros x) b ∧ c ≤ 3
          · -- two zeros, the first of them `x`
            obtain rfl := eq_zero_of_behind (Nat.le_of_lt hput.1)
            have hsecond : 1 ≤ behind zeros x := by
              have htwo := hput.1
              rw [behind, if_pos rfl] at htwo
              omega
            obtain rfl := eq_zero_of_behind hsecond
            rw [hcode, encode_of_not hb, encode_of_put hput]
            refine kept_put hput.2 (ih (c :: rest) 0 ?_ (atByte_zero _))
            simp only [List.length_cons]
            omega
          · have hcoded : encode (behind zeros x) (b :: c :: rest) =
                b :: c :: encode (behind (behind (behind zeros x) b) c) rest := by
              rw [encode_of_not hb, encode_of_not hput]
            rw [hcode, hcoded]
            by_cases hmatch : b &&& 0x0f = 0 ∧ c = 3
            · obtain ⟨hlow, rfl⟩ := hmatch
              refine kept_match hlow ?_ (ih rest 0 (by omega) (atByte_zero _))
              rintro ⟨rfl, rfl⟩
              refine hput ⟨?_, UInt8.le_refl 3⟩
              rw [behind, if_pos rfl, behind, if_pos rfl]
              omega
            · refine kept_pass hmatch ?_
              rw [← hcoded]
              refine ih (b :: c :: rest) _ (by simp only [List.length_cons]; omega) ?_
              refine hat.step fun c' more hc => ?_
              obtain ⟨rfl, -⟩ := List.cons.inj hc
              exact hput

/-- What the reader gives back of bytes that are coded: the bytes, or fewer if they are
not clean. -/
theorem strip_encode (bytes : List UInt8) : Kept bytes (strip (encode 0 bytes)) :=
  kept_strip bytes.length bytes 0 (Nat.le_refl _) (atByte_zero _)

end EmulationPrevention
