import Nvr.Lib.BitString

/-!
# Exp-Golomb codes

A number is coded by as many zeros as the number plus one has bits behind its first one,
and these bits. The first one is where the zeros end, so that a code is read without
knowing its length, and what is behind it is not looked at.
-/

namespace ExpGolomb

open BitString

/-- The zeros that a string begins with. -/
def zeros (bs : List Bool) : Nat := (bs.takeWhile fun b => !b).length

/-- The number that a string begins with, and the length of its code. -/
def read (bs : List Bool) : Option (Nat × Nat) :=
  let z := zeros bs
  if 2 * z + 1 ≤ bs.length then some (2 ^ z - 1 + value ((bs.drop (z + 1)).take z), 2 * z + 1)
  else none

/-- The code of a number. -/
def code (k : Nat) : List Bool :=
  let z := Nat.log2 (k + 1)
  List.replicate z false ++ true :: ofNat z (k + 1 - 2 ^ z)

/-- The integer that a number stands for in a signed code: 0, 1, -1, 2, -2, … -/
def signed (k : Nat) : Int := if k % 2 = 1 then (k + 1) / 2 else -(k / 2)

/-- The number that stands for an integer. -/
def number (x : Int) : Nat := if 0 < x then (2 * x - 1).toNat else (-2 * x).toNat

def signedCode (x : Int) : List Bool := code (number x)

variable {bs : List Bool} {k : Nat}

theorem zeros_le (bs : List Bool) : zeros bs ≤ bs.length :=
  (List.takeWhile_prefix _).length_le

/-- In front of the zeros' end there is nothing else, and there it is. -/
theorem zeros_iff {z : Nat} (hz : z < bs.length) :
    zeros bs = z ↔ (∀ i < z, bs.getD i false = false) ∧ bs.getD z false = true := by
  induction bs generalizing z with
  | nil => exact absurd hz (Nat.not_lt_zero z)
  | cons b bs ih =>
      cases b with
      | true =>
          cases z with
          | zero => exact ⟨fun _ => ⟨fun i hi => absurd hi (Nat.not_lt_zero i), rfl⟩, fun _ => rfl⟩
          | succ z =>
              exact ⟨fun h => (nomatch h), fun h => absurd (h.1 0 (Nat.succ_pos z)) (by simp)⟩
      | false =>
          cases z with
          | zero => exact ⟨fun h => (nomatch h), fun h => absurd h.2 (by simp)⟩
          | succ z =>
              have hzeros : zeros (false :: bs) = zeros bs + 1 := rfl
              rw [hzeros, Nat.add_right_cancel_iff, ih (Nat.lt_of_succ_lt_succ hz)]
              refine and_congr_left fun _ => ⟨fun h i hi => ?_, fun h i hi => ?_⟩
              · cases i with
                | zero => rfl
                | succ i => exact h i (Nat.lt_of_succ_lt_succ hi)
              · exact h (i + 1) (Nat.succ_lt_succ hi)

theorem zeros_replicate (z : Nat) (bs : List Bool) :
    zeros (List.replicate z false ++ true :: bs) = z := by
  induction z with
  | zero => rfl
  | succ z ih =>
      rw [List.replicate_succ, List.cons_append]
      exact congrArg (· + 1) ih

theorem length_code (k : Nat) : (code k).length = 2 * Nat.log2 (k + 1) + 1 := by
  rw [code, List.length_append, List.length_replicate, List.length_cons, length_ofNat]
  omega

/-- A code is read back, whatever stands behind it. -/
theorem read_code (k : Nat) (bs : List Bool) :
    read (code k ++ bs) = some (k, (code k).length) := by
  have hlen := length_code k
  rw [read]
  have hpow : 2 ^ Nat.log2 (k + 1) ≤ k + 1 := Nat.log2_self_le (Nat.succ_ne_zero k)
  have hpow' : k + 1 < 2 ^ (Nat.log2 (k + 1) + 1) := Nat.lt_log2_self
  have hsplit : code k ++ bs = List.replicate (Nat.log2 (k + 1)) false ++
      true :: (ofNat (Nat.log2 (k + 1)) (k + 1 - 2 ^ Nat.log2 (k + 1)) ++ bs) := by
    rw [code, List.append_assoc]
    rfl
  rw [hsplit, zeros_replicate, ← hsplit]
  rw [List.length_append, hlen, if_pos (Nat.le_add_right _ _), hsplit]
  generalize Nat.log2 (k + 1) = z at hpow hpow' ⊢
  have hdrop : (List.replicate z false ++ true :: (ofNat z (k + 1 - 2 ^ z) ++ bs)).drop (z + 1) =
      ofNat z (k + 1 - 2 ^ z) ++ bs := by
    rw [List.drop_append, List.drop_eq_nil_of_le (by rw [List.length_replicate]; omega),
      List.length_replicate, Nat.add_sub_cancel_left]
    rfl
  have htake : (ofNat z (k + 1 - 2 ^ z) ++ bs).take z = ofNat z (k + 1 - 2 ^ z) :=
    List.take_left' (length_ofNat _ _)
  rw [hdrop, htake, value_ofNat (by rw [Nat.pow_succ] at hpow'; omega)]
  congr 2
  have hpos : 0 < 2 ^ z := Nat.two_pow_pos z
  omega

/-- The number of a code with `z` zeros, in 32 bits. -/
theorem toNat_codenum {z : Nat} (hz : z ≤ 31) {r : UInt32} (hr : r.toNat < 2 ^ z) :
    (1 <<< UInt32.ofNat z - 1 + r).toNat = 2 ^ z - 1 + r.toNat := by
  have hpow : 2 ^ z ≤ 2 ^ 31 := Nat.pow_le_pow_right Nat.two_pos hz
  have hpos : 0 < 2 ^ z := Nat.two_pow_pos z
  have hshift : (1 <<< UInt32.ofNat z : UInt32).toNat = 2 ^ z := by
    rw [UInt32.toNat_shiftLeft, UInt32.toNat_ofNat_of_lt' (show z < UInt32.size by
      simp only [UInt32.size]; omega), Nat.mod_eq_of_lt (show z < 32 by omega), UInt32.toNat_one,
      Nat.shiftLeft_eq, Nat.one_mul, Nat.mod_eq_of_lt (by omega)]
  rw [UInt32.toNat_add, UInt32.toNat_sub_of_le _ _ (by
    rw [UInt32.le_iff_toNat_le, hshift, UInt32.toNat_one]; omega), hshift, UInt32.toNat_one,
    Nat.mod_eq_of_lt (by omega)]

theorem signed_number (x : Int) : signed (number x) = x := by
  rw [signed, number]
  split <;> split <;> omega

/-- Two signed codes are the same only if the numbers are. -/
theorem signed_inj {j k : Nat} (h : signed j = signed k) : j = k := by
  rw [signed, signed] at h
  split at h <;> split at h <;> omega

end ExpGolomb
