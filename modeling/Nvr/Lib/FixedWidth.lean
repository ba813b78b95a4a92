import Mathlib.Algebra.Group.Int.Defs
import Mathlib.Algebra.Group.Nat.Defs
import Mathlib.Tactic.Common

/-!
# Fixed-width counters and bit flags

Machine counters are read in the naturals or the integers wherever a proof
does arithmetic. The lemmas here are the crossings: an addition or a
subtraction that stays in range is the addition or subtraction of the values.

A word used as a set of flags is read through `Flag.Has`. Setting or clearing
one flag decides that flag and leaves every flag disjoint from it as it was.
-/

namespace UInt32

theorem toNat_add_of_lt' {a b : UInt32} (h : a.toNat + b.toNat < 2 ^ 32) :
    (a + b).toNat = a.toNat + b.toNat := by
  rw [UInt32.toNat_add, Nat.mod_eq_of_lt h]

theorem toNat_sub_of_toNat_le {a b : UInt32} (h : b.toNat ≤ a.toNat) :
    (a - b).toNat = a.toNat - b.toNat :=
  UInt32.toNat_sub_of_le a b (UInt32.le_iff_toNat_le.2 h)

/-- The `int` of a word in its range. -/
theorem toInt_toInt32_of_lt {a : UInt32} (h : a.toNat < 2 ^ 31) : a.toInt32.toInt = a.toNat :=
  BitVec.toInt_eq_toNat_of_lt (by
    show 2 * a.toNat < 2 ^ 32
    omega)

end UInt32

namespace Int32

theorem toInt_add_of_range {a b : Int32} (hlo : -2 ^ 31 ≤ a.toInt + b.toInt)
    (hhi : a.toInt + b.toInt < 2 ^ 31) : (a + b).toInt = a.toInt + b.toInt := by
  rw [Int32.toInt_add]
  exact Int.bmod_eq_of_le (by omega) (by omega)

theorem toInt_sub_of_range {a b : Int32} (hlo : -2 ^ 31 ≤ a.toInt - b.toInt)
    (hhi : a.toInt - b.toInt < 2 ^ 31) : (a - b).toInt = a.toInt - b.toInt := by
  rw [Int32.toInt_sub]
  exact Int.bmod_eq_of_le (by omega) (by omega)

/-- The word of a nonnegative `int`. -/
theorem toNat_toUInt32_of_nonneg {a : Int32} (h : 0 ≤ a.toInt) :
    a.toUInt32.toNat = a.toInt.toNat :=
  Int32.toNat_toUInt32_of_le (Int32.le_iff_toInt_le.2 h)

end Int32

/-! ## Flags -/

namespace Flag

/-- Some bit of `f` is set in `s`. -/
def Has (s f : UInt32) : Prop := s &&& f ≠ 0

instance (s f : UInt32) : Decidable (Has s f) := inferInstanceAs (Decidable (s &&& f ≠ 0))

theorem or_and_of_disjoint {s f g : UInt32} (h : f &&& g = 0) :
    (s ||| f) &&& g = s &&& g := by
  apply UInt32.toBitVec_inj.mp
  have hbits := congrArg UInt32.toBitVec h
  ext i hi
  have hbit := congrArg (fun x : BitVec 32 => x.getLsbD i) hbits
  simp at hbit ⊢
  grind

theorem and_not_and_of_disjoint {s f g : UInt32} (h : f &&& g = 0) :
    (s &&& ~~~f) &&& g = s &&& g := by
  apply UInt32.toBitVec_inj.mp
  have hbits := congrArg UInt32.toBitVec h
  ext i hi
  have hbit := congrArg (fun x : BitVec 32 => x.getLsbD i) hbits
  simp [hi] at hbit ⊢
  grind

theorem or_and_self (s f : UInt32) : (s ||| f) &&& f = f := by
  apply UInt32.toBitVec_inj.mp
  ext i hi
  simp
  grind

theorem and_not_and_self (s f : UInt32) : (s &&& ~~~f) &&& f = 0 := by
  apply UInt32.toBitVec_inj.mp
  ext i hi
  simp

theorem has_or_of_disjoint {s f g : UInt32} (h : f &&& g = 0) :
    Has (s ||| f) g ↔ Has s g := by rw [Has, or_and_of_disjoint h, Has]

theorem has_and_not_of_disjoint {s f g : UInt32} (h : f &&& g = 0) :
    Has (s &&& ~~~f) g ↔ Has s g := by rw [Has, and_not_and_of_disjoint h, Has]

theorem has_or_self {s f : UInt32} (hf : f ≠ 0) : Has (s ||| f) f := by
  rw [Has, or_and_self]
  exact hf

theorem not_has_and_not_self (s f : UInt32) : ¬Has (s &&& ~~~f) f := by
  rw [Has, and_not_and_self]
  exact fun h => h rfl

theorem not_has_zero (f : UInt32) : ¬Has 0 f := by
  rw [Has, UInt32.zero_and]
  exact fun h => h rfl

end Flag
