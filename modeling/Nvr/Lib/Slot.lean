import Mathlib.Algebra.GroupWithZero.Nat

/-!
# Numerals for slots

A numeral of `Fin n` carries a proof that `n` is not zero. Here the proofs have names, so such a
numeral is one term wherever it is written.
-/

namespace Slot

scoped instance two : NeZero 2 := ⟨by decide⟩

scoped instance four : NeZero 4 := ⟨by decide⟩

scoped instance eight : NeZero 8 := ⟨by decide⟩

end Slot
