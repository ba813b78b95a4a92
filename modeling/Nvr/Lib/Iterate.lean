import Mathlib.Data.Finset.Card
import Mathlib.Data.Nat.Find
import Mathlib.Logic.Function.Iterate

/-!
# Loops over finitely many states

A loop that goes from each state to the next by a function, and stops at some of
them, stops within as many passes as there are states, or never: when it comes
around to a state it has been in, it goes on as it did from there. It stops if every
pass takes something from what is left to do, and never if a pass changes nothing in
front of the stop.
-/

namespace Iterate

variable {α : Type} {f : α → α} {Stop : α → Prop} {a : α}

/-- From two equal states the loop goes on alike. -/
theorem iterate_add_of_eq {i j : Nat} (h : f^[i] a = f^[j] a) (n : Nat) :
    f^[i + n] a = f^[j + n] a := by
  rw [Nat.add_comm i, Nat.add_comm j, Function.iterate_add_apply, Function.iterate_add_apply, h]

/-- The states in front of the first stop are all different. -/
theorem ne_of_first {k : Nat} (hstop : Stop (f^[k] a)) (hfirst : ∀ i < k, ¬ Stop (f^[i] a))
    {i j : Nat} (hij : i < j) (hj : j ≤ k) : f^[i] a ≠ f^[j] a := by
  intro heq
  have hback := iterate_add_of_eq heq (k - j)
  rw [Nat.add_sub_cancel' hj] at hback
  refine hfirst (i + (k - j)) (by omega) ?_
  rw [hback]
  exact hstop

/-- When the states up to the stop are among those of a finite set, the stop comes
within as many passes. -/
theorem stops_within (Stop : α → Prop) {S : Finset α}
    (hmem : ∀ k, (∀ i < k, ¬ Stop (f^[i] a)) → f^[k] a ∈ S) (h : ∃ k, Stop (f^[k] a)) :
    ∃ k < S.card, Stop (f^[k] a) := by
  classical
  obtain ⟨k, hstop, hfirst⟩ : ∃ k, Stop (f^[k] a) ∧ ∀ i < k, ¬ Stop (f^[i] a) :=
    ⟨Nat.find h, Nat.find_spec h, fun i hi => Nat.find_min h hi⟩
  refine ⟨k, ?_, hstop⟩
  by_contra hle
  have hcard : S.card < (Finset.range (k + 1)).card := by
    rw [Finset.card_range]
    omega
  have hmaps : ∀ i ∈ Finset.range (k + 1), f^[i] a ∈ S := by
    intro i hi
    have hi' := Finset.mem_range.1 hi
    exact hmem i fun j hj => hfirst j (by omega)
  obtain ⟨i, hi, j, hj, hne, heq⟩ := Finset.exists_ne_map_eq_of_card_lt_of_maps_to hcard hmaps
  have hi' := Finset.mem_range.1 hi
  have hj' := Finset.mem_range.1 hj
  obtain hlt | hgt := Nat.lt_or_gt_of_ne hne
  · exact ne_of_first hstop hfirst hlt (by omega) heq
  · exact ne_of_first hstop hfirst hgt (by omega) heq.symm

/-- Where a pass changes nothing the loop stays. -/
theorem iterate_of_fixed {n : Nat} (h : f (f^[n] a) = f^[n] a) (k : Nat) :
    f^[n + k] a = f^[n] a := by
  induction k with
  | zero => rfl
  | succ k ih => rw [← Nat.add_assoc, Function.iterate_succ_apply', ih, h]

/-- Each pass in front of the stop leaves less to do. -/
theorem stops_of_less (left : α → Nat)
    (h : ∀ n, ¬ Stop (f^[n] a) → left (f^[n + 1] a) < left (f^[n] a)) :
    ∃ n, Stop (f^[n] a) := by
  by_contra hnever
  have hgoes : ∀ n, ¬ Stop (f^[n] a) := fun n hn => hnever ⟨n, hn⟩
  have hdown : ∀ n, left (f^[n] a) + n ≤ left a := by
    intro n
    induction n with
    | zero => exact Nat.le_refl _
    | succ n ih =>
        have hless := h n (hgoes n)
        omega
  have := hdown (left a + 1)
  omega

end Iterate
