import Mathlib

/-!
# The last key that is not after another

A search in a sorted list for the place of a key that need not be in it ends at
the largest key that is not after it. To see that a place is that one it is
enough to look at it and at the next.
-/

variable {α : Type} [LinearOrder α]

/-- `k` is in place `j` of `ks`, and no key that is not after `t` is larger. -/
structure FloorAt (ks : List α) (t : α) (j : Nat) (k : α) : Prop where
  get : ks[j]? = some k
  le : k ≤ t
  largest : ∀ k' ∈ ks, k' ≤ t → k' ≤ k

/-- Keys in order are in the order of their places. -/
theorem le_of_places {ks : List α} (hs : ks.Pairwise (· ≤ ·)) {i j : Nat} {k k' : α}
    (hi : ks[i]? = some k) (hj : ks[j]? = some k') (hij : i ≤ j) : k ≤ k' := by
  obtain ⟨hilt, rfl⟩ := List.getElem?_eq_some_iff.1 hi
  obtain ⟨hjlt, rfl⟩ := List.getElem?_eq_some_iff.1 hj
  rcases Nat.eq_or_lt_of_le hij with rfl | hlt
  · exact le_refl _
  · exact List.pairwise_iff_getElem.1 hs i j hilt hjlt hlt

namespace FloorAt

variable {ks : List α} {t : α} {j : Nat} {k : α}

/-- The key itself is its floor. -/
theorem of_eq (h : ks[j]? = some t) : FloorAt ks t j t := ⟨h, le_refl t, fun _ _ hle => hle⟩

theorem of_next (hs : ks.Pairwise (· ≤ ·)) (h : ks[j]? = some k) (hle : k ≤ t)
    (hnext : ∀ k' ∈ ks[j + 1]?, t < k') : FloorAt ks t j k := by
  refine ⟨h, hle, fun k' hmem hle' => ?_⟩
  obtain ⟨i, hi⟩ := List.mem_iff_getElem?.1 hmem
  by_cases hij : i ≤ j
  · exact le_of_places hs hi h hij
  · have hilt := (List.getElem?_eq_some_iff.1 hi).1
    have hsome : ks[j + 1]? = some ks[j + 1] := List.getElem?_eq_getElem (by omega)
    have hlater := le_of_places hs hsome hi (by omega)
    exact absurd hle' (not_le_of_gt (lt_of_lt_of_le (hnext _ hsome) hlater))

/-- The floor of a key is that of a larger one, if there is none between. -/
theorem mono {t' : α} (h : FloorAt ks t j k) (hle : t ≤ t') (hnone : ∀ k' ∈ ks, k' ≤ t' → k' ≤ t) :
    FloorAt ks t' j k :=
  ⟨h.get, le_trans h.le hle, fun k' hmem hle' => h.largest k' hmem (hnone k' hmem hle')⟩

end FloorAt
