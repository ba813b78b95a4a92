import Mathlib.Data.List.FinRange
import Mathlib.Data.List.Sort
import Mathlib.Logic.Function.Basic
import Mathlib.Tactic.Common

/-!
# Things that are each in one place

A thing is in a list or in one of finitely many slots. How often it occurs is a
number, and moving it is taking one off here and adding one there, so a
statement about where things are is arithmetic over the counts. Overwriting a
slot drops what was in it: the counts say so, and nothing else does.
-/

namespace Custody

variable {α : Type} [DecidableEq α] {n : Nat}

/-- In how many slots `x` is. -/
def slotCount (f : Fin n → Option α) (x : α) : Nat :=
  (List.finRange n).countP fun c => f c = some x

theorem countP_update {f : Fin n → Option α} {c : Fin n} {v : Option α} {x : α}
    {l : List (Fin n)} (hl : l.Nodup) (hc : c ∈ l) :
    (l.countP fun d => Function.update f c v d = some x) + (if f c = some x then 1 else 0) =
      (l.countP fun d => f d = some x) + (if v = some x then 1 else 0) := by
  induction l with
  | nil => cases hc
  | cons d l ih =>
      rw [List.nodup_cons] at hl
      rw [List.countP_cons, List.countP_cons]
      by_cases hd : d = c
      · subst hd
        have hrest : (l.countP fun e => Function.update f d v e = some x) =
            l.countP fun e => f e = some x := by
          refine List.countP_congr fun e he => ?_
          have hne : e ≠ d := fun h => hl.1 (h ▸ he)
          rw [Function.update_of_ne hne]
        rw [hrest, Function.update_self]
        simp only [decide_eq_true_eq]
        omega
      · have hmem : c ∈ l := (List.mem_cons.1 hc).resolve_left (Ne.symm hd)
        have := ih hl.2 hmem
        rw [Function.update_of_ne hd]
        omega

/-- Putting `v` into slot `c`. -/
theorem slotCount_update (f : Fin n → Option α) (c : Fin n) (v : Option α) (x : α) :
    slotCount (Function.update f c v) x + (if f c = some x then 1 else 0) =
      slotCount f x + (if v = some x then 1 else 0) :=
  countP_update (List.nodup_finRange n) (List.mem_finRange c)

theorem slotCount_pos {f : Fin n → Option α} {x : α} : 0 < slotCount f x ↔ ∃ c, f c = some x := by
  simp [slotCount, List.countP_pos_iff]

theorem slotCount_eq_zero {f : Fin n → Option α} {x : α} :
    slotCount f x = 0 ↔ ∀ c, f c ≠ some x := by
  simp [slotCount, List.countP_eq_zero]

/-- A thing in one slot is in no other. -/
theorem slot_unique {f : Fin n → Option α} {x : α} (h : slotCount f x ≤ 1) {c d : Fin n}
    (hc : f c = some x) (hd : f d = some x) : c = d := by
  by_contra hne
  have hupdate := slotCount_update f c none x
  rw [if_pos hc, if_neg (by simp)] at hupdate
  have hother : 0 < slotCount (Function.update f c none) x :=
    slotCount_pos.2 ⟨d, by rw [Function.update_of_ne (Ne.symm hne)]; exact hd⟩
  omega

theorem count_erase (l : List α) (p x : α) :
    (l.erase p).count x + (if p = x ∧ p ∈ l then 1 else 0) = l.count x := by
  by_cases h : p = x
  · subst h
    rw [List.count_erase_self]
    by_cases hp : p ∈ l
    · simp [hp]
    · simp [hp, List.count_eq_zero_of_not_mem hp]
  · rw [List.count_erase_of_ne (Ne.symm h), if_neg (fun e => h e.1), Nat.add_zero]

theorem count_orderedInsert [LinearOrder α] (l : List α) (p x : α) :
    (l.orderedInsert (· ≤ ·) p).count x = l.count x + (if p = x then 1 else 0) := by
  rw [(List.perm_orderedInsert (· ≤ ·) p l).count_eq, List.count_cons]
  simp

/-- Erasing what a search finds takes exactly that one away. -/
theorem countP_eraseP_of_find {β : Type} {l : List β} {p : β → Bool} {a : β}
    (h : l.find? p = some a) (q : β → Bool) :
    (l.eraseP p).countP q + (if q a then 1 else 0) = l.countP q := by
  obtain ⟨hp, as, bs, rfl, has⟩ := List.find?_eq_some_iff_append.1 h
  have hnot : ∀ b ∈ as, ¬p b = true := fun b hb => by simpa using has b hb
  rw [List.eraseP_append_right _ hnot, List.eraseP_cons_of_pos hp, List.countP_append,
    List.countP_append, List.countP_cons]
  omega

end Custody
