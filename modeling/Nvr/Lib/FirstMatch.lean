import Mathlib.Tactic.Common

/-!
# A table that is searched from its start

The usual loop over a table stops at the first entry that matches, changes it
and returns. Here it is a function on lists, with what it leaves unchanged: the
entries before the match, which do not match, and those after it, whatever they
are.
-/

variable {α : Type}

/-- Change the first entry that matches; `none` when there is none. -/
def onFirst (p : α → Bool) (f : α → α) : List α → Option (List α)
  | [] => none
  | a :: l => if p a then some (f a :: l) else (onFirst p f l).map (a :: ·)

/-- `a` is the first entry of `l` that matches, between `before` and `after`. -/
structure FirstAt (p : α → Bool) (l before : List α) (a : α) (after : List α) : Prop where
  eq : l = before ++ a :: after
  skipped : ∀ b ∈ before, p b = false
  found : p a = true

theorem onFirst_eq_none {p : α → Bool} {f : α → α} {l : List α} :
    onFirst p f l = none ↔ ∀ a ∈ l, p a = false := by
  induction l with
  | nil => simp [onFirst]
  | cons a l ih =>
      unfold onFirst
      by_cases hp : p a = true
      · simp [hp]
      · simp [hp, ih]

/-- What the loop does is done at the first match. -/
theorem FirstAt.of_onFirst {p : α → Bool} {f : α → α} {l l' : List α}
    (h : onFirst p f l = some l') :
    ∃ before a after, FirstAt p l before a after ∧ l' = before ++ f a :: after := by
  induction l generalizing l' with
  | nil => simp [onFirst] at h
  | cons a l ih =>
      unfold onFirst at h
      split at h
      · rename_i hp
        injection h with h
        exact ⟨[], a, l, ⟨rfl, by simp, hp⟩, h.symm⟩
      · rename_i hp
        obtain ⟨m, hm, rfl⟩ := Option.map_eq_some_iff.1 h
        obtain ⟨before, b, after, hat, rfl⟩ := ih hm
        refine ⟨a :: before, b, after, ⟨by rw [hat.eq]; rfl, ?_, hat.found⟩, rfl⟩
        intro c hc
        rcases List.mem_cons.1 hc with rfl | hc
        · simpa using hp
        · exact hat.skipped c hc

namespace FirstAt

variable {p : α → Bool} {l before after : List α} {a : α}

theorem onFirst_eq (h : FirstAt p l before a after) (f : α → α) :
    onFirst p f l = some (before ++ f a :: after) := by
  obtain ⟨rfl, hskip, hfound⟩ := h
  induction before with
  | nil => simp [onFirst, hfound]
  | cons b before ih =>
      have hb : p b = false := hskip b (by simp)
      have hrest := ih fun c hc => hskip c (by simp [hc])
      simp [onFirst, hb, hrest]

theorem find?_eq (h : FirstAt p l before a after) : l.find? p = some a := by
  obtain ⟨rfl, hskip, hfound⟩ := h
  rw [List.find?_append]
  have hnone : before.find? p = none :=
    List.find?_eq_none.2 fun b hb => by simp [hskip b hb]
  simp [hnone, hfound]

theorem of_find? (h : l.find? p = some a) : ∃ before after, FirstAt p l before a after := by
  obtain ⟨hfound, before, after, rfl, hskip⟩ := List.find?_eq_some_iff_append.1 h
  exact ⟨before, after, rfl, fun b hb => by simpa using hskip b hb, hfound⟩

theorem mem (h : FirstAt p l before a after) : a ∈ l := by
  rw [h.eq]
  simp

theorem filter_before (h : FirstAt p l before a after) : before.filter p = [] :=
  List.filter_eq_nil_iff.2 fun b hb => by simp [h.skipped b hb]

/-- The entries that match start with the first one. -/
theorem filter_eq (h : FirstAt p l before a after) : l.filter p = a :: after.filter p := by
  have hbefore := h.filter_before
  rw [h.eq, List.filter_append, hbefore, List.nil_append, List.filter_cons_of_pos h.found]

end FirstAt
