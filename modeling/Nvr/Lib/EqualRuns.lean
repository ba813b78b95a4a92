import Mathlib.Data.List.SplitBy
import Mathlib.Tactic.Common

/-!
# Runs of equal keys

A list is split into its runs: the longest stretches of neighbours that have the same key.
Whoever takes the list element by element needs the run it is in and those it has closed
(`gather`), and looks only at the key of the element before.
-/

namespace EqualRuns

variable {α κ : Type} [DecidableEq κ] (key : α → κ)

/-- The runs of a list, in order. -/
def runs (l : List α) : List (List α) := l.splitBy fun a b => key a = key b

/-- The runs that are closed, and the one that the list ends with. -/
structure Gathered (α : Type) where
  closed : List (List α)
  cur : List α

/-- Whether an element begins a run behind the ones there are. -/
def Gathered.Closes (g : Gathered α) (a : α) : Prop := ∃ b ∈ g.cur.getLast?, key b ≠ key a

instance (g : Gathered α) (a : α) : Decidable (g.Closes key a) :=
  inferInstanceAs (Decidable (∃ b ∈ g.cur.getLast?, key b ≠ key a))

def Gathered.add (g : Gathered α) (a : α) : Gathered α :=
  if g.Closes key a then ⟨g.closed ++ [g.cur], [a]⟩ else ⟨g.closed, g.cur ++ [a]⟩

def gather (l : List α) : Gathered α := l.foldl (Gathered.add key) ⟨[], []⟩

variable {key} {g : Gathered α} {l : List α} {a : α}

theorem add_of_closes (h : g.Closes key a) : g.add key a = ⟨g.closed ++ [g.cur], [a]⟩ := if_pos h

theorem add_of_not_closes (h : ¬g.Closes key a) : g.add key a = ⟨g.closed, g.cur ++ [a]⟩ :=
  if_neg h

theorem gather_concat (l : List α) (a : α) :
    gather key (l ++ [a]) = (gather key l).add key a := by
  rw [gather, List.foldl_append]
  rfl

theorem add_cur_ne_nil : (g.add key a).cur ≠ [] := by
  rw [Gathered.add]
  split
  · exact List.cons_ne_nil _ _
  · exact List.append_ne_nil_of_right_ne_nil _ (List.cons_ne_nil _ _)

theorem add_cur_getLast : (g.add key a).cur.getLast? = some a := by
  rw [Gathered.add]
  split
  · rfl
  · exact List.getLast?_concat

/-- The run at the end is one of equal keys, and it is there if the list is not empty. -/
theorem gather_cur (l : List α) :
    (gather key l).cur.getLast? = l.getLast? ∧
      ∀ b ∈ (gather key l).cur, ∀ c ∈ (gather key l).cur, key b = key c := by
  induction l using List.reverseRecOn with
  | nil => exact ⟨rfl, fun b hb => absurd hb List.not_mem_nil⟩
  | append_singleton l a ih =>
      obtain ⟨hlast, hsame⟩ := ih
      rw [gather_concat]
      refine ⟨by rw [add_cur_getLast, List.getLast?_concat], ?_⟩
      by_cases hcloses : (gather key l).Closes key a
      · rw [add_of_closes hcloses]
        intro b hb c hc
        rw [List.mem_singleton.1 hb, List.mem_singleton.1 hc]
      · rw [add_of_not_closes hcloses]
        have hkey : ∀ b ∈ (gather key l).cur, key b = key a := by
          intro b hb
          have hne := List.ne_nil_of_mem hb
          have hend := List.getLast?_eq_getLast_of_ne_nil hne
          have hlastKey : key ((gather key l).cur.getLast hne) = key a := by
            by_contra hdiff
            exact hcloses ⟨_, hend, hdiff⟩
          rw [hsame b hb _ (List.getLast_mem hne), hlastKey]
        intro b hb c hc
        simp only [List.mem_append, List.mem_singleton] at hb hc
        obtain hb | rfl := hb <;> obtain hc | rfl := hc
        · exact hsame b hb c hc
        · exact hkey b hb
        · exact (hkey c hc).symm
        · rfl

theorem isChain_of_same {m : List α} (h : ∀ b ∈ m, ∀ c ∈ m, key b = key c) :
    m.IsChain fun x y => decide (key x = key y) = true := by
  induction m with
  | nil => exact List.isChain_nil
  | cons b m ih =>
      cases m with
      | nil => exact List.isChain_singleton b
      | cons c m =>
          refine List.IsChain.cons_cons ?_ (ih fun x hx y hy => ?_)
          · exact decide_eq_true (h b (by simp) c (by simp))
          · exact h x (List.mem_cons_of_mem b hx) y (List.mem_cons_of_mem b hy)

/-- The gathered runs are the runs of the list. -/
theorem runs_eq_gather (h : l ≠ []) :
    runs key l = (gather key l).closed ++ [(gather key l).cur] := by
  induction l using List.reverseRecOn with
  | nil => exact absurd rfl h
  | append_singleton l a ih =>
      rw [gather_concat]
      obtain ⟨hlast, hsame⟩ := @gather_cur _ _ _ key l
      by_cases hcloses : (gather key l).Closes key a
      · obtain ⟨b, hb, hdiff⟩ := hcloses
        have hne : l ≠ [] := by
          rintro rfl
          cases hb
        rw [add_of_closes ⟨b, hb, hdiff⟩]
        show runs key (l ++ [a]) = (gather key l).closed ++ [(gather key l).cur] ++ [[a]]
        rw [← ih hne]
        refine List.splitBy_append_cons [] fun x hx => ?_
        rw [hlast] at hb
        obtain rfl : b = x := Option.some.inj (hb.symm.trans hx)
        exact decide_eq_false hdiff
      · rw [add_of_not_closes hcloses]
        obtain rfl | hne := eq_or_ne l []
        · rfl
        have hall := @gather_cur _ _ _ key (l ++ [a])
        rw [gather_concat, add_of_not_closes hcloses] at hall
        obtain ⟨hflat, hnil, hchains, hbetween⟩ := List.splitBy_eq_iff.1 (ih hne)
        refine List.splitBy_eq_iff.2 ⟨?_, ?_, ?_, ?_⟩
        · simp only [List.flatten_append, List.flatten_singleton] at hflat ⊢
          rw [← List.append_assoc, ← hflat]
        · simp only [List.mem_append, List.mem_singleton, not_or] at hnil ⊢
          exact ⟨hnil.1, (List.append_ne_nil_of_right_ne_nil _ (List.cons_ne_nil _ _)).symm⟩
        · intro m hm
          simp only [List.mem_append, List.mem_singleton] at hm
          obtain hm | rfl := hm
          · exact hchains m (List.mem_append_left _ hm)
          · exact isChain_of_same hall.2
        · rw [List.isChain_append] at hbetween ⊢
          refine ⟨hbetween.1, List.isChain_singleton _, fun x hx y hy => ?_⟩
          obtain ⟨hx', hy', hdiff⟩ := hbetween.2.2 x hx (gather key l).cur rfl
          obtain rfl : (gather key l).cur ++ [a] = y := Option.some.inj hy
          refine ⟨hx', List.append_ne_nil_of_right_ne_nil _ (List.cons_ne_nil _ _), ?_⟩
          rw [List.head_append_of_ne_nil hy']
          exact hdiff

/-- All runs but the last are closed. -/
theorem dropLast_runs (l : List α) : (runs key l).dropLast = (gather key l).closed := by
  obtain rfl | hne := eq_or_ne l []
  · rfl
  · rw [runs_eq_gather hne, List.dropLast_concat]

end EqualRuns
