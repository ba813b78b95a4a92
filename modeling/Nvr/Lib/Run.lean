import Mathlib.Tactic.Common
import Mathlib.Data.List.Induction

/-!
# Runs of a labelled transition system

A system is a relation between a state, what is asked of it and the state
after it. A run is any finite sequence of such steps, oldest first. What every
step preserves holds at the end of every run that starts with it; a condition
that a step has to meet can be kept inside the relation. A run can be had by
execution.
-/

variable {S A : Type} {R : S → A → S → Prop}

/-- `Run R s as t`: the steps `as` lead from `s` to `t`. -/
inductive Run (R : S → A → S → Prop) (s : S) : List A → S → Prop
  | nil : Run R s [] s
  | snoc {as : List A} {t u : S} {a : A} :
      Run R s as t → R t a u → Run R s (as ++ [a]) u

/-- The steps of `R` that meet the condition `P` on the state before them. -/
def Restrict (R : S → A → S → Prop) (P : S → A → Prop) (s : S) (a : A) (t : S) : Prop :=
  R s a t ∧ P s a

namespace Run

theorem single {s t : S} {a : A} (h : R s a t) : Run R s [a] t := .snoc .nil h

theorem append {s t u : S} {as bs : List A} (h : Run R s as t) (h' : Run R t bs u) :
    Run R s (as ++ bs) u := by
  induction h' with
  | nil => simpa using h
  | snoc _ hstep ih =>
      rw [← List.append_assoc]
      exact .snoc ih hstep

/-- A run of one list after another goes through a state between them. -/
theorem of_append {s u : S} {as bs : List A} (h : Run R s (as ++ bs) u) :
    ∃ t, Run R s as t ∧ Run R t bs u := by
  induction bs using List.reverseRecOn generalizing u with
  | nil => exact ⟨u, by simpa using h, .nil⟩
  | append_singleton bs b ih =>
      rw [← List.append_assoc] at h
      generalize hcs : (as ++ bs) ++ [b] = cs at h
      cases h with
      | nil => simp at hcs
      | snoc hrun hstep =>
          obtain ⟨rfl, hb⟩ := List.append_inj' hcs rfl
          obtain rfl := List.singleton_inj.1 hb
          obtain ⟨t, hleft, hright⟩ := ih hrun
          exact ⟨t, hleft, hright.snoc hstep⟩

theorem of_cons {s u : S} {a : A} {as : List A} (h : Run R s (a :: as) u) :
    ∃ t, R s a t ∧ Run R t as u := by
  obtain ⟨t, hleft, hright⟩ := @of_append _ _ _ _ _ [a] _ h
  generalize hcs : [a] = cs at hleft
  cases hleft with
  | nil => simp at hcs
  | snoc hrun hstep =>
      obtain ⟨rfl, hb⟩ := @List.append_inj' _ [] _ _ _ hcs rfl
      obtain rfl := List.singleton_inj.1 hb
      generalize hds : ([] : List A) = ds at hrun
      cases hrun with
      | nil => exact ⟨t, hstep, hright⟩
      | snoc _ _ => simp at hds

/-- What holds at first and is preserved by every step holds at the end. -/
theorem invariant {I : S → Prop} (hstep : ∀ {t a u}, I t → R t a u → I u)
    {s t : S} {as : List A} (h : Run R s as t) (h0 : I s) : I t := by
  induction h with
  | nil => exact h0
  | snoc _ hr ih => exact hstep ih hr

theorem mono {R' : S → A → S → Prop} (hsub : ∀ {t a u}, R t a u → R' t a u)
    {s t : S} {as : List A} (h : Run R s as t) : Run R' s as t := by
  induction h with
  | nil => exact .nil
  | snoc _ hr ih => exact .snoc ih (hsub hr)

/-- What is carried out one step after the other is a run. -/
theorem of_foldlM {exec : S → A → Option S} (hexec : ∀ {s a t}, exec s a = some t → R s a t)
    {as : List A} : ∀ {s t : S}, as.foldlM exec s = some t → Run R s as t := by
  induction as with
  | nil =>
      intro s t h
      obtain rfl := Option.some.inj h
      exact .nil
  | cons a as ih =>
      intro s t h
      rw [List.foldlM_cons] at h
      obtain ⟨u, hstep, hrest⟩ := Option.bind_eq_some_iff.1 h
      exact (single (hexec hstep)).append (ih hrest)

/-- Where a condition on the steps keeps what is good, and a step that does not meet it leads
to what is not, all that a run goes through is good if and only if all its steps meet the
condition. -/
theorem good_iff_meets {exec : S → A → Option S} {I Good : S → Prop} {Ok : S → A → Prop}
    (hgood : ∀ {s}, I s → Good s) (hkeeps : ∀ {s a t}, I s → exec s a = some t → Ok s a → I t)
    (hbad : ∀ {s a t}, I s → exec s a = some t → ¬Ok s a → ¬Good t) {as : List A} :
    ∀ {s t : S}, I s → as.foldlM exec s = some t →
      ((∀ pre u, pre <+: as → pre.foldlM exec s = some u → Good u) ↔
        ∀ pre a u, pre ++ [a] <+: as → pre.foldlM exec s = some u → Ok u a) := by
  induction as with
  | nil =>
      intro s t hs _
      refine ⟨fun _ pre a u hpre => ?_, fun _ pre u hpre hrun => ?_⟩
      · exact absurd (List.prefix_nil.1 hpre) (List.append_ne_nil_of_right_ne_nil _ (by simp))
      · obtain rfl := List.prefix_nil.1 hpre
        obtain rfl := Option.some.inj hrun
        exact hgood hs
  | cons b as ih =>
      intro s t hs h
      rw [List.foldlM_cons] at h
      obtain ⟨s', hstep, hrest⟩ := Option.bind_eq_some_iff.1 h
      have hfold : ∀ pre : List A, (b :: pre).foldlM exec s = pre.foldlM exec s' := by
        intro pre
        rw [List.foldlM_cons, hstep]
        rfl
      constructor
      · intro hall
        have hok : Ok s b := by
          by_contra hnot
          refine hbad hs hstep hnot (hall [b] s' ?_ (hfold []))
          exact List.cons_prefix_cons.2 ⟨rfl, List.nil_prefix⟩
        have hmeets := (ih (hkeeps hs hstep hok) hrest).1 fun pre u hpre hrun =>
          hall (b :: pre) u (List.cons_prefix_cons.2 ⟨rfl, hpre⟩) ((hfold pre).trans hrun)
        intro pre a u hpre hrun
        match pre with
        | [] =>
            obtain rfl := (List.cons_prefix_cons.1 hpre).1
            obtain rfl := Option.some.inj hrun
            exact hok
        | c :: pre =>
            obtain ⟨rfl, htail⟩ := List.cons_prefix_cons.1 hpre
            exact hmeets pre a u htail ((hfold pre).symm.trans hrun)
      · intro hall
        have hok : Ok s b := hall [] b s (List.cons_prefix_cons.2 ⟨rfl, List.nil_prefix⟩) rfl
        have hgoods := (ih (hkeeps hs hstep hok) hrest).2 fun pre a u hpre hrun =>
          hall (b :: pre) a u (List.cons_prefix_cons.2 ⟨rfl, hpre⟩) ((hfold pre).trans hrun)
        intro pre u hpre hrun
        match pre with
        | [] =>
            obtain rfl := Option.some.inj hrun
            exact hgood hs
        | c :: pre =>
            obtain ⟨rfl, htail⟩ := List.cons_prefix_cons.1 hpre
            exact hgoods pre u htail ((hfold pre).symm.trans hrun)

/-- The same where every step can be taken. -/
theorem good_iff_meets_foldl {step : S → A → S} {I Good : S → Prop} {Ok : S → A → Prop}
    (hgood : ∀ {s}, I s → Good s) (hkeeps : ∀ {s a}, I s → Ok s a → I (step s a))
    (hbad : ∀ {s a}, I s → ¬Ok s a → ¬Good (step s a)) {s : S} (hs : I s) (as : List A) :
    (∀ pre, pre <+: as → Good (pre.foldl step s)) ↔
      ∀ pre a, pre ++ [a] <+: as → Ok (pre.foldl step s) a := by
  have hfold : ∀ pre : List A, pre.foldlM (fun s a => some (step s a)) s =
      some (pre.foldl step s) := fun pre => List.foldlM_pure
  have hiff := @good_iff_meets S A (fun s a => some (step s a)) I Good Ok hgood
    (fun h hstep hok => Option.some.inj hstep ▸ hkeeps h hok)
    (fun h hstep hnot => Option.some.inj hstep ▸ hbad h hnot) as s _ hs (hfold as)
  constructor
  · intro hall pre a hpre
    refine hiff.1 (fun pre u hpre hrun => ?_) pre a _ hpre (hfold pre)
    rw [hfold pre] at hrun
    exact Option.some.inj hrun ▸ hall pre hpre
  · intro hall pre hpre
    refine hiff.2 (fun pre a u hpre hrun => ?_) pre _ hpre (hfold pre)
    rw [hfold pre] at hrun
    exact Option.some.inj hrun ▸ hall pre a hpre

/-- Only where the condition is kept to: what all the steps that meet it preserve holds of all
that the run goes through. -/
theorem good_of_meets {exec : S → A → Option S} {I : S → Prop} {Ok : S → A → Prop}
    (hkeeps : ∀ {s a t}, I s → exec s a = some t → Ok s a → I t) {s : S} (hs : I s) {as : List A}
    (hmeets : ∀ pre a u, pre ++ [a] <+: as → pre.foldlM exec s = some u → Ok u a) :
    ∀ pre u, pre <+: as → pre.foldlM exec s = some u → I u := by
  intro pre
  induction pre using List.reverseRecOn with
  | nil =>
      intro u _ hrun
      obtain rfl := Option.some.inj hrun
      exact hs
  | append_singleton pre a ih =>
      intro u hpre hrun
      rw [List.foldlM_append] at hrun
      obtain ⟨v, hfront, hlast⟩ := Option.bind_eq_some_iff.1 hrun
      obtain ⟨w, hstep, hw⟩ := Option.bind_eq_some_iff.1 hlast
      obtain rfl := Option.some.inj hw
      exact hkeeps (ih v ((List.prefix_append _ _).trans hpre) hfront) hstep
        (hmeets pre a v hpre hfront)

end Run
