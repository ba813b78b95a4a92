import Mathlib.Order.WellFounded
import Mathlib.Tactic.Common

/-!
# What fair runs come to

An infinite run of a system of threads: at each moment one step is taken, or
nothing happens. A run is weakly fair to a thread if the thread takes a step
sooner or later whenever it can do so from some moment on. Where one thread at
a time holds what is waited for, can always take a step, lowers a rank with it
and is the only one to do so, and no step of another raises the rank, the goal
is reached in every run that is fair to the holders.
-/

namespace Fairness

variable {S A T : Type} {step : S → A → Option S} {thread : A → Option T}

/-- At each moment a step, or nothing. -/
structure IsRun (step : S → A → Option S) (σ : ℕ → S) (ops : ℕ → Option A) : Prop where
  stutters : ∀ n, ops n = none → σ (n + 1) = σ n
  steps : ∀ n a, ops n = some a → step (σ n) a = some (σ (n + 1))

/-- Thread `k` can take a step. -/
def Enabled (step : S → A → Option S) (thread : A → Option T) (k : T) (s : S) : Prop :=
  ∃ a t, thread a = some k ∧ step s a = some t

/-- If `k` can take a step from some moment on, it takes one. -/
def WeaklyFair (step : S → A → Option S) (thread : A → Option T) (k : T) (σ : ℕ → S)
    (ops : ℕ → Option A) : Prop :=
  ∀ n, (∀ m, n ≤ m → Enabled step thread k (σ m)) → ∃ m a, n ≤ m ∧ ops m = some a ∧ thread a = some k

/-- What every step preserves holds throughout. -/
theorem IsRun.invariant {σ : ℕ → S} {ops : ℕ → Option A} {I : S → Prop} (hrun : IsRun step σ ops)
    (hstep : ∀ {s a t}, I s → step s a = some t → I t) (h0 : I (σ 0)) : ∀ n, I (σ n) := by
  intro n
  induction n with
  | zero => exact h0
  | succ n ih =>
      cases hop : ops n with
      | none => exact (hrun.stutters n hop).symm ▸ ih
      | some a => exact hstep ih (hrun.steps n a hop)

/-- `Waits s k r`: in state `s` thread `k` holds what is waited for, at rank `r`. -/
structure Ranking {R : Type} (lt : R → R → Prop) (step : S → A → Option S)
    (thread : A → Option T) (I : S → Prop) (Waits : S → T → R → Prop) (Goal : S → Prop) : Prop where
  wf : WellFounded lt
  enabled : ∀ {s k r}, I s → Waits s k r → Enabled step thread k s
  moves : ∀ {s k r a t}, I s → Waits s k r → step s a = some t →
    Goal t ∨ (∃ k' r', Waits t k' r' ∧ lt r' r) ∨ (Waits t k r ∧ thread a ≠ some k)

theorem Ranking.reaches {R : Type} {lt : R → R → Prop} {I : S → Prop} {Waits : S → T → R → Prop}
    {Goal : S → Prop} (h : Ranking lt step thread I Waits Goal) {σ : ℕ → S} {ops : ℕ → Option A}
    (hrun : IsRun step σ ops) (hfair : ∀ k, WeaklyFair step thread k σ ops) (hinv : ∀ n, I (σ n))
    {r : R} : ∀ {n : ℕ} {k : T}, Waits (σ n) k r → ∃ m, n ≤ m ∧ Goal (σ m) := by
  induction r using h.wf.induction with
  | _ r ih =>
      intro n k hwaits
      by_contra hnever
      -- nothing lowers the rank, so `k` waits for ever and takes no step
      have hstays : ∀ d, Waits (σ (n + d)) k r ∧
          (∀ e, e < d → ∀ a, ops (n + e) = some a → thread a ≠ some k) := by
        intro d
        induction d with
        | zero => exact ⟨hwaits, fun e he => absurd he (Nat.not_lt_zero e)⟩
        | succ d ihd =>
            obtain ⟨hnow, hbefore⟩ := ihd
            cases hop : ops (n + d) with
            | none =>
                refine ⟨(hrun.stutters _ hop).symm ▸ hnow, fun e he a ha => ?_⟩
                rcases Nat.lt_succ_iff_lt_or_eq.1 he with he | rfl
                · exact hbefore e he a ha
                · rw [hop] at ha
                  cases ha
            | some b =>
                rcases h.moves (hinv _) hnow (hrun.steps _ b hop) with
                  hgoal | ⟨k', r', hnext, hlt⟩ | ⟨hnext, hother⟩
                · exact absurd ⟨n + d + 1, by omega, hgoal⟩ hnever
                · obtain ⟨m, hm, hgoal⟩ := ih r' hlt hnext
                  exact absurd ⟨m, by omega, hgoal⟩ hnever
                · refine ⟨hnext, fun e he a ha => ?_⟩
                  rcases Nat.lt_succ_iff_lt_or_eq.1 he with he | rfl
                  · exact hbefore e he a ha
                  · rw [hop] at ha
                    obtain rfl := Option.some.inj ha
                    exact hother
      have hcan : ∀ m, n ≤ m → Enabled step thread k (σ m) := by
        intro m hm
        obtain ⟨d, rfl⟩ := Nat.exists_eq_add_of_le hm
        exact h.enabled (hinv _) (hstays d).1
      obtain ⟨m, a, hm, ha, hk⟩ := hfair k n hcan
      obtain ⟨d, rfl⟩ := Nat.exists_eq_add_of_le hm
      exact (hstays (d + 1)).2 d (Nat.lt_succ_self d) a ha hk

/-! ## Runs that are given -/

/-- The run from `s` in which `ops` happen one after the other. -/
def follow (step : S → A → Option S) (ops : ℕ → Option A) (s : S) : ℕ → S
  | 0 => s
  | n + 1 =>
      match ops n with
      | none => follow step ops s n
      | some a => (step (follow step ops s n) a).getD (follow step ops s n)

theorem isRun_follow {ops : ℕ → Option A} {s : S}
    (h : ∀ n a, ops n = some a → (step (follow step ops s n) a).isSome) :
    IsRun step (follow step ops s) ops where
  stutters n hop := by simp [follow, hop]
  steps n a hop := by
    obtain ⟨t, ht⟩ := Option.isSome_iff_exists.1 (h n a hop)
    simp [follow, hop, ht]

/-- A step that changes nothing is taken for ever. -/
theorem follow_stays {ops : ℕ → Option A} {s : S} {n : ℕ} {a : A}
    (hops : ∀ m, n ≤ m → ops m = some a)
    (hstep : step (follow step ops s n) a = some (follow step ops s n)) :
    ∀ m, n ≤ m → follow step ops s m = follow step ops s n := by
  intro m hm
  induction m, hm using Nat.le_induction with
  | base => rfl
  | succ m hm ih =>
      rw [follow, hops m hm, ih]
      simp [hstep]

/-- Where one thread takes a step again and again and no other can, all is fair. -/
theorem weaklyFair_of_stays {σ : ℕ → S} {ops : ℕ → Option A} {n : ℕ} {a : A} {k k' : T}
    (hops : ∀ m, n ≤ m → ops m = some a) (ha : thread a = some k)
    (hothers : k' ≠ k → ¬Enabled step thread k' (σ n)) (hstays : ∀ m, n ≤ m → σ m = σ n) :
    WeaklyFair step thread k' σ ops := by
  classical
  intro i hcan
  by_cases hk : k' = k
  · exact ⟨max i n, a, Nat.le_max_left i n, hops _ (Nat.le_max_right i n), hk ▸ ha⟩
  · exact absurd (hstays _ (Nat.le_max_right i n) ▸ hcan _ (Nat.le_max_left i n)) (hothers hk)

end Fairness
