import Mathlib.Tactic.Common

/-!
# Tokens in mailboxes

Threads with a mailbox each, first in, first out. Some messages are tokens: they stand for a
request that is under way, and belong to someone. What a thread does is to take the
oldest message of its own mailbox and to send others. The place of the only token of its
owner is the mailbox it is in and how many messages are in front of it. Sending changes
neither, taking the token leaves its owner without one, and taking another message from
that mailbox brings the token one forward.
-/

namespace Mailbox

variable {K C T : Type} {mail mail' : K → List (Option (C × T))} {c : C} {k j : K}
  {t u : T} {i : ℕ}

/-- None of the messages is a token of `c`. -/
def Free (c : C) (l : List (Option (C × T))) : Prop := ∀ t, some (c, t) ∉ l

theorem Free.nil (c : C) : Free c ([] : List (Option (C × T))) := fun _ h => by cases h

theorem free_cons {x : Option (C × T)} {l : List (Option (C × T))} :
    Free c (x :: l) ↔ (∀ t, x ≠ some (c, t)) ∧ Free c l := by
  simp only [Free, List.mem_cons, not_or, forall_and]
  exact and_congr_left' (forall_congr' fun _ => ne_comm)

theorem free_append {l l' : List (Option (C × T))} :
    Free c (l ++ l') ↔ Free c l ∧ Free c l' := by
  simp only [Free, List.mem_append, not_or, forall_and]

/-- No mailbox has a token of `c`. -/
def NoToken (mail : K → List (Option (C × T))) (c : C) : Prop := ∀ k, Free c (mail k)

/-- The only token of `c` is `t`, in the mailbox of `k`, behind `i` messages. -/
def TokenAt (mail : K → List (Option (C × T))) (c : C) (k : K) (t : T) (i : ℕ) : Prop :=
  (∃ front back, mail k = front ++ some (c, t) :: back ∧ front.length = i ∧ Free c front ∧
    Free c back) ∧ ∀ j, j ≠ k → Free c (mail j)

/-- The oldest message of `k` is taken. -/
def Takes (mail mail' : K → List (Option (C × T))) (k : K) (x : Option (C × T)) : Prop :=
  mail k = x :: mail' k ∧ ∀ j, j ≠ k → mail' j = mail j

/-- Messages are sent. -/
def Sends (mail mail' : K → List (Option (C × T))) (out : K → List (Option (C × T))) : Prop :=
  ∀ k, mail' k = mail k ++ out k

theorem NoToken.takes {x : Option (C × T)} (h : NoToken mail c) (htakes : Takes mail mail' k x) :
    NoToken mail' c := by
  intro j
  by_cases hj : j = k
  · subst hj
    have := h j
    rw [htakes.1, free_cons] at this
    exact this.2
  · rw [htakes.2 j hj]
    exact h j

theorem NoToken.sends {out : K → List (Option (C × T))} (h : NoToken mail c)
    (hsends : Sends mail mail' out) (hout : ∀ k, Free c (out k)) : NoToken mail' c := by
  intro j
  rw [hsends j, free_append]
  exact ⟨h j, hout j⟩

theorem TokenAt.sends {out : K → List (Option (C × T))} (h : TokenAt mail c k t i)
    (hsends : Sends mail mail' out) (hout : ∀ k, Free c (out k)) : TokenAt mail' c k t i := by
  obtain ⟨⟨front, back, hmail, hlen, hfront, hback⟩, hothers⟩ := h
  refine ⟨⟨front, back ++ out k, ?_, hlen, hfront, free_append.2 ⟨hback, hout k⟩⟩, fun j hj => ?_⟩
  · rw [hsends k, hmail, List.append_assoc, List.cons_append]
  · rw [hsends j, free_append]
    exact ⟨hothers j hj, hout j⟩

theorem TokenAt.takes_other {x : Option (C × T)} (h : TokenAt mail c k t i)
    (htakes : Takes mail mail' j x) (hj : j ≠ k) : TokenAt mail' c k t i := by
  obtain ⟨⟨front, back, hmail, hlen, hfront, hback⟩, hothers⟩ := h
  refine ⟨⟨front, back, ?_, hlen, hfront, hback⟩, fun l hl => ?_⟩
  · rw [htakes.2 k (Ne.symm hj), hmail]
  · by_cases hlj : l = j
    · subst hlj
      have := hothers l hl
      rw [htakes.1, free_cons] at this
      exact this.2
    · rw [htakes.2 l hlj]
      exact hothers l hl

/-- The token itself is taken, or it comes one forward. -/
theorem TokenAt.takes {x : Option (C × T)} (h : TokenAt mail c k t i)
    (htakes : Takes mail mail' k x) :
    (x = some (c, t) ∧ NoToken mail' c) ∨
      ((∀ u, x ≠ some (c, u)) ∧ ∃ i', i' < i ∧ TokenAt mail' c k t i') := by
  obtain ⟨⟨front, back, hmail, hlen, hfront, hback⟩, hothers⟩ := h
  have hothers' : ∀ j, j ≠ k → Free c (mail' j) := fun j hj => htakes.2 j hj ▸ hothers j hj
  rw [htakes.1] at hmail
  cases front with
  | nil =>
      obtain ⟨rfl, hrest⟩ := List.cons.inj hmail
      refine .inl ⟨rfl, fun j => ?_⟩
      by_cases hj : j = k
      · subst hj
        exact hrest ▸ hback
      · exact hothers' j hj
  | cons y front =>
      obtain ⟨rfl, hrest⟩ := List.cons.inj hmail
      rw [free_cons] at hfront
      refine .inr ⟨hfront.1, front.length, ?_, ⟨front, back, hrest, rfl, hfront.2, hback⟩, hothers'⟩
      rw [← hlen]
      exact Nat.lt_succ_self _

/-- A thread that takes a token of `c` is the one that has it. -/
theorem TokenAt.holder {x : Option (C × T)} (h : TokenAt mail c k t i)
    (htakes : Takes mail mail' j x) (hx : x = some (c, u)) : j = k := by
  by_contra hj
  have := h.2 j hj
  rw [htakes.1, free_cons] at this
  exact this.1 u hx

/-- No mailbox has another token of `c`. -/
theorem TokenAt.unique (h : TokenAt mail c k t i) (hu : some (c, u) ∈ mail j) : u = t := by
  by_cases hj : j = k
  · subst hj
    obtain ⟨⟨front, back, hmail, -, hfront, hback⟩, -⟩ := h
    rw [hmail, List.mem_append, List.mem_cons] at hu
    rcases hu with hu | hu | hu
    · exact absurd hu (hfront u)
    · exact (Prod.mk.inj (Option.some.inj hu)).2
    · exact absurd hu (hback u)
  · exact absurd hu (h.2 j hj u)

/-- The holder of a token has a message. -/
theorem TokenAt.nonempty (h : TokenAt mail c k t i) : mail k ≠ [] := by
  obtain ⟨⟨front, back, hmail, -⟩, -⟩ := h
  rw [hmail]
  simp

/-! ## One message -/

/-- One message, to `k`. -/
def single [DecidableEq K] (k : K) (x : Option (C × T)) (j : K) : List (Option (C × T)) :=
  if j = k then [x] else []

theorem free_single [DecidableEq K] {x : Option (C × T)} (hx : ∀ t, x ≠ some (c, t)) (k j : K) :
    Free c (single k x j) := by
  rw [single]
  split
  · exact free_cons.2 ⟨hx, Free.nil c⟩
  · exact Free.nil c

/-- The only token that is sent is the only one there is. -/
theorem NoToken.sends_token [DecidableEq K] (h : NoToken mail c)
    (hsends : Sends mail mail' (single k (some (c, t)))) :
    TokenAt mail' c k t (mail k).length := by
  refine ⟨⟨mail k, [], ?_, rfl, h k, Free.nil c⟩, fun j hj => ?_⟩
  · rw [hsends k, single, if_pos rfl]
  · rw [hsends j, single, if_neg hj, List.append_nil]
    exact h j

/-! ## Whom a step does not concern -/

/-- The token of `c`, if there is one, stays where it is or comes forward. -/
def Keeps (c : C) (mail mail' : K → List (Option (C × T))) : Prop :=
  (NoToken mail c → NoToken mail' c) ∧
    ∀ k t i, TokenAt mail c k t i → ∃ i', i' ≤ i ∧ TokenAt mail' c k t i'

theorem Keeps.refl (c : C) (mail : K → List (Option (C × T))) : Keeps c mail mail :=
  ⟨id, fun _ _ i h => ⟨i, Nat.le_refl i, h⟩⟩

theorem Keeps.of_eq (h : mail' = mail) : Keeps c mail mail' := h ▸ Keeps.refl c _

theorem Keeps.trans {mail'' : K → List (Option (C × T))} (h : Keeps c mail mail')
    (h' : Keeps c mail' mail'') : Keeps c mail mail'' := by
  refine ⟨fun hnone => h'.1 (h.1 hnone), fun k t i hat => ?_⟩
  obtain ⟨i', hle, hat'⟩ := h.2 k t i hat
  obtain ⟨i'', hle', hat''⟩ := h'.2 k t i' hat'
  exact ⟨i'', Nat.le_trans hle' hle, hat''⟩

theorem Keeps.sends {out : K → List (Option (C × T))} (hsends : Sends mail mail' out)
    (hout : ∀ k, Free c (out k)) : Keeps c mail mail' :=
  ⟨fun h => h.sends hsends hout, fun _ _ i h => ⟨i, Nat.le_refl i, h.sends hsends hout⟩⟩

theorem Keeps.takes {x : Option (C × T)} (htakes : Takes mail mail' j x)
    (hx : ∀ t, x ≠ some (c, t)) : Keeps c mail mail' := by
  refine ⟨fun h => h.takes htakes, fun k t i h => ?_⟩
  by_cases hj : j = k
  · subst hj
    rcases h.takes htakes with ⟨heq, -⟩ | ⟨-, i', hlt, h'⟩
    · exact absurd heq (hx t)
    · exact ⟨i', Nat.le_of_lt hlt, h'⟩
  · exact ⟨i, Nat.le_refl i, h.takes_other htakes hj⟩

/-- A token is taken that is another's. -/
theorem Keeps.takes_other {d : C} (htakes : Takes mail mail' j (some (d, u))) (hc : c ≠ d) :
    Keeps c mail mail' :=
  Keeps.takes htakes fun _ heq => hc (Prod.mk.inj (Option.some.inj heq)).1.symm

/-- A token is sent that is another's. -/
theorem Keeps.sends_other [DecidableEq K] {d : C}
    (hsends : Sends mail mail' (single k (some (d, t)))) (hc : c ≠ d) : Keeps c mail mail' :=
  Keeps.sends hsends fun j =>
    free_single (fun _ heq => hc (Prod.mk.inj (Option.some.inj heq)).1.symm) k j

end Mailbox
