import Mathlib.Data.List.Basic
import Mathlib.Tactic.Common

/-!
# On and off in turn

The events of something that can be on or off alternate when each on event finds
it off and each off event finds it on. `Turns` follows it through its events, so
it composes; `Alternate` looks at the events alone.
-/

/-- On and off in turn, beginning with on. -/
def Alternate (events : List Bool) : Prop :=
  ∀ i on, events[i]? = some on → on = decide (i % 2 = 0)

namespace Alternate

theorem nil : Alternate [] := fun i on h => by simp at h

theorem concat {events : List Bool} {on : Bool} (h : Alternate events)
    (hnext : on = decide (events.length % 2 = 0)) : Alternate (events ++ [on]) := by
  intro i b hi
  rcases Nat.lt_trichotomy i events.length with hlt | rfl | hgt
  · rw [List.getElem?_append_left hlt] at hi
    exact h i b hi
  · rw [List.getElem?_append_right (Nat.le_refl _), Nat.sub_self] at hi
    exact (Option.some.inj hi).symm.trans hnext
  · rw [List.getElem?_eq_none (by simp; omega)] at hi
    cases hi

/-- The last event is an on event when their number is odd. -/
theorem getLast?_eq {events : List Bool} (h : Alternate events) :
    events.getLast? = some true ↔ events.length % 2 = 1 := by
  rw [List.getLast?_eq_getElem?]
  constructor
  · intro hlast
    have hevent := h _ _ hlast
    have hlt := (List.getElem?_eq_some_iff.1 hlast).1
    simp only [true_eq_decide_iff] at hevent
    omega
  · intro hodd
    have hlt : events.length - 1 < events.length := by omega
    have hevent := h _ _ (List.getElem?_eq_getElem hlt)
    rw [List.getElem?_eq_getElem hlt, hevent]
    simp only [Option.some.injEq, decide_eq_true_eq]
    omega

end Alternate

/-- The events lead from on or off to on or off. -/
inductive Turns : Bool → List Bool → Bool → Prop
  | nil (b : Bool) : Turns b [] b
  | cons {b b' : Bool} {events : List Bool} : Turns (!b) events b' → Turns b ((!b) :: events) b'

namespace Turns

variable {b b' b'' : Bool} {events events' : List Bool}

theorem append (h : Turns b events b') (h' : Turns b' events' b'') :
    Turns b (events ++ events') b'' := by
  induction h with
  | nil _ => exact h'
  | cons _ ih => exact .cons (ih h')

theorem of_eq (h : b = b') : Turns b [] b' := h ▸ .nil b

theorem on : Turns false [true] true := .cons (.nil _)

theorem off : Turns true [false] false := .cons (.nil _)

theorem getElem? (h : Turns b events b') :
    ∀ i on, events[i]? = some on → on = (b == decide (i % 2 = 1)) := by
  induction h with
  | nil _ => exact fun i on hi => by simp at hi
  | @cons b b' events _ ih =>
      intro i on hi
      cases i with
      | zero =>
          obtain rfl := Option.some.inj hi
          cases b <;> rfl
      | succ i =>
          have hon := ih i on hi
          rw [hon]
          rcases Nat.mod_two_eq_zero_or_one i with hmod | hmod
          · have hnext : (i + 1) % 2 = 1 := by omega
            simp [hmod, hnext]
          · have hnext : (i + 1) % 2 = 0 := by omega
            simp [hmod, hnext]

/-- What is off at first alternates. -/
theorem alternate (h : Turns false events b') : Alternate events := by
  intro i on hi
  rw [h.getElem? i on hi]
  rcases Nat.mod_two_eq_zero_or_one i with hmod | hmod <;> simp [hmod]

end Turns
