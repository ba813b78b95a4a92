import Mathlib.Tactic.Common

/-!
# Reading a grammar of bits

A reader is a state that has some bits in front of it, and a program over it reads what it
is written for if it takes exactly those bits and returns what they stand for (`Reads`).
Programs that read one after another read the bits one after another, so a reader of a
grammar is put together the way the grammar is.

What a program keeps whatever is in front of it (`Keeps`) is put together alike.
-/

namespace BitGrammar

variable {σ α β : Type}

section

variable (rest : σ → List Bool) (Ok : σ → Prop)

/-- In front of the bits `bs` the program takes these and returns `v`. -/
def Reads (m : StateM σ α) (bs : List Bool) (v : α) : Prop :=
  ∀ s more, Ok s → rest s = bs ++ more →
    (m s).1 = v ∧ Ok (m s).2 ∧ rest (m s).2 = more

end

variable {rest : σ → List Bool} {Ok : σ → Prop} {m : StateM σ α} {f : α → StateM σ β}
variable {bs cs : List Bool} {v : α} {w : β}

theorem reads_pure (v : α) : Reads rest Ok (pure v : StateM σ α) [] v :=
  fun _ _ hok hbits => ⟨rfl, hok, hbits⟩

/-- One program after another. -/
theorem run_bind (m : StateM σ α) (f : α → StateM σ β) (s : σ) :
    (m >>= f) s = f (m s).1 (m s).2 := rfl

theorem Reads.bind (hm : Reads rest Ok m bs v) (hf : Reads rest Ok (f v) cs w) :
    Reads rest Ok (m >>= f) (bs ++ cs) w := by
  intro s more hok hbits
  obtain ⟨hv, hok', hbits'⟩ := hm s (cs ++ more) hok (by rw [hbits, List.append_assoc])
  rw [run_bind, hv]
  exact hf _ more hok' hbits'

/-- A program that takes no bits. -/
theorem Reads.then (hm : Reads rest Ok m bs v) (hf : Reads rest Ok (f v) [] w) :
    Reads rest Ok (m >>= f) bs w := by
  have hboth := hm.bind hf
  rwa [List.append_nil] at hboth

section

variable (Inv : σ → Prop)

/-- What holds in front of the program holds behind it. -/
def Keeps (m : StateM σ α) : Prop := ∀ s, Inv s → Inv (m s).2

end

variable {Inv : σ → Prop}

theorem keeps_pure (v : α) : Keeps Inv (pure v : StateM σ α) := fun _ h => h

theorem Keeps.bind (hm : Keeps Inv m) (hf : ∀ v, Keeps Inv (f v)) : Keeps Inv (m >>= f) :=
  fun s h => hf _ _ (hm s h)

theorem keeps_ite {c : Prop} [Decidable c] {m m' : StateM σ α} (h : c → Keeps Inv m)
    (h' : ¬c → Keeps Inv m') : Keeps Inv (if c then m else m') := by
  split
  · rename_i hc
    exact h hc
  · rename_i hc
    exact h' hc

end BitGrammar
