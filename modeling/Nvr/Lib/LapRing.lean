import Mathlib.Data.List.Induction
import Mathlib.Data.Nat.ModEq
import Mathlib.Logic.Function.Basic
import Mathlib.Tactic.Common

/-!
# Rings with two indices

A ring of `size` slots that is known by the slot to write and the slot to read. It
has no count, so a ring in which all slots are unread looks like one in which
none is.

The items are numbered by the run that puts them in (`History`), and a
history is `InStep` while its reader has not been lapped. Then every item that is not
read yet is in its slot, and nothing has been lost at all.
-/

namespace LapRing

/-- The slots, and the indices of the writer and of the reader. -/
structure Wheel (α : Type) where
  wr : Nat
  rd : Nat
  slots : Nat → α

variable {α : Type} {size : Nat}

def Wheel.put (size : Nat) (r : Wheel α) (a : α) : Wheel α :=
  { r with
    slots := Function.update r.slots r.wr a
    wr := (r.wr + 1) % size }

def Wheel.get (size : Nat) (r : Wheel α) : Option α × Wheel α :=
  if r.rd ≠ r.wr then (some (r.slots r.rd), { r with rd := (r.rd + 1) % size }) else (none, r)

/-- What some gets return one after the other. -/
def Wheel.gets (size : Nat) : Nat → Wheel α → List α
  | 0, _ => []
  | n + 1, r => (r.get size).1.toList ++ Wheel.gets size n (r.get size).2

/-- The writer is one slot behind the reader. -/
def Wheel.Full (size : Nat) (r : Wheel α) : Prop := (r.wr + 1) % size = r.rd

theorem Wheel.get_none {r : Wheel α} (h : r.rd = r.wr) : r.get size = (none, r) :=
  if_neg (not_not.2 h)

/-- Where the indices are equal, nothing comes out any more. -/
theorem Wheel.gets_nil {r : Wheel α} (h : r.rd = r.wr) (n : Nat) : r.gets size n = [] := by
  induction n with
  | zero => rfl
  | succ n ih =>
      rw [Wheel.gets, Wheel.get_none h]
      exact ih

theorem getElem?_concat {β : Type} {xs : List β} {a x : β} {i : Nat} :
    (xs ++ [a])[i]? = some x ↔ xs[i]? = some x ∨ i = xs.length ∧ x = a := by
  obtain hlt | rfl | hgt := Nat.lt_trichotomy i xs.length
  · simp [List.getElem?_append_left hlt, Nat.ne_of_lt hlt]
  · simp [eq_comm]
  · rw [List.getElem?_eq_none (by simp; omega), List.getElem?_eq_none (by omega)]
    simp
    omega

/-! ## Histories -/

inductive Op (α : Type) where
  | put (a : α)
  | get

/-- A ring of numbered items, with all that was put into it and all that came out. -/
structure History (α : Type) where
  ring : Wheel (Nat × α)
  puts : List (Nat × α)
  got : List (Nat × α)

def History.step (size : Nat) (h : History α) : Op α → History α
  | .put a =>
      { h with
        ring := h.ring.put size (h.puts.length, a)
        puts := h.puts ++ [(h.puts.length, a)] }
  | .get =>
      { h with
        ring := (h.ring.get size).2
        got := h.got ++ (h.ring.get size).1.toList }

/-- Both indices at 0, whatever is in the slots. -/
def History.start (slots : Nat → Nat × α) : History α := ⟨⟨0, 0, slots⟩, [], []⟩

def History.run (size : Nat) (slots : Nat → Nat × α) (ops : List (Op α)) : History α :=
  ops.foldl (History.step size) (.start slots)

theorem run_concat (slots : Nat → Nat × α) (ops : List (Op α)) (op : Op α) :
    History.run size slots (ops ++ [op]) = (History.run size slots ops).step size op := by
  rw [History.run, List.foldl_append]
  rfl

/-- The reader has not been lapped. -/
structure InStep (size : Nat) (h : History α) : Prop where
  wr : h.ring.wr = h.puts.length % size
  rd : h.ring.rd = h.got.length % size
  got : h.got <+: h.puts
  lag : h.puts.length < h.got.length + size
  slots : ∀ i (x : Nat × α), h.got.length ≤ i → h.puts[i]? = some x →
    h.ring.slots (i % size) = x
  numbered : ∀ i (x : Nat × α), h.puts[i]? = some x → x.1 = i

variable {h : History α}

theorem inStep_start (hsize : 0 < size) (slots : Nat → Nat × α) :
    InStep size (.start slots) := by
  refine ⟨?_, ?_, List.prefix_refl _, ?_, ?_, ?_⟩
  · exact (Nat.zero_mod size).symm
  · exact (Nat.zero_mod size).symm
  · show 0 < 0 + size
    omega
  · intro i x _ hx
    simp [History.start] at hx
  · intro i x hx
    simp [History.start] at hx

theorem InStep.got_le (hs : InStep size h) : h.got.length ≤ h.puts.length := hs.got.length_le

/-- Two numbers that are less than a lap apart have different slots. -/
theorem mod_ne {i j : Nat} (hlt : i < j) (hlap : j < i + size) : i % size ≠ j % size := by
  intro heq
  have hmod : (j - i) % size = 0 := (Nat.modEq_iff_dvd' hlt.le).1 heq |>.elim fun k hk => by
    rw [hk, Nat.mul_mod_right]
  rw [Nat.mod_eq_of_lt (by omega)] at hmod
  omega

/-- The indices tell whether something is unread. -/
theorem InStep.rd_eq_wr (hs : InStep size h) :
    h.ring.rd = h.ring.wr ↔ h.got.length = h.puts.length := by
  rw [hs.rd, hs.wr]
  constructor
  · intro heq
    by_contra hne
    exact mod_ne (Nat.lt_of_le_of_ne hs.got_le hne) hs.lag heq
  · exact fun heq => by rw [heq]

/-- And whether one more would lap the reader. -/
theorem InStep.full_iff (hs : InStep size h) :
    h.ring.Full size ↔ h.puts.length + 1 = h.got.length + size := by
  have hle := hs.got_le
  have hlag := hs.lag
  rw [Wheel.Full, hs.wr, hs.rd, Nat.mod_add_mod]
  constructor
  · intro heq
    by_contra hne
    exact mod_ne (show h.got.length < h.puts.length + 1 by omega) (by omega) heq.symm
  · intro heq
    rw [heq, Nat.add_mod_right]

theorem InStep.put (hs : InStep size h) (a : α) (hroom : ¬h.ring.Full size) :
    InStep size (h.step size (.put a)) := by
  have hle := hs.got_le
  have hlag := hs.lag
  rw [hs.full_iff] at hroom
  refine ⟨?_, hs.rd, hs.got.trans (List.prefix_append _ _), ?_, ?_, ?_⟩
  · show (h.ring.wr + 1) % size = (h.puts ++ [_]).length % size
    rw [hs.wr, List.length_append, Nat.mod_add_mod]
    rfl
  · show (h.puts ++ [_]).length < h.got.length + size
    rw [List.length_append]
    exact Nat.lt_of_le_of_ne (show h.puts.length + 1 ≤ _ by omega) hroom
  · intro i x hi hx
    show Function.update h.ring.slots h.ring.wr _ (i % size) = x
    obtain hold | ⟨rfl, rfl⟩ := getElem?_concat.1 hx
    · have hlt := (List.getElem?_eq_some_iff.1 hold).1
      have hgot : h.got.length ≤ i := hi
      rw [Function.update_of_ne]
      · exact hs.slots i x hi hold
      · rw [hs.wr]
        exact mod_ne hlt (by omega)
    · rw [hs.wr, Function.update_self]
  · intro i x hx
    obtain hold | ⟨rfl, rfl⟩ := getElem?_concat.1 hx
    · exact hs.numbered i x hold
    · rfl

/-- What a get takes is the first item that is not read yet. -/
theorem InStep.get_some (hs : InStep size h) (hlt : h.got.length < h.puts.length) :
    ∃ x, h.puts[h.got.length]? = some x ∧ h.ring.get size =
      (some x, { h.ring with rd := (h.got.length + 1) % size }) := by
  obtain ⟨x, hx⟩ : ∃ x, h.puts[h.got.length]? = some x := ⟨_, List.getElem?_eq_getElem hlt⟩
  refine ⟨x, hx, ?_⟩
  have hne : h.ring.rd ≠ h.ring.wr := fun heq => by
    have := hs.rd_eq_wr.1 heq
    omega
  rw [Wheel.get, if_pos hne, hs.rd, hs.slots _ x (Nat.le_refl _) hx, Nat.mod_add_mod]

theorem InStep.get (hs : InStep size h) : InStep size (h.step size .get) := by
  obtain hlt | hall := Nat.lt_or_ge h.got.length h.puts.length
  · obtain ⟨x, hx, hget⟩ := hs.get_some hlt
    have hlen : (h.got ++ [x]).length = h.got.length + 1 := List.length_append
    rw [History.step, hget]
    refine ⟨hs.wr, ?_, ?_, ?_, ?_, hs.numbered⟩
    · show (h.got.length + 1) % size = (h.got ++ [x]).length % size
      rw [hlen]
    · show h.got ++ [x] <+: h.puts
      obtain ⟨rest, hrest⟩ := hs.got
      rw [← hrest, List.getElem?_append_right (Nat.le_refl _), Nat.sub_self] at hx
      obtain ⟨rest', rfl⟩ : ∃ rest', rest = x :: rest' := by
        cases rest with
        | nil => exact absurd hx (by simp)
        | cons y ys => exact ⟨ys, by rw [Option.some.inj hx]⟩
      exact ⟨rest', by rw [← hrest, List.append_assoc]; rfl⟩
    · show h.puts.length < (h.got ++ [x]).length + size
      have := hs.lag
      omega
    · intro i y hi hy
      have hi' : (h.got ++ [x]).length ≤ i := hi
      exact hs.slots i y (by omega) hy
  · have heq := hs.rd_eq_wr.2 (Nat.le_antisymm hs.got_le hall)
    rw [History.step, Wheel.get_none heq]
    simp only [Option.toList_none, List.append_nil]
    exact hs

/-- What is not read yet comes out with further gets. -/
theorem InStep.getElem_mem_gets {x : Nat × α} (k : Nat) :
    ∀ {h : History α}, InStep size h → h.puts[h.got.length + k]? = some x →
      x ∈ h.ring.gets size (k + 1) := by
  induction k with
  | zero =>
      intro h hs hx
      obtain ⟨y, hy, hget⟩ := hs.get_some (List.getElem?_eq_some_iff.1 hx).1
      rw [Nat.add_zero, hy] at hx
      rw [Wheel.gets, hget]
      exact List.mem_append_left _ (by simpa using (Option.some.inj hx).symm)
  | succ k ih =>
      intro h hs hx
      have hlt := (List.getElem?_eq_some_iff.1 hx).1
      obtain ⟨y, -, hget⟩ := hs.get_some (show h.got.length < h.puts.length by omega)
      have hlen : (h.step size .get).got.length = h.got.length + 1 := by
        simp [History.step, hget]
      have hnext := ih hs.get (by
        rw [hlen, show h.got.length + 1 + k = h.got.length + (k + 1) by omega]
        exact hx)
      rw [Wheel.gets]
      exact List.mem_append_right _ hnext

theorem InStep.mem_gets (hs : InStep size h) {x : Nat × α} (hx : x ∈ h.puts)
    (hnot : x ∉ h.got) : ∃ n, x ∈ h.ring.gets size n := by
  obtain ⟨i, hi⟩ := List.mem_iff_getElem?.1 hx
  obtain ⟨rest, hrest⟩ := hs.got
  have hge : h.got.length ≤ i := by
    by_contra hlt
    rw [← hrest, List.getElem?_append_left (Nat.lt_of_not_le hlt)] at hi
    exact hnot (List.mem_of_getElem? hi)
  obtain ⟨k, rfl⟩ := Nat.exists_eq_add_of_le hge
  exact ⟨k + 1, InStep.getElem_mem_gets k hs hi⟩

/-! ## What a ring is to keep -/

/-- What has come out are items in the order in which they were put, and each of the last
`size - 1` of them that has not come out yet still does. -/
structure Keeps (size : Nat) (h : History α) : Prop where
  ordered : h.got.Sublist h.puts
  kept : ∀ x ∈ h.puts, h.puts.length < x.1 + size → x ∉ h.got → ∃ n, x ∈ h.ring.gets size n

theorem InStep.keeps (hs : InStep size h) : Keeps size h :=
  ⟨hs.got.sublist, fun _ hx _ hnot => hs.mem_gets hx hnot⟩

/-- A put that laps the reader loses even the item that it puts. -/
theorem InStep.not_keeps_put (hs : InStep size h) (hsize : 1 < size) (a : α)
    (hfull : h.ring.Full size) : ¬Keeps size (h.step size (.put a)) := by
  intro hk
  obtain ⟨n, hn⟩ := hk.kept (h.puts.length, a) (List.mem_append_right _ (List.mem_singleton_self _))
    (by
      show (h.puts ++ [_]).length < h.puts.length + size
      rw [List.length_append]
      exact Nat.add_lt_add_left hsize _)
    (fun hmem => by
      obtain ⟨i, hi⟩ := List.mem_iff_getElem?.1 (hs.got.subset hmem)
      have hnum := hs.numbered i _ hi
      have hlt := (List.getElem?_eq_some_iff.1 hi).1
      have heq : h.puts.length = i := hnum
      omega)
  have hnil : (h.step size (.put a)).ring.gets size n = [] := Wheel.gets_nil hfull.symm n
  rw [hnil] at hn
  exact List.not_mem_nil hn

variable {slots : Nat → Nat × α} {ops : List (Op α)}

/-- As long as no put laps the reader. -/
theorem inStep_run (hsize : 0 < size)
    (hstep : ∀ pre a, pre ++ [.put a] <+: ops → InStep size (History.run size slots pre) →
      ¬(History.run size slots pre).ring.Full size) :
    ∀ pre, pre <+: ops → InStep size (History.run size slots pre) := by
  intro pre
  induction pre using List.reverseRecOn with
  | nil => exact fun _ => inStep_start hsize slots
  | append_singleton pre op ih =>
      intro hpre
      have hs := ih ((List.prefix_append pre [op]).trans hpre)
      rw [run_concat]
      cases op with
      | put a => exact hs.put a (hstep pre a hpre hs)
      | get => exact hs.get

/-- A ring keeps its items in all states of a run just if no put finds it full. -/
theorem keeps_run_iff (hsize : 1 < size) :
    (∀ pre, pre <+: ops → Keeps size (History.run size slots pre)) ↔
      ∀ pre a, pre ++ [.put a] <+: ops → ¬(History.run size slots pre).ring.Full size := by
  constructor
  · intro hkeeps
    have hstep : ∀ pre a, pre ++ [.put a] <+: ops → InStep size (History.run size slots pre) →
        ¬(History.run size slots pre).ring.Full size := by
      intro pre a hpre hs hfull
      have hk := hkeeps _ hpre
      rw [run_concat] at hk
      exact hs.not_keeps_put hsize a hfull hk
    intro pre a hpre
    exact hstep pre a hpre (inStep_run (by omega) hstep pre ((List.prefix_append _ _).trans hpre))
  · intro hroom pre hpre
    exact (inStep_run (by omega) (fun pre a hpre _ => hroom pre a hpre) pre hpre).keeps

end LapRing
