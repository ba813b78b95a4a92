import Mathlib.Algebra.Group.Int.Defs
import Mathlib.Algebra.Group.Nat.Defs
import Mathlib.Data.List.Basic
import Mathlib.Tactic.Common

/-!
# Files as bytes under positioned reads and writes

A file is the function from positions to bytes: enough for a program that
only ever seeks and then reads or writes a whole record. The file is as long
as anybody asks; a caller that cares about the end of the file checks the
position before it reads.

Two facts carry every proof over such files. A read of exactly the range that
was last written returns what was written, and a write leaves every range it
does not overlap alone. `Holds` says that a range currently holds given
bytes; it splits along concatenation, so a record made of parts can be looked
at part by part.
-/

/-- The contents of a file, position by position. -/
abbrev ByteFile := Nat → UInt8

namespace ByteFile

/-- `len` bytes from `off` on. -/
def read (f : ByteFile) : Nat → Nat → List UInt8
  | _, 0 => []
  | off, len + 1 => f off :: read f (off + 1) len

/-- The file after `data` has been written at `off`. -/
def write (f : ByteFile) (off : Nat) (data : List UInt8) : ByteFile := fun p =>
  if off ≤ p ∧ p < off + data.length then data.getD (p - off) 0 else f p

/-- The range that starts at `off` holds exactly `data`. -/
def Holds (f : ByteFile) (off : Nat) (data : List UInt8) : Prop :=
  f.read off data.length = data

/-- Two ranges, each given by its start and its length, have no position in
common. -/
def Apart (off len off' len' : Nat) : Prop :=
  off + len ≤ off' ∨ off' + len' ≤ off

theorem Apart.symm {off len off' len' : Nat} (h : Apart off len off' len') :
    Apart off' len' off len := Or.symm h

theorem Apart.mono {off len off' len' lo n lo' n' : Nat}
    (h : Apart off len off' len') (h1 : off ≤ lo) (h2 : lo + n ≤ off + len)
    (h3 : off' ≤ lo') (h4 : lo' + n' ≤ off' + len') : Apart lo n lo' n' := by
  unfold Apart at h ⊢
  omega

@[simp] theorem length_read (f : ByteFile) (off len : Nat) :
    (f.read off len).length = len := by
  induction len generalizing off with
  | zero => rfl
  | succ n ih => simp [read, ih]

theorem getElem_read (f : ByteFile) {off len i : Nat} (h : i < (f.read off len).length) :
    (f.read off len)[i] = f (off + i) := by
  induction len generalizing off i with
  | zero => simp [read] at h
  | succ n ih =>
      cases i with
      | zero => rfl
      | succ j =>
          have hj : j < (f.read (off + 1) n).length := by
            simpa [read] using h
          have := ih hj
          simpa [read, Nat.add_assoc, Nat.add_comm 1 j] using this

theorem read_append (f : ByteFile) (off m n : Nat) :
    f.read off (m + n) = f.read off m ++ f.read (off + m) n := by
  induction m generalizing off with
  | zero => simp [read]
  | succ k ih =>
      rw [show k + 1 + n = (k + n) + 1 by omega]
      simp only [read, List.cons_append]
      rw [ih (off + 1), show off + 1 + k = off + (k + 1) by omega]

theorem read_congr {f g : ByteFile} {off len : Nat}
    (h : ∀ p, off ≤ p → p < off + len → f p = g p) :
    f.read off len = g.read off len := by
  induction len generalizing off with
  | zero => rfl
  | succ n ih =>
      simp only [read]
      rw [h off (Nat.le_refl _) (by omega),
        ih fun p h1 h2 => h p (by omega) (by omega)]

/-- A write leaves every position outside its range alone. -/
theorem write_apply_of_not {f : ByteFile} {off p : Nat} {data : List UInt8}
    (h : ¬(off ≤ p ∧ p < off + data.length)) : f.write off data p = f p := if_neg h

theorem read_write_apart {f : ByteFile} {off len off' : Nat} {data : List UInt8}
    (h : Apart off len off' data.length) :
    (f.write off' data).read off len = f.read off len := by
  refine read_congr fun p h1 h2 => write_apply_of_not ?_
  unfold Apart at h
  omega

theorem holds_iff {f : ByteFile} {off : Nat} {data : List UInt8} :
    Holds f off data ↔ ∀ i (h : i < data.length), f (off + i) = data[i] := by
  constructor
  · intro hh i hi
    have hlen : i < (f.read off data.length).length := by simpa using hi
    rw [← getElem_read f hlen]
    exact List.getElem_of_eq hh hlen
  · intro hh
    refine List.ext_getElem (by simp) fun i h1 h2 => ?_
    rw [getElem_read, hh i h2]

theorem holds_write (f : ByteFile) (off : Nat) (data : List UInt8) :
    Holds (f.write off data) off data := by
  rw [holds_iff]
  intro i hi
  have hin : off ≤ off + i ∧ off + i < off + data.length := by omega
  rw [write, if_pos hin, Nat.add_sub_cancel_left]
  simp [hi]

theorem Holds.write_apart {f : ByteFile} {off off' : Nat} {data data' : List UInt8}
    (h : Holds f off data) (ha : Apart off data.length off' data'.length) :
    Holds (f.write off' data') off data := by
  unfold Holds at h ⊢
  rw [read_write_apart ha, h]

@[simp] theorem holds_nil (f : ByteFile) (off : Nat) : Holds f off [] := rfl

theorem holds_append {f : ByteFile} {off : Nat} {a b : List UInt8} :
    Holds f off (a ++ b) ↔ Holds f off a ∧ Holds f (off + a.length) b := by
  unfold Holds
  rw [List.length_append, read_append]
  constructor
  · intro h
    exact List.append_inj h (by simp)
  · rintro ⟨h1, h2⟩
    rw [h1, h2]

/-- Reading a range that holds known bytes. -/
theorem Holds.read_eq {f : ByteFile} {off len : Nat} {data : List UInt8}
    (h : Holds f off data) (hlen : len = data.length) : f.read off len = data := by
  rw [hlen, h]

/-- Two writes end to end are one write. -/
theorem write_write_append (f : ByteFile) (off : Nat) (a b : List UInt8) :
    (f.write off a).write (off + a.length) b = f.write off (a ++ b) := by
  funext p
  unfold write
  rw [List.length_append]
  by_cases hb : off + a.length ≤ p ∧ p < off + a.length + b.length
  · rw [if_pos hb, if_pos (by omega), List.getD_eq_getElem?_getD, List.getD_eq_getElem?_getD,
      List.getElem?_append_right (by omega), Nat.sub_sub]
  · rw [if_neg hb]
    by_cases ha : off ≤ p ∧ p < off + a.length
    · rw [if_pos ha, if_pos (by omega), List.getD_eq_getElem?_getD, List.getD_eq_getElem?_getD,
        List.getElem?_append_left (by omega)]
    · rw [if_neg ha, if_neg (by omega)]

end ByteFile
