import Mathlib.Data.Nat.ModEq
import Nvr.Lib.ByteFile

/-!
# Bytes in a ring

A ring of `size` bytes is a file whose places are taken modulo `size`. A piece
of the ring is named by the place where it starts and the distances behind it,
so what lies apart is seen from the distances alone: two distances below `size`
are the same place only when they are equal.

`Put` says what writing data into a ring comes to, however the writer splits it
at the end of the ring; puts end to end are one put.
-/

namespace RingBuffer

/-- The place at a distance behind another. -/
def behind (size w a : Nat) : Nat := (w + a) % size

variable {size w a b : Nat}

theorem behind_lt (hsize : 0 < size) (w a : Nat) : behind size w a < size := Nat.mod_lt _ hsize

theorem behind_zero (hw : w < size) : behind size w 0 = w := Nat.mod_eq_of_lt hw

theorem behind_behind (size w a b : Nat) :
    behind size (behind size w a) b = behind size w (a + b) := by
  unfold behind
  rw [Nat.mod_add_mod, Nat.add_assoc]

/-- Once around at most. -/
theorem behind_eq (hw : w < size) (ha : a ≤ size) :
    behind size w a = if w + a < size then w + a else w + a - size := by
  unfold behind
  split
  · next h => exact Nat.mod_eq_of_lt h
  · next h => rw [Nat.mod_eq_sub_mod (Nat.not_lt.1 h), Nat.mod_eq_of_lt (by omega)]

theorem behind_inj (ha : a < size) (hb : b < size) (h : behind size w a = behind size w b) :
    a = b :=
  (Nat.ModEq.add_left_cancel' w h).eq_of_lt_of_lt ha hb

/-- How far a place is behind another. -/
def distance (size w q : Nat) : Nat := (q + size - w) % size

theorem distance_lt (hsize : 0 < size) (w q : Nat) : distance size w q < size :=
  Nat.mod_lt _ hsize

theorem behind_distance {q : Nat} (hw : w < size) (hq : q < size) :
    behind size w (distance size w q) = q := by
  unfold behind distance
  rw [Nat.add_mod_mod, Nat.add_sub_cancel' (by omega), Nat.add_mod_right, Nat.mod_eq_of_lt hq]

theorem distance_behind (hw : w < size) (ha : a < size) : distance size w (behind size w a) = a :=
  behind_inj (distance_lt (by omega) _ _) ha (behind_distance hw (behind_lt (by omega) _ _))

/-- `data` stands in the ring from `off` on. -/
def Holds (size : Nat) (mem : ByteFile) (off : Nat) (data : List UInt8) : Prop :=
  ∀ i (h : i < data.length), mem (behind size off i) = data[i]

/-- `data` has been put into the ring from `off` on, and nothing else is changed. -/
structure Put (size : Nat) (mem : ByteFile) (off : Nat) (data : List UInt8) (mem' : ByteFile) :
    Prop where
  holds : Holds size mem' off data
  kept : ∀ q, (∀ i < data.length, q ≠ behind size off i) → mem' q = mem q

variable {mem mem' mem'' : ByteFile} {off : Nat} {data more : List UInt8}

theorem Put.nil (size : Nat) (mem : ByteFile) (off : Nat) : Put size mem off [] mem :=
  ⟨fun _ h => absurd h (Nat.not_lt_zero _), fun _ _ => rfl⟩

theorem Put.append (h : Put size mem off data mem')
    (h' : Put size mem' (off + data.length) more mem'')
    (hle : data.length + more.length ≤ size) : Put size mem off (data ++ more) mem'' := by
  have hplace (i : Nat) : behind size (off + data.length) i = behind size off (data.length + i) :=
    congrArg (· % size) (Nat.add_assoc ..)
  constructor
  · intro i hi
    rw [List.length_append] at hi
    by_cases hin : i < data.length
    · rw [List.getElem_append_left hin, ← h.holds i hin]
      refine h'.kept _ fun j hj heq => ?_
      rw [hplace] at heq
      have := behind_inj (by omega) (by omega) heq
      omega
    · rw [List.getElem_append_right (by omega), ← h'.holds (i - data.length) (by omega), hplace,
        Nat.add_sub_cancel' (by omega)]
  · intro q hq
    rw [List.length_append] at hq
    rw [h'.kept q, h.kept q fun i hi => hq i (by omega)]
    intro i hi
    rw [hplace]
    exact hq _ (by omega)

/-- What is put does not depend on the lap. -/
theorem Put.congr {off' : Nat} (h : Put size mem off data mem') (hoff : off % size = off' % size) :
    Put size mem off' data mem' := by
  have hplace (i : Nat) : behind size off i = behind size off' i := by
    unfold behind
    rw [Nat.add_mod, hoff, ← Nat.add_mod]
  constructor
  · intro i hi
    rw [← hplace]
    exact h.holds i hi
  · intro q hq
    refine h.kept q fun i hi => ?_
    rw [hplace]
    exact hq i hi

/-- A write that does not reach over the end of the ring. -/
theorem put_write (mem : ByteFile) (hle : off + data.length ≤ size) :
    Put size mem off data (mem.write off data) := by
  have hplace {i : Nat} (hi : i < data.length) : behind size off i = off + i :=
    Nat.mod_eq_of_lt (by omega)
  constructor
  · intro i hi
    rw [hplace hi]
    exact ByteFile.holds_iff.1 (ByteFile.holds_write mem off data) i hi
  · intro q hq
    refine ByteFile.write_apply_of_not fun ⟨hlow, hhigh⟩ => ?_
    refine hq (q - off) (by omega) ?_
    rw [hplace (by omega)]
    omega

/-- A write that is split at the end of the ring. -/
theorem put_split (mem : ByteFile) (hoff : off ≤ size) (hover : size ≤ off + data.length)
    (hle : data.length ≤ size) :
    Put size mem off data
      ((mem.write off (data.take (size - off))).write 0 (data.drop (size - off))) := by
  have hfirst : (data.take (size - off)).length = size - off := by
    rw [List.length_take]
    omega
  have hput : Put size mem off (data.take (size - off)) _ := put_write mem (by omega)
  have hput' : Put size (mem.write off (data.take (size - off))) 0 (data.drop (size - off)) _ :=
    put_write _ (by rw [List.length_drop]; omega)
  -- the end of the ring is its beginning
  have hback : 0 % size = (off + (data.take (size - off)).length) % size := by
    rw [hfirst, Nat.add_sub_cancel' hoff, Nat.mod_self, Nat.zero_mod]
  have hcat := hput.append (hput'.congr hback) (by rw [hfirst, List.length_drop]; omega)
  rwa [List.take_append_drop] at hcat

/-- Places farther behind than the data are left alone. -/
theorem Put.kept_behind (h : Put size mem off data mem') (hdata : data.length ≤ a)
    (ha : a < size) : mem' (behind size off a) = mem (behind size off a) := by
  refine h.kept _ fun j hj heq => ?_
  have := behind_inj ha (by omega) heq
  omega

theorem Holds.congr {off' : Nat} (h : Holds size mem off data)
    (hoff : off % size = off' % size) : Holds size mem off' data := by
  intro i hi
  rw [← h i hi]
  unfold behind
  rw [Nat.add_mod, ← hoff, ← Nat.add_mod]

theorem Holds.kept_behind {d : List UInt8} (h : Holds size mem (off + a) d)
    (hput : Put size mem off data mem') (hdata : data.length ≤ a) (hd : a + d.length ≤ size) :
    Holds size mem' (off + a) d := by
  intro i hi
  have hplace : behind size (off + a) i = behind size off (a + i) :=
    congrArg (· % size) (Nat.add_assoc ..)
  rw [← h i hi, hplace]
  exact hput.kept_behind (by omega) (by omega)

/-! ## Records end to end

Records lie end to end behind a place `w` when each is where the one in front
of it ends, counted in distances behind `w`. -/

section Laid

variable {α : Type} (pos len : α → Nat)

/-- From the distance `x` to the distance `y` behind `w`. -/
def Laid (size w : Nat) : Nat → List α → Nat → Prop
  | x, [], y => x = y
  | x, r :: rs, y => pos r = behind size w x ∧ Laid size w (x + len r) rs y

variable {pos len} {x y z n : Nat} {r : α} {rs qs : List α}

theorem laid_append :
    Laid pos len size w x (rs ++ qs) y ↔
      ∃ z, Laid pos len size w x rs z ∧ Laid pos len size w z qs y := by
  induction rs generalizing x with
  | nil => simp [Laid]
  | cons r rs ih =>
      simp only [List.cons_append, Laid, ih]
      constructor
      · rintro ⟨hr, z, hrs, hqs⟩
        exact ⟨z, ⟨hr, hrs⟩, hqs⟩
      · rintro ⟨z, ⟨hr, hrs⟩, hqs⟩
        exact ⟨hr, z, hrs, hqs⟩

theorem Laid.total (h : Laid pos len size w x rs y) : x + (rs.map len).sum = y := by
  induction rs generalizing x with
  | nil => simpa [Laid] using h
  | cons r rs ih =>
      rw [List.map_cons, List.sum_cons, ← Nat.add_assoc]
      exact ih h.2

/-- Where one of the records is. -/
theorem Laid.place (h : Laid pos len size w x rs y) (hr : r ∈ rs) :
    ∃ z, x ≤ z ∧ pos r = behind size w z ∧ z + len r ≤ y := by
  obtain ⟨before, after, rfl⟩ := List.append_of_mem hr
  obtain ⟨z, hbefore, hplace, hafter⟩ := laid_append.1 h
  have hx := hbefore.total
  have hy := hafter.total
  exact ⟨z, by omega, hplace, by omega⟩

/-- Which of the records a distance falls into. -/
theorem Laid.exists_at (h : Laid pos len size w x rs y) (hx : x ≤ n) (hy : n < y) :
    ∃ r ∈ rs, ∃ k < len r, behind size w n = behind size (pos r) k := by
  induction rs generalizing x with
  | nil =>
      have hxy : x = y := h
      omega
  | cons r rs ih =>
      by_cases hin : n < x + len r
      · refine ⟨r, List.mem_cons_self .., n - x, by omega, ?_⟩
        rw [h.1, behind_behind, Nat.add_sub_cancel' hx]
      · obtain ⟨q, hq, k, hk, heq⟩ := ih h.2 (by omega)
        exact ⟨q, List.mem_cons_of_mem _ hq, k, hk, heq⟩

/-- The same records, seen from a place farther on. -/
theorem Laid.shift (h : Laid pos len size w x rs y) (hn : n ≤ x) :
    Laid pos len size (behind size w n) (x - n) rs (y - n) := by
  induction rs generalizing x with
  | nil => exact congrArg (· - n) h
  | cons r rs ih =>
      refine ⟨?_, ?_⟩
      · rw [behind_behind, Nat.add_sub_cancel' hn]
        exact h.1
      · rw [← Nat.sub_add_comm hn]
        exact ih h.2 (Nat.le_add_right_of_le hn)

/-- A record put down at `w` comes behind all others, once around. -/
theorem Laid.concat (h : Laid pos len size w x rs size) (hn : len r ≤ x) (hx : x ≤ size)
    (hw : w < size) (hr : pos r = w) :
    Laid pos len size (behind size w (len r)) (x - len r) (rs ++ [r]) size := by
  refine laid_append.2 ⟨_, h.shift hn, ?_, ?_⟩
  · rw [hr, behind_behind, Nat.add_sub_cancel' (by omega), behind, Nat.add_mod_right,
      Nat.mod_eq_of_lt hw]
  · exact Nat.sub_add_cancel (by omega)

end Laid

end RingBuffer
