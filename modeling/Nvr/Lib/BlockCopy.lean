import Nvr.Lib.ByteFile

/-!
# Copying blocks

A program that moves a memory block by block is known by the list of its copies: where each
block is put and where it is from. If no two blocks are put over each other, the order
does not matter, and every byte is where its block has put it.

Such programs read their source from the front to the back. A `Cursor` is a program so
far: where it reads next, and what it has copied.
-/

namespace BlockCopy

/-- A block is copied to `dst` from `src`. -/
structure Copy where
  dst : Nat
  src : Nat

/-- Blocks of `n` bytes that are put side by side. -/
def Apart (n : Nat) (c d : Copy) : Prop := c.dst + n ≤ d.dst ∨ d.dst + n ≤ c.dst

def Copy.Covers (n : Nat) (c : Copy) (p : Nat) : Prop := c.dst ≤ p ∧ p < c.dst + n

instance (n : Nat) (c : Copy) (p : Nat) : Decidable (c.Covers n p) :=
  inferInstanceAs (Decidable (_ ∧ _))

/-- What the copies make of a memory. -/
def run (n : Nat) (src mem : ByteFile) (cs : List Copy) : ByteFile :=
  cs.foldl (fun mem c => mem.write c.dst (src.read c.src n)) mem

variable {n p : Nat} {src mem : ByteFile} {cs : List Copy} {c : Copy}

theorem run_concat : run n src mem (cs ++ [c]) =
    (run n src mem cs).write c.dst (src.read c.src n) := by
  rw [run, List.foldl_append]
  rfl

/-- A byte that no block covers stays. -/
theorem run_apply_of_not (h : ∀ c ∈ cs, ¬c.Covers n p) : run n src mem cs p = mem p := by
  induction cs generalizing mem with
  | nil => rfl
  | cons c cs ih =>
      rw [run, List.foldl_cons]
      refine (ih fun d hd => h d (List.mem_cons_of_mem _ hd)).trans ?_
      refine ByteFile.write_apply_of_not ?_
      rw [ByteFile.length_read]
      exact h c (List.mem_cons_self ..)

/-- A byte of a block is the byte of the source. -/
theorem run_apply_of_mem (hapart : cs.Pairwise (Apart n)) (hc : c ∈ cs) {t : Nat} (ht : t < n) :
    run n src mem cs (c.dst + t) = src (c.src + t) := by
  obtain ⟨before, after, rfl⟩ := List.append_of_mem hc
  have hafter : ∀ d ∈ after, ¬d.Covers n (c.dst + t) := by
    intro d hd hcovers
    have hboth := List.pairwise_append.1 hapart
    have hcd := (List.pairwise_cons.1 hboth.2.1).1 d hd
    obtain ⟨hlow, hhigh⟩ := hcovers
    obtain hle | hle := hcd <;> omega
  have hsplit : before ++ c :: after = (before ++ [c]) ++ after := by simp
  rw [hsplit, run, List.foldl_append]
  refine (run_apply_of_not hafter).trans ?_
  show run n src mem (before ++ [c]) (c.dst + t) = _
  rw [run_concat]
  have hlen : t < (src.read c.src n).length := by rwa [ByteFile.length_read]
  rw [ByteFile.holds_iff.1 (ByteFile.holds_write _ _ _) t hlen, ByteFile.getElem_read]

/-- A byte that some blocks cover, if they all agree about it. -/
theorem run_apply_of_agree {v : UInt8}
    (hv : ∀ c ∈ cs, c.Covers n p → src (c.src + (p - c.dst)) = v) (hex : ∃ c ∈ cs, c.Covers n p) :
    run n src mem cs p = v := by
  induction cs generalizing mem with
  | nil =>
      obtain ⟨c, hc, -⟩ := hex
      cases hc
  | cons c cs ih =>
      have hcs : ∀ d ∈ cs, d.Covers n p → src (d.src + (p - d.dst)) = v := fun d hd =>
        hv d (List.mem_cons_of_mem _ hd)
      rw [run, List.foldl_cons]
      by_cases hlater : ∃ d ∈ cs, d.Covers n p
      · exact ih hcs hlater
      · obtain ⟨d, hd, hcovers⟩ := hex
        obtain rfl | hd := List.mem_cons.1 hd
        · refine (run_apply_of_not fun d hd hd' => hlater ⟨d, hd, hd'⟩).trans ?_
          obtain ⟨hlow, hhigh⟩ := hcovers
          have hlen : p - d.dst < (src.read d.src n).length := by
            rw [ByteFile.length_read]
            omega
          have hwritten := ByteFile.holds_iff.1 (ByteFile.holds_write mem d.dst _) _ hlen
          rw [ByteFile.getElem_read, Nat.add_sub_cancel' hlow] at hwritten
          rw [hwritten]
          exact hv d (List.mem_cons_self ..) ⟨hlow, hhigh⟩
        · exact absurd ⟨d, hd, hcovers⟩ hlater

/-- A byte is put by the one block that covers it, if there is one. -/
theorem length_filter_covers (hapart : cs.Pairwise (Apart n)) (p : Nat) :
    (cs.filter fun c => c.Covers n p).length = if ∃ c ∈ cs, c.Covers n p then 1 else 0 := by
  induction cs with
  | nil => rfl
  | cons c cs ih =>
      obtain ⟨hc, hcs⟩ := List.pairwise_cons.1 hapart
      by_cases hcovers : c.Covers n p
      · have hnone : ¬∃ d ∈ cs, d.Covers n p := by
          rintro ⟨d, hd, hlow, hhigh⟩
          obtain hle | hle := hc d hd
          · exact absurd hcovers.2 (by omega)
          · exact absurd hcovers.1 (by omega)
        have htail := ih hcs
        rw [if_neg hnone] at htail
        rw [List.filter_cons_of_pos (by simpa using hcovers), List.length_cons, htail,
          if_pos ⟨c, List.mem_cons_self .., hcovers⟩]
      · rw [List.filter_cons_of_neg (by simpa using hcovers), ih hcs]
        simp [hcovers]

/-! ## Programs that read from the front to the back -/

structure Cursor where
  src : Nat
  copies : List Copy

/-- The next `n` bytes go to `dst`. -/
def Cursor.copy (n : Nat) (c : Cursor) (dst : Nat) : Cursor :=
  ⟨c.src + n, c.copies ++ [⟨dst, c.src⟩]⟩

/-- Some bytes are passed over. -/
def Cursor.skip (c : Cursor) (k : Nat) : Cursor := { c with src := c.src + k }

/-- The blocks are read one behind the other. -/
structure Cursor.Ordered (n : Nat) (c : Cursor) : Prop where
  before : ∀ x ∈ c.copies, x.src + n ≤ c.src
  pairwise : c.copies.Pairwise fun x y => x.src + n ≤ y.src

theorem Cursor.ordered_nil (n src : Nat) : Cursor.Ordered n ⟨src, []⟩ := ⟨nofun, .nil⟩

variable {cur : Cursor}

theorem Cursor.Ordered.copy (h : cur.Ordered n) (dst : Nat) : (cur.copy n dst).Ordered n := by
  refine ⟨fun x hx => ?_, List.pairwise_append.2 ⟨h.pairwise, List.pairwise_singleton .., ?_⟩⟩
  · obtain hold | hnew := List.mem_append.1 hx
    · exact Nat.le_trans (h.before x hold) (Nat.le_add_right _ _)
    · rw [List.mem_singleton.1 hnew]
      exact Nat.le_refl _
  · intro x hx y hy
    rw [List.mem_singleton.1 hy]
    exact h.before x hx

theorem Cursor.Ordered.skip (h : cur.Ordered n) (k : Nat) : (cur.skip k).Ordered n :=
  ⟨fun x hx => Nat.le_trans (h.before x hx) (Nat.le_add_right _ _), h.pairwise⟩

/-- What a step of a loop keeps, the loop keeps. -/
theorem loop_keeps {P : Cursor → Prop} {f : Cursor → Nat → Cursor} (hf : ∀ c i, P c → P (f c i))
    (h : P cur) (k : Nat) : P ((List.range k).foldl f cur) := by
  induction k with
  | zero => exact h
  | succ k ih =>
      rw [List.range_succ, List.foldl_append]
      exact hf _ _ ih

/-- A loop whose `i`-th step takes `a` bytes and makes the copies `g i`. -/
theorem loop_eq {f : Cursor → Nat → Cursor} {a : Nat} {g : Nat → Nat → List Copy}
    (hf : ∀ c i, f c i = ⟨c.src + a, c.copies ++ g i c.src⟩) (cur : Cursor) (k : Nat) :
    (List.range k).foldl f cur =
      ⟨cur.src + a * k,
        cur.copies ++ (List.range k).flatMap fun i => g i (cur.src + a * i)⟩ := by
  induction k with
  | zero => simp
  | succ k ih =>
      rw [List.range_succ, List.foldl_append, ih, List.foldl_cons, List.foldl_nil, hf]
      simp only [List.flatMap_append, List.flatMap_singleton, List.append_assoc, Nat.mul_succ,
        Nat.add_assoc]

end BlockCopy
