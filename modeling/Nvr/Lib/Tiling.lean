import Mathlib.Algebra.Order.BigOperators.Group.List
import Mathlib.Data.List.Pairwise
import Mathlib.Tactic.Common

/-!
# Segments laid end to end

A list of segments tiles the line from a base on when the first starts at the
base and each later one starts where the one before it ends. It is the layout
of every append-only area that is shared out in contiguous pieces; the pieces
are counted in whatever the area is counted in, so positions are elements of
an ordered monoid.

Only the last segment of a tiling can grow: replacing it by one with the same
start keeps the tiling, and a new segment goes where the total ends.
-/

namespace Tiling

variable {α M : Type}

section Basic

variable [AddCommMonoid M] (start len : α → M)

/-- The segments lie end to end from `base` on. -/
def Tiles : M → List α → Prop
  | _, [] => True
  | base, x :: xs => start x = base ∧ Tiles (base + len x) xs

/-- How far a list of segments reaches. -/
def total (xs : List α) : M := (xs.map len).sum

@[simp] theorem total_nil : total len ([] : List α) = 0 := rfl

@[simp] theorem total_cons (x : α) (xs : List α) :
    total len (x :: xs) = len x + total len xs := by simp [total]

@[simp] theorem total_append (xs ys : List α) :
    total len (xs ++ ys) = total len xs + total len ys := by simp [total]

variable {start len}

theorem tiles_append {base : M} {xs ys : List α} :
    Tiles start len base (xs ++ ys) ↔
      Tiles start len base xs ∧ Tiles start len (base + total len xs) ys := by
  induction xs generalizing base with
  | nil => simp [Tiles]
  | cons x xs ih => simp [Tiles, ih, and_assoc, add_assoc]

/-- A new segment goes where the total ends. -/
theorem tiles_concat {base : M} {xs : List α} {x : α} :
    Tiles start len base (xs ++ [x]) ↔
      Tiles start len base xs ∧ start x = base + total len xs := by
  simp [tiles_append, Tiles]

/-- The last segment may be replaced by any other with the same start. -/
theorem Tiles.replace_last {base : M} {xs : List α} {x y : α}
    (h : Tiles start len base (xs ++ [x])) (hxy : start y = start x) :
    Tiles start len base (xs ++ [y]) := by
  rw [tiles_concat] at h ⊢
  exact ⟨h.1, hxy.trans h.2⟩

/-- A map that keeps starts and lengths keeps the tiling. -/
theorem Tiles.map {base : M} {xs : List α} {g : α → α} (h : Tiles start len base xs)
    (hs : ∀ x, start (g x) = start x) (hl : ∀ x, len (g x) = len x) :
    Tiles start len base (xs.map g) := by
  induction xs generalizing base with
  | nil => trivial
  | cons x xs ih => exact ⟨(hs x).trans h.1, by rw [hl x]; exact ih h.2⟩

end Basic

/-- A list whose last place is `i`, and what changing that place does. -/
theorem modify_last {xs : List α} {i : Nat} (h : i + 1 = xs.length) (d : α) :
    ∃ before x, xs = before ++ [x] ∧ before.length = i ∧ xs.getD i d = x ∧
      ∀ g : α → α, xs.modify i g = before ++ [g x] := by
  obtain rfl | ⟨before, x, rfl⟩ := List.eq_nil_or_concat xs
  · exact absurd h (by simp)
  · have hi : before.length = i := by
      simp at h
      omega
    subst hi
    refine ⟨before, x, by simp, rfl, by simp, fun g => ?_⟩
    simp [List.modify_eq_set_getElem?]

section Ordered

variable [AddCommMonoid M] [PartialOrder M] [IsOrderedAddMonoid M] {start len : α → M}

theorem total_nonneg {xs : List α} (hl : ∀ x ∈ xs, 0 ≤ len x) : 0 ≤ total len xs := by
  refine List.sum_nonneg fun m hm => ?_
  obtain ⟨x, hx, rfl⟩ := List.mem_map.1 hm
  exact hl x hx

/-- Every segment lies between the base and the end of the total. -/
theorem Tiles.bounds {base : M} {xs : List α} (h : Tiles start len base xs)
    (hl : ∀ x ∈ xs, 0 ≤ len x) {x : α} (hx : x ∈ xs) :
    base ≤ start x ∧ start x + len x ≤ base + total len xs := by
  obtain ⟨before, after, rfl⟩ := List.append_of_mem hx
  rw [tiles_append] at h
  obtain ⟨_, hstart, _⟩ := h
  have hbefore : 0 ≤ total len before := total_nonneg fun y hy => hl y (by simp [hy])
  have hafter : 0 ≤ total len after := total_nonneg fun y hy => hl y (by simp [hy])
  rw [hstart, total_append, total_cons]
  constructor
  · exact le_add_of_nonneg_right hbefore
  · rw [add_assoc]
    gcongr
    exact le_add_of_nonneg_right hafter

end Ordered

/-! ## Pieces of a stream

A list of pieces is put down from a place on; each piece goes with the place
where it begins. -/

section Place

variable (len : α → Nat)

def place : Nat → List α → List (Nat × α)
  | _, [] => []
  | base, x :: xs => (base, x) :: place (base + len x) xs

variable {len} {base : Nat} {xs : List α} {x y : Nat × α}

theorem mem_place :
    x ∈ place len base xs ↔
      ∃ before after, xs = before ++ x.2 :: after ∧ x.1 = base + total len before := by
  induction xs generalizing base with
  | nil => simp [place]
  | cons a xs ih =>
      rw [place, List.mem_cons, ih]
      constructor
      · rintro (rfl | ⟨before, after, rfl, hx⟩)
        · exact ⟨[], xs, rfl, by simp⟩
        · exact ⟨a :: before, after, rfl, by rw [hx, total_cons, Nat.add_assoc]⟩
      · rintro ⟨before, after, hxs, hx⟩
        cases before with
        | nil =>
            obtain ⟨rfl, rfl⟩ := List.cons.inj hxs
            exact .inl (Prod.ext (by simpa using hx) rfl)
        | cons b before =>
            obtain ⟨rfl, rfl⟩ := List.cons.inj hxs
            exact .inr ⟨before, after, rfl, by rw [hx, total_cons, Nat.add_assoc]⟩

/-- A later piece begins where an earlier one has ended. -/
theorem pairwise_place : (place len base xs).Pairwise fun x y => x.1 + len x.2 ≤ y.1 := by
  induction xs generalizing base with
  | nil => exact .nil
  | cons a xs ih =>
      refine .cons (fun y hy => ?_) ih
      obtain ⟨before, _, -, hy⟩ := mem_place.1 hy
      rw [hy]
      exact Nat.le_add_right _ _

/-- Pieces that overlap are the same piece. -/
theorem eq_of_place (hx : x ∈ place len base xs) (hy : y ∈ place len base xs)
    (h : x.1 < y.1 + len y.2) (h' : y.1 < x.1 + len x.2) : x = y := by
  by_contra hne
  let apart (x y : Nat × α) : Prop := x.1 + len x.2 ≤ y.1 ∨ y.1 + len y.2 ≤ x.1
  have : Std.Symm apart := ⟨fun _ _ h => h.symm⟩
  have hapart : (place len base xs).Pairwise apart := pairwise_place.imp fun h => .inl h
  obtain hle | hle := hapart.forall hx hy hne <;> omega

/-- Every place of the stream is in a piece. -/
theorem exists_place {i : Nat} (h : base ≤ i) (h' : i < base + total len xs) :
    ∃ x ∈ place len base xs, x.1 ≤ i ∧ i < x.1 + len x.2 := by
  induction xs generalizing base with
  | nil =>
      rw [total_nil] at h'
      omega
  | cons a xs ih =>
      by_cases hi : i < base + len a
      · exact ⟨(base, a), List.mem_cons_self .., h, hi⟩
      · rw [total_cons] at h'
        obtain ⟨x, hx, hmem⟩ := @ih (base + len a) (by omega) (by omega)
        exact ⟨x, List.mem_cons_of_mem _ hx, hmem⟩

end Place

end Tiling
