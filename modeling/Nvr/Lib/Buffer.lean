import Mathlib.Data.List.Basic
import Mathlib.Tactic.Common

/-!
# Writing into a buffer

A buffer is a list that keeps its length. `put` writes at an offset, and a part that does not
meet what is written is as before. `Memcpy` is what is promised of a copy inside one buffer,
which is nothing where the two parts meet; `copyUp`, which copies from the lowest place on, also
moves a part down onto itself.
-/

namespace Buffer

variable {α : Type} {buf xs : List α} {off a n : Nat}

/-- `xs` in place of what is in the buffer from `off` on. -/
def put (buf : List α) (off : Nat) (xs : List α) : List α :=
  buf.take off ++ xs ++ buf.drop (off + xs.length)

/-- The `n` elements from `off` on. -/
def slice (buf : List α) (off n : Nat) : List α := (buf.drop off).take n

theorem length_put (h : off + xs.length ≤ buf.length) : (put buf off xs).length = buf.length := by
  simp only [put, List.length_append, List.length_take, List.length_drop]
  omega

theorem put_zero (buf xs : List α) : put buf 0 xs = xs ++ buf.drop xs.length := by
  simp [put]

theorem length_slice (h : off + n ≤ buf.length) : (slice buf off n).length = n := by
  simp only [slice, List.length_take, List.length_drop]
  omega

/-- What is written is there. -/
theorem slice_put_self (h : off ≤ buf.length) : slice (put buf off xs) off xs.length = xs := by
  have hlen : (buf.take off).length = off := by simp [h]
  rw [slice, put, List.append_assoc, List.drop_append_of_le_length (by omega),
    List.drop_of_length_le (by omega), List.nil_append, List.take_left]

/-- What is in front of the place that is written stays. -/
theorem take_put (h : a ≤ off) (hoff : off ≤ buf.length) :
    (put buf off xs).take a = buf.take a := by
  have hlen : a ≤ (buf.take off).length := by simp; omega
  rw [put, List.append_assoc, List.take_append_of_le_length hlen, List.take_take,
    Nat.min_eq_left h]

/-- What is behind it stays too. -/
theorem drop_put (h : off + xs.length ≤ a) (hoff : off ≤ buf.length) :
    (put buf off xs).drop a = buf.drop a := by
  have hlen : (buf.take off ++ xs).length = off + xs.length := by simp; omega
  rw [put, List.drop_append, List.drop_of_length_le (by omega), List.nil_append, hlen,
    List.drop_drop]
  congr 1
  omega

theorem getElem?_put (h : off ≤ buf.length) (i : Nat) :
    (put buf off xs)[i]? = if off ≤ i ∧ i < off + xs.length then xs[i - off]? else buf[i]? := by
  have hlen : (buf.take off).length = off := by simp [h]
  rw [put, List.append_assoc]
  by_cases hlow : i < off
  · rw [List.getElem?_append_left (by omega), List.getElem?_take_of_lt hlow, if_neg (by omega)]
  · rw [List.getElem?_append_right (by omega), hlen]
    by_cases hhigh : i < off + xs.length
    · rw [List.getElem?_append_left (by omega), if_pos (by omega)]
    · rw [List.getElem?_append_right (by omega), List.getElem?_drop, if_neg (by omega)]
      congr 1
      omega

theorem getElem?_slice (i : Nat) :
    (slice buf off n)[i]? = if i < n then buf[off + i]? else none := by
  rw [slice, List.getElem?_take, List.getElem?_drop]

/-- What is promised of `memcpy`, inside of one buffer. -/
structure Memcpy (α : Type) where
  copy : List α → Nat → Nat → Nat → List α
  copies : ∀ (buf : List α) (dst src n : Nat), dst + n ≤ buf.length → src + n ≤ buf.length →
    dst + n ≤ src ∨ src + n ≤ dst → copy buf dst src n = put buf dst (slice buf src n)

/-- A copy that begins at the lowest place. -/
def copyUp (buf : List α) (dst src : Nat) : Nat → List α
  | 0 => buf
  | n + 1 => copyUp (put buf dst (slice buf src 1)) (dst + 1) (src + 1) n

theorem getElem?_copyUp (n : Nat) : ∀ {buf : List α} {dst src : Nat},
    dst ≤ src ∨ src + n ≤ dst → dst + n ≤ buf.length → src + n ≤ buf.length → ∀ i,
      (copyUp buf dst src n)[i]? = if dst ≤ i ∧ i < dst + n then buf[src + (i - dst)]? else buf[i]? := by
  induction n with
  | zero =>
      intro buf dst src _ _ _ i
      rw [if_neg (by omega)]
      rfl
  | succ n ih =>
      intro buf dst src hside hdst hsrc i
      have hone : (slice buf src 1).length = 1 := length_slice (by omega)
      have hlen : (put buf dst (slice buf src 1)).length = buf.length := length_put (by omega)
      rw [copyUp, ih (by omega) (by omega) (by omega)]
      -- the element that is copied first is not read again
      rw [getElem?_put (by omega), getElem?_put (by omega), hone]
      by_cases hfirst : i = dst
      · subst hfirst
        rw [if_neg (by omega), if_pos (by omega), if_pos (by omega), getElem?_slice,
          if_pos (by omega)]
      · by_cases hrest : dst + 1 ≤ i ∧ i < dst + 1 + n
        · rw [if_pos hrest, if_neg (by omega), if_pos (by omega)]
          congr 1
          omega
        · rw [if_neg hrest, if_neg (by omega), if_neg (by omega)]

/-- Nothing is written before it has been read, where the part is moved down or away. -/
theorem copyUp_eq {dst src : Nat} (hside : dst ≤ src ∨ src + n ≤ dst)
    (hdst : dst + n ≤ buf.length) (hsrc : src + n ≤ buf.length) :
    copyUp buf dst src n = put buf dst (slice buf src n) := by
  apply List.ext_getElem?
  intro i
  rw [getElem?_copyUp n hside hdst hsrc, getElem?_put (by omega), length_slice hsrc,
    getElem?_slice]
  by_cases hin : dst ≤ i ∧ i < dst + n
  · rw [if_pos hin, if_pos hin, if_pos (by omega)]
  · rw [if_neg hin, if_neg hin]

/-- `copyUp` is a `memcpy`. -/
def Memcpy.up : Memcpy α where
  copy := copyUp
  copies _ _ _ _ hdst hsrc hapart :=
    copyUp_eq (hapart.imp_left fun h => Nat.le_trans (Nat.le_add_right _ _) h) hdst hsrc

end Buffer
