import Mathlib.Data.List.Basic
import Mathlib.Tactic.Common

/-!
# Collecting a stream in a buffer

A receiver that takes a stream in pieces copies each piece behind what it has of
the record that it waits for. `patch` is the copy; `Collected` says that the
buffer has the first bytes of a stream and what is still to come of it, and a
copy keeps that for any piece of what comes next.
-/

namespace Collect

variable {α : Type}

/-- `data` copied into a buffer at `off`. -/
def patch (buf : List α) (off : Nat) (data : List α) : List α :=
  buf.take off ++ data ++ buf.drop (off + data.length)

theorem length_patch {buf : List α} {off : Nat} {data : List α}
    (h : off + data.length ≤ buf.length) : (patch buf off data).length = buf.length := by
  unfold patch
  rw [List.length_append, List.length_append, List.length_take, List.length_drop]
  omega

theorem take_patch {buf : List α} {off : Nat} (data : List α) (h : off ≤ buf.length) :
    (patch buf off data).take (off + data.length) = buf.take off ++ data := by
  have hlen : (buf.take off ++ data).length = off + data.length := by
    rw [List.length_append, List.length_take]
    omega
  unfold patch
  rw [← hlen, List.take_left]

/-- The first `k` of a buffer are those of `stream`, and `rest` comes after them. -/
structure Collected (buf : List α) (k : Nat) (stream rest : List α) : Prop where
  le_buf : k ≤ buf.length
  le_stream : k ≤ stream.length
  has : buf.take k = stream.take k
  left : stream.drop k = rest

variable {buf stream rest piece : List α} {k n : Nat}

/-- Nothing is collected at first. -/
theorem collected_zero (buf stream : List α) : Collected buf 0 stream stream :=
  ⟨Nat.zero_le _, Nat.zero_le _, rfl, rfl⟩

/-- What is copied of the next piece is collected. -/
theorem Collected.more (h : Collected buf k stream (piece ++ rest)) (hn : n ≤ piece.length) :
    Collected (patch buf k (piece.take n)) (k + n) stream (piece.drop n ++ rest) := by
  have hlen : (piece.take n).length = n := by
    rw [List.length_take]
    omega
  have hstream : stream = stream.take k ++ (piece ++ rest) := by
    rw [← h.left, List.take_append_drop]
  have htake : (stream.take k).length = k := by
    have hle := h.le_stream
    rw [List.length_take]
    omega
  have hsplit : stream = (stream.take k ++ piece.take n) ++ (piece.drop n ++ rest) := by
    rw [List.append_assoc, ← List.append_assoc (piece.take n), List.take_append_drop]
    exact hstream
  have hboth : (stream.take k ++ piece.take n).length = k + n := by
    rw [List.length_append, htake, hlen]
  refine ⟨?_, ?_, ?_, ?_⟩
  · have hle := h.le_buf
    unfold patch
    rw [List.length_append, List.length_append, List.length_take, hlen]
    omega
  · rw [hsplit, List.length_append, hboth]
    omega
  · have hcopied := take_patch (piece.take n) h.le_buf
    rw [hlen] at hcopied
    rw [hcopied, h.has]
    conv_rhs => rw [hsplit, ← hboth, List.take_left]
  · conv_lhs => rw [hsplit, ← hboth, List.drop_left]

/-- A buffer that is full has a record that the stream begins with. -/
theorem Collected.full {head tail : List α} (h : Collected buf k (head ++ tail) rest)
    (hk : k = head.length) : buf.take k = head ∧ rest = tail := by
  have hhas := h.has
  have hleft := h.left
  rw [hk] at hhas hleft ⊢
  rw [List.take_left] at hhas
  rw [List.drop_left] at hleft
  exact ⟨hhas, hleft.symm⟩

end Collect
