import Nvr.Lib.ByteFile
import Mathlib.Logic.Function.Basic

/-!
# A directory of files and the log of what was done to it

A `FileStore` is what survives a power cut: the bytes of every file and which
paths exist. A program changes it only by `FileOp`s, and the list of the
operations completed so far is enough to rebuild it, so the state at a power
cut is the replay of a prefix of that list.
-/

/-- The files below one mount point. -/
structure FileStore (P : Type) where
  file : P → ByteFile
  present : P → Bool

/-- One completed change of the files. -/
inductive FileOp (P : Type) where
  | write (path : P) (off : Nat) (data : List UInt8)
  | create (path : P)
  | unlink (path : P)

namespace FileStore

variable {P : Type} [DecidableEq P]

/-- What one completed operation does. -/
def apply (s : FileStore P) : FileOp P → FileStore P
  | .write path off data =>
      { s with file := Function.update s.file path ((s.file path).write off data) }
  | .create path => { s with present := Function.update s.present path true }
  | .unlink path => { s with present := Function.update s.present path false }

/-- The files after a sequence of operations, oldest first. -/
def replay (s : FileStore P) (ops : List (FileOp P)) : FileStore P := ops.foldl apply s

@[simp] theorem replay_nil (s : FileStore P) : s.replay [] = s := rfl

@[simp] theorem replay_append (s : FileStore P) (a b : List (FileOp P)) :
    s.replay (a ++ b) = (s.replay a).replay b := List.foldl_append ..

@[simp] theorem replay_cons (s : FileStore P) (op : FileOp P) (ops : List (FileOp P)) :
    s.replay (op :: ops) = (s.apply op).replay ops := rfl

@[simp] theorem file_write_self (s : FileStore P) (path : P) (off : Nat) (data : List UInt8) :
    (s.apply (.write path off data)).file path = (s.file path).write off data := by
  simp [apply]

theorem file_write_ne (s : FileStore P) {path path' : P} (h : path' ≠ path) (off : Nat)
    (data : List UInt8) : (s.apply (.write path off data)).file path' = s.file path' := by
  simp [apply, h]

@[simp] theorem file_create (s : FileStore P) (path : P) :
    (s.apply (.create path)).file = s.file := rfl

@[simp] theorem file_unlink (s : FileStore P) (path : P) :
    (s.apply (.unlink path)).file = s.file := rfl

@[simp] theorem present_write (s : FileStore P) (path : P) (off : Nat) (data : List UInt8) :
    (s.apply (.write path off data)).present = s.present := rfl

end FileStore
