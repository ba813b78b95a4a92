import Nvr.Lib.FileStore
import Nvr.Storage.Types

/-!
# The mounted disk a program runs against

`strg_common.c` and the system calls under it. A `Dev` is the directory of one
mounted disk together with everything the outside decides: whether an `open`
succeeds, whether a `write` completes or stops with an error after some bytes,
whether a `read` succeeds, what `time` and `random` return. All of that is the
`Env`, looked up at a counter that every open and write advances, so a claim
about every behaviour of the disk is a claim about every `Env`.

The `log` lists what has been done to the files, oldest first. Nothing in the
program reads it; a power cut is a prefix of it.

Reads beyond the end of a file do not return in the program (`read` answers 0
and the loop of `strg_read` goes on). They count as failed here.
-/

namespace Nvr.Storage

/-- The files below a mount point. -/
inductive FilePath where
  | basket (idx : Nat)
  | global
  | writeFlag
  | formatFlag
  deriving DecidableEq, Repr

/-- `off_t` is a signed word, and `lseek` refuses what does not fit. -/
def seekEnd : Nat := 2 ^ 31

/-- Where a file ends: basket files are preallocated. -/
def fileEnd : FilePath → Nat
  | .basket _ => basketSize
  | _ => seekEnd

/-- What the outside answers. `writeCut n p off data = some k` is a write that
fails after `k` bytes. -/
structure Env where
  openOk : Nat → Bool
  writeCut : Nat → FilePath → Nat → List UInt8 → Option Nat
  readOk : Nat → FilePath → Nat → Bool
  time : Nat → Int32
  random : Nat → UInt32

/-- No call ever fails. -/
structure Env.Reliable (env : Env) : Prop where
  openOk : ∀ n, env.openOk n = true
  writeCut : ∀ n p off data, env.writeCut n p off data = none
  readOk : ∀ n p off, env.readOk n p off = true

/-- A mounted disk. -/
structure Dev where
  env : Env
  tick : Nat
  store : FileStore FilePath
  log : List (FileOp FilePath)

namespace Dev

/-- A disk of zeros on which no call fails and the clock stands still. -/
def blank : Dev where
  env := {
    openOk := fun _ => true
    writeCut := fun _ _ _ _ => none
    readOk := fun _ _ _ => true
    time := fun _ => 1000
    random := fun _ => 0 }
  tick := 0
  store := { file := fun _ _ => 0, present := fun _ => false }
  log := []

theorem blank_reliable : blank.env.Reliable :=
  ⟨fun _ => rfl, fun _ _ _ _ => rfl, fun _ _ _ => rfl⟩

/-- One completed change of the files. -/
def commit (dev : Dev) (op : FileOp FilePath) : Dev :=
  { dev with tick := dev.tick + 1, store := dev.store.apply op, log := dev.log ++ [op] }

/-- Time passes without a change of the files. -/
def wait (dev : Dev) : Dev := { dev with tick := dev.tick + 1 }

/-- The contents of a file. -/
def file (dev : Dev) (p : FilePath) : ByteFile := dev.store.file p

/-- `time(NULL)`. -/
def now (dev : Dev) : Int32 := dev.env.time dev.tick

@[simp] theorem env_commit (dev : Dev) (op : FileOp FilePath) :
    (dev.commit op).env = dev.env := rfl

@[simp] theorem log_commit (dev : Dev) (op : FileOp FilePath) :
    (dev.commit op).log = dev.log ++ [op] := rfl

@[simp] theorem store_commit (dev : Dev) (op : FileOp FilePath) :
    (dev.commit op).store = dev.store.apply op := rfl

@[simp] theorem env_wait (dev : Dev) : dev.wait.env = dev.env := rfl
@[simp] theorem log_wait (dev : Dev) : dev.wait.log = dev.log := rfl
@[simp] theorem store_wait (dev : Dev) : dev.wait.store = dev.store := rfl

@[simp] theorem file_wait (dev : Dev) (p : FilePath) : dev.wait.file p = dev.file p := rfl

@[simp] theorem file_commit_write (dev : Dev) (p : FilePath) (off : Nat) (data : List UInt8) :
    (dev.commit (.write p off data)).file p = (dev.file p).write off data := by
  simp [file]

theorem file_commit_write_ne (dev : Dev) {p q : FilePath} (h : q ≠ p) (off : Nat)
    (data : List UInt8) : (dev.commit (.write p off data)).file q = dev.file q := by
  simp [file, FileStore.file_write_ne _ h]

end Dev

/-! ## `strg_common.c` -/

/-- After how many bytes a write stops, if it does. -/
def writeStops (dev : Dev) (p : FilePath) (data : List UInt8) (off : Nat) : Option Nat :=
  if off < seekEnd then dev.env.writeCut dev.tick p off data else some 0

/-- `strg_write`: whether all of `data` was written. -/
def strgWrite (dev : Dev) (p : FilePath) (data : List UInt8) (off : Nat) : Bool × Dev :=
  match writeStops dev p data off with
  | none => (true, dev.commit (.write p off data))
  | some k => (false, dev.commit (.write p off (data.take k)))

/-- `strg_read`. -/
def strgRead (dev : Dev) (p : FilePath) (len off : Nat) : Option (List UInt8) :=
  if dev.env.readOk dev.tick p off ∧ off + len ≤ fileEnd p then
    some ((dev.file p).read off len)
  else none

/-- A write that succeeds is the write of all the data. -/
theorem strgWrite_ok {dev : Dev} {p : FilePath} {data : List UInt8} {off : Nat}
    (h : (strgWrite dev p data off).1 = true) :
    (strgWrite dev p data off).2 = dev.commit (.write p off data) := by
  unfold strgWrite at h ⊢
  split
  · rfl
  · next hcut =>
      rw [hcut] at h
      cases h

/-- Only what can be sought to is written in full. -/
theorem strgWrite_seek {dev : Dev} {p : FilePath} {data : List UInt8} {off : Nat}
    (h : (strgWrite dev p data off).1 = true) : off < seekEnd := by
  by_contra hoff
  rw [strgWrite, writeStops, if_neg hoff] at h
  cases h

/-- Whatever its outcome, a write is one logged change of that file, at that
offset, by at most the data. -/
theorem strgWrite_commit (dev : Dev) (p : FilePath) (data : List UInt8) (off : Nat) :
    ∃ n, (strgWrite dev p data off).2 = dev.commit (.write p off (data.take n)) := by
  unfold strgWrite
  split
  · exact ⟨data.length, by rw [List.take_length]⟩
  · next k _ => exact ⟨k, rfl⟩

theorem strgWrite_reliable {dev : Dev} (h : dev.env.Reliable) (p : FilePath)
    (data : List UInt8) {off : Nat} (hoff : off < seekEnd) :
    strgWrite dev p data off = (true, dev.commit (.write p off data)) := by
  rw [strgWrite, writeStops, if_pos hoff, h.writeCut]

theorem strgRead_reliable {dev : Dev} (h : dev.env.Reliable) {p : FilePath} {len off : Nat}
    (hend : off + len ≤ fileEnd p) :
    strgRead dev p len off = some ((dev.file p).read off len) :=
  if_pos ⟨h.readOk _ _ _, hend⟩

@[simp] theorem strgWrite_env (dev : Dev) (p : FilePath) (data : List UInt8) (off : Nat) :
    (strgWrite dev p data off).2.env = dev.env := by
  obtain ⟨n, h⟩ := strgWrite_commit dev p data off
  rw [h, Dev.env_commit]

end Nvr.Storage
