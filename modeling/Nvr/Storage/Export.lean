import Nvr.Storage.Types

/-!
# The export of recordings

`storage_ext_lib.c`: one thread writes the recordings of a list to a disk on the USB port, under
a flag that refuses a second export. Those who start, finish or watch an export do what they do
under a mutex, and so does the thread in two places; `storage_ext_avi_finish` keeps the mutex
while it waits for the thread. A step is what is done under the mutex at once, or what the
thread does up to its next access to what it shares.

What the thread finds outside comes with its steps: disk, mounting, space, files, frames. How a
frame is written is left out.
-/

namespace Nvr.Storage

/-- `STORAGE_ERR_FINISH`. -/
def storageErrFinish : Int := 1

/-- `STORAGE_ERR_OK`. -/
def storageErrOk : Int := 0

/-- `STORAGE_ERR_NO_UDISK`. -/
def storageErrNoUdisk : Int := -2

/-- `STORAGE_ERR_UDISK_SPACE`. -/
def storageErrUdiskSpace : Int := -3

/-- `STORAGE_ERR_BUSY`. -/
def storageErrBusy : Int := -4

/-- `STORAGE_ERR_FAULT`. -/
def storageErrFault : Int := -5

/-- `STORAGE_ERR_IDLE`. -/
def storageErrIdle : Int := -6

/-- What a `long` keeps of a number. -/
def long32 (z : Int) : Int := z.bmod 4294967296

/-- Where the export thread is: in front of its search for the disk; in front of the mutex, to
add up what there is to export; in front of the look at the space; at the head of the loop over
the recordings, and in it in front of a read, of the mutex with an I-frame, and of a write;
and at its end, with the result, with the flag still to be cleared, and with nothing more to do. -/
inductive ExportPhase
  | begin
  | totals
  | space (total_size : Int)
  | files (i : Nat)
  | frames (i : Nat)
  | iframe (i : Nat)
  | writing (i : Nat)
  | leaving (result : Int)
  | statusSet
  | cleared
  deriving DecidableEq

/-- The thread waits for `export_mutex`, or is about to. -/
def ExportPhase.Locks : ExportPhase → Prop
  | .totals => True
  | .iframe _ => True
  | _ => False

instance (phase : ExportPhase) : Decidable phase.Locks := by
  cases phase <;> unfold ExportPhase.Locks <;> infer_instance

structure ExportThread where
  thid : Nat
  query_info : List RecordQueryInfo
  phase : ExportPhase
  deriving DecidableEq

/-- What `storage_lib_read_frame` returns. -/
inductive ExportFrame
  | none
  | audio
  | iframe
  | other
  deriving DecidableEq

/-- What a step of the thread finds: the disk and whether it can be mounted, what `statfs`
returns, whether a recording and its file can be opened, the next frame, and whether it can be
written. -/
structure ExportIo where
  udisk : Bool
  mount : Bool
  statfs : Option Int
  opens : Bool
  frame : ExportFrame
  writes : Bool
  deriving DecidableEq

/-- The variables of `storage_ext_lib.c`, the threads that there are, whether there is somebody in
`pthread_join`, with the mutex, and what the last call of `storage_ext_get_percent` has reported if
an export was running without an error then. -/
structure Export where
  export_thid : Nat
  export_flag : Bool
  export_status : Int
  export_exit : Bool
  export_num : Nat
  total_iframe : Int
  write_iframe : Int
  threads : List ExportThread
  joining : Bool
  reported : Option Int
  deriving DecidableEq

namespace Export

def init : Export where
  export_thid := 0
  export_flag := false
  export_status := storageErrOk
  export_exit := false
  export_num := 0
  total_iframe := 0
  write_iframe := 0
  threads := []
  joining := false
  reported := none

variable (s : Export)

/-! ## The callers -/

/-- `storage_ext_avi_files`, with whether there is a disk, and whether `malloc` and
`pthread_create` succeed. -/
def aviFiles (query_info : List RecordQueryInfo) (udisk malloc create : Bool) : Export × Int :=
  if query_info = [] then (s, storageErrFault)
  else if !udisk then (s, storageErrNoUdisk)
  else if s.export_flag then (s, storageErrBusy)
  else
    let s := { s with
      export_flag := true
      export_exit := false
      write_iframe := 0
      total_iframe := 0
      export_status := storageErrOk }
    if !malloc then ({ s with export_flag := false }, storageErrFault)
    else
      let s := { s with export_num := query_info.length }
      if !create then (s, storageErrFault)
      else
        let thid := s.export_thid + 1
        ({ s with export_thid := thid, threads := s.threads ++ [⟨thid, query_info, .begin⟩] },
          storageErrOk)

/-- `storage_ext_avi_finish` up to `pthread_join`. -/
def aviFinish : Export :=
  if s.export_flag then { s with export_exit := true, joining := true } else s

/-- `storage_ext_avi_finish` behind it. -/
def joined : Export := { s with export_flag := false, joining := false }

/-- `storage_ext_get_percent`. -/
def percent : Int :=
  if s.export_status = storageErrOk then
    if s.total_iframe > 0 then
      (long32 (s.write_iframe * 100)).tdiv (long32 (s.total_iframe + 1))
    else 0
  else if s.export_status = storageErrFinish then 100
  else s.export_status

/-- An export runs without an error. -/
def Running : Prop := s.export_flag = true ∧ s.export_status = storageErrOk

instance : Decidable s.Running := inferInstanceAs (Decidable (_ ∧ _))

/-- `storage_ext_get_percent`, with a note of what it reports. -/
def getPercent : Export := { s with reported := if s.Running then some s.percent else none }

/-! ## The thread -/

/-- What is added up under the mutex: the I-frames, a `long`, and the sizes. -/
def addUp (query_info : List RecordQueryInfo) : Int × Int :=
  (query_info.take s.export_num).foldl
    (fun sums q => (long32 (sums.1 + q.iframeNum.toInt), sums.2 + q.fragmentSize.toInt))
    (s.total_iframe, 0)

/-- A step of a thread: the variables after it, and where the thread is, if it has not ended. -/
def threadStep (t : ExportThread) (io : ExportIo) : Export × Option ExportPhase :=
  match t.phase with
  | .begin =>
      if !io.udisk then (s, some (.leaving storageErrFault))
      else if !io.mount then (s, some (.leaving storageErrFault))
      else (s, some .totals)
  | .totals =>
      let sums := s.addUp t.query_info
      ({ s with total_iframe := sums.1 }, some (.space sums.2))
  | .space total_size =>
      match io.statfs with
      | none => (s, some (.leaving storageErrFault))
      | some free =>
          if free < total_size then (s, some (.leaving storageErrUdiskSpace))
          else (s, some (.files 0))
  | .files i =>
      if i < s.export_num && !s.export_exit then
        if io.opens then (s, some (.frames i)) else (s, some (.files (i + 1)))
      else (s, some (.leaving storageErrFinish))
  | .frames i =>
      match io.frame with
      | .none => (s, some (.files (i + 1)))
      | .audio => (s, some (.frames i))
      | .iframe => (s, some (.iframe i))
      | .other => (s, some (.writing i))
  | .iframe i => ({ s with write_iframe := long32 (s.write_iframe + 1) }, some (.writing i))
  | .writing i =>
      if !io.writes then (s, some (.files (i + 1)))
      else if s.export_exit then (s, some (.files (i + 1)))
      else (s, some (.frames i))
  | .leaving result => ({ s with export_status := result }, some .statusSet)
  | .statusSet => ({ s with export_flag := false }, some .cleared)
  | .cleared => (s, none)

/-- The threads after a step of the one at a place. -/
def putThread (k : Nat) (t : ExportThread) : Option ExportPhase → Export
  | some phase => { s with threads := s.threads.set k { t with phase := phase } }
  | none => { s with threads := s.threads.eraseIdx k }

end Export

/-! ## Steps -/

/-- A caller does something under the mutex, `pthread_join` returns, or a thread goes on. -/
inductive ExportStep
  | files (query_info : List RecordQueryInfo) (udisk malloc create : Bool)
  | finish
  | joined
  | percent
  | thread (k : Nat) (io : ExportIo)
  deriving DecidableEq

/-- What can be done: nobody gets the mutex while somebody joins, and a join returns when its
thread has ended. -/
def Export.step (s : Export) : ExportStep → Option Export
  | .files query_info udisk malloc create =>
      if s.joining then none else some (s.aviFiles query_info udisk malloc create).1
  | .finish => if s.joining then none else some s.aviFinish
  | .joined =>
      if s.joining ∧ ∀ t ∈ s.threads, t.thid ≠ s.export_thid then some s.joined else none
  | .percent => if s.joining then none else some s.getPercent
  | .thread k io =>
      match s.threads[k]? with
      | none => none
      | some t =>
          if t.phase.Locks ∧ s.joining then none
          else
            let next := s.threadStep t io
            some (next.1.putThread k t next.2)

end Nvr.Storage
