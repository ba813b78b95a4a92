import Mathlib
import Nvr.Lib.FixedWidth
import Nvr.Lib.Slot
import Nvr.Storage.Types

/-!
# Starting and stopping recordings around a format

`strg_record.c`: which channels record is kept in their `RecordWriteInfo` and
once more in the bits of `g_record_chn`. A format stops all of them, and starts
those again that are to go on; until then a stop that is asked for only changes
`g_record_chn_bak`.
-/

namespace Nvr.Storage

open Slot

/-- `RecordWriteInfo`: the fields that starting and stopping uses. -/
structure RecordWriteInfo where
  chn : Chn
  stream : Int32
  enable : Bool
  recordType : RecordType
  deriving DecidableEq, Repr

/-- The statics of the file. -/
structure Recorder where
  writeInfo : Chn → RecordWriteInfo
  formatStatus : Bool
  recordChn : UInt32
  recordChnBak : UInt32

/-- `strg_record_init`. -/
def strgRecordInit : Recorder where
  writeInfo _ := ⟨0, 0, false, 0⟩
  formatStatus := false
  recordChn := 0
  recordChnBak := 0

/-- `mask & (1 << chn)`. -/
def HasChn (mask : UInt32) (chn : Chn) : Prop := Flag.Has mask (chnBit (chnWord chn))

instance (mask : UInt32) (chn : Chn) : Decidable (HasChn mask chn) :=
  inferInstanceAs (Decidable (Flag.Has _ _))

def strgRecordStart (r : Recorder) (chn : Chn) (stream : Int32) (recordType : RecordType) :
    Int × Recorder :=
  if ¬ stream < 2 then (-1, r)
  else if r.formatStatus then (-1, r)
  else if (r.writeInfo chn).enable then (0, r)
  else
    (0, { r with
      writeInfo := Function.update r.writeInfo chn ⟨chn, stream, true, recordType⟩
      recordChn := r.recordChn ||| chnBit (chnWord chn) })

/-- `__strg_record_stop`. -/
def strgRecordStopNow (r : Recorder) (chn : Chn) : Recorder :=
  { r with
    writeInfo := Function.update r.writeInfo chn { r.writeInfo chn with enable := false }
    recordChn := r.recordChn &&& ~~~chnBit (chnWord chn) }

def strgRecordStop (r : Recorder) (chn : Chn) : Recorder :=
  if r.formatStatus then
    { r with recordChnBak := r.recordChnBak + ~~~chnBit (chnWord chn) }
  else strgRecordStopNow r chn

/-- The loop that stops every channel. -/
def stopAll (r : Recorder) : Recorder := (List.finRange maxChn).foldl strgRecordStopNow r

/-- The loop of `__strg_record_format_disk_func` after a format that could not
be started: the channels of `record_chn` are started again. -/
def restartRecordChn (recordChn : UInt32) (r : Recorder) : Recorder :=
  (List.finRange maxChn).foldl
    (fun r chn =>
      if HasChn recordChn chn then
        (strgRecordStart r chn (r.writeInfo chn).stream (r.writeInfo chn).recordType).2
      else r) r

/-- The loop of `strg_record_format_disk_stop`. -/
def restartRecordChnBak (r : Recorder) : Recorder :=
  (List.finRange maxChn).foldl
    (fun r chn =>
      if HasChn r.recordChnBak chn then
        (strgRecordStart r (r.writeInfo chn).chn (r.writeInfo chn).stream
          (r.writeInfo chn).recordType).2
      else r) r

/-! ## A format and what is asked meanwhile -/

/-- How far a format is: none; `g_format_status` set; the bits kept in
`g_record_chn_bak` and the thread created; the recordings stopped, with
`record_chn` of the thread; and the disk being formatted. -/
inductive FormatAt where
  | idle
  | entered
  | started
  | closed (recordChn : UInt32)
  | formatting
  deriving DecidableEq

/-- A format that has ended: the channels that recorded when it began, the stops
asked for before and after their bits were kept, whether it was started at all,
the number in each channel's record, and the channels that record after it. -/
structure Format where
  begun : Chn → Bool
  early : List Chn
  late : List Chn
  ok : Bool
  chns : Chn → Chn
  restarted : Chn → Bool

/-- The program with the history of its formats; `begun`, `early` and `late` are
those of the one that runs. -/
structure FormatState where
  mng : Recorder
  phase : FormatAt
  begun : Chn → Bool
  early : List Chn
  late : List Chn
  formats : List Format

/-- The calls, and `next`, which takes a format a step further; `ok` is whether
`strg_mng_format_disk_start` succeeds, asked where that is the step. -/
inductive RecordCall where
  | start (chn : Chn) (stream : Int32) (recordType : RecordType)
  | stop (chn : Chn)
  | format
  | next (ok : Bool)

namespace FormatState

/-- Which channels record. -/
def recording (r : Recorder) (chn : Chn) : Bool := (r.writeInfo chn).enable

/-- The state after `strg_record_init`. -/
def init : FormatState := ⟨strgRecordInit, .idle, fun _ => false, [], [], []⟩

/-- A stop, noted if a format runs. -/
def stop (s : FormatState) (chn : Chn) : FormatState :=
  let s' := { s with mng := strgRecordStop s.mng chn }
  match s.phase with
  | .idle => s'
  | .entered => { s' with early := chn :: s.early }
  | _ => { s' with late := chn :: s.late }

/-- The format has ended, and the recordings have been started again by `restart`. -/
def finish (s : FormatState) (ok : Bool) (restart : Recorder → Recorder) : FormatState :=
  let r := restart { s.mng with formatStatus := false }
  { s with
    mng := r
    phase := .idle
    formats := s.formats ++
      [⟨s.begun, s.early, s.late, ok, fun chn => (s.mng.writeInfo chn).chn, recording r⟩] }

/-- The next step of the format that runs: `g_record_chn_bak` is set, the
recordings are stopped, the disk is formatted, `strg_record_format_disk_stop`. -/
def next (s : FormatState) (ok : Bool) : FormatState :=
  match s.phase with
  | .idle => s
  | .entered =>
      { s with mng := { s.mng with recordChnBak := s.mng.recordChn }, phase := .started }
  | .started => { s with mng := stopAll s.mng, phase := .closed s.mng.recordChn }
  | .closed recordChn =>
      if ok then { s with phase := .formatting } else s.finish false (restartRecordChn recordChn)
  | .formatting => s.finish true restartRecordChnBak

def call (s : FormatState) : RecordCall → FormatState
  | .start chn stream recordType =>
      { s with mng := (strgRecordStart s.mng chn stream recordType).2 }
  | .stop chn => s.stop chn
  | .format =>
      if s.mng.formatStatus then s
      else
        { s with
          mng := { s.mng with formatStatus := true }
          phase := .entered
          begun := recording s.mng
          early := []
          late := [] }
  | .next ok => s.next ok

end FormatState

/-- The channels that are started again are those that recorded when the format
began and for which no stop was asked for. -/
def Format.RestartsRight (f : Format) : Prop :=
  ∀ chn, f.restarted chn = (f.begun chn && !(f.early ++ f.late).contains chn)

/-- What the stops take off `g_record_chn_bak`. -/
def Format.taken (f : Format) : Nat := (f.late.map fun chn => 2 ^ chn.val + 1).sum

/-- The bits of the channels that are not to be started again. -/
def Format.owed (f : Format) : Nat :=
  ((List.finRange maxChn).map fun chn =>
    if f.begun chn && (f.early ++ f.late).contains chn then 2 ^ chn.val else 0).sum

/-- What the stops take off are the bits they should, as far as there are
channels; and if the disk could not be formatted, no recording was to be stopped. -/
def Format.Spared (f : Format) : Prop :=
  if f.ok then f.taken % 2 ^ maxChn = f.owed % 2 ^ maxChn
  else ∀ chn ∈ f.early ++ f.late, f.begun chn = false

end Nvr.Storage
