import Nvr.Storage.DiskLoad

/-!
# The storage manager

`strg_mng.c`, as far as recording and playing back go. The manager has the
disks, remembers which of them each channel writes to, and holds the mask of
the channels whose footage may be overwritten.

A start is tried on every disk, and then, if any channel may be overwritten,
once more on every disk whose generation can be moved on. A disk that is not
mounted is `none`; the handle of a reader is a disk and a number on it.
-/

namespace Nvr.Storage

structure StorageMng where
  diskNum : Nat
  dm : Nat → Option DiskMng
  chnWriteDiskIdx : Chn → Option Nat
  overwrite : UInt32

namespace StorageMng

/-- Disk `i` has changed. -/
def setDisk (m : StorageMng) (i : Nat) (dm : DiskMng) : StorageMng :=
  { m with dm := Function.update m.dm i (some dm) }

/-- The channel writes to disk `i`, or to none. -/
def setWriteDisk (m : StorageMng) (chn : Chn) (i : Option Nat) : StorageMng :=
  { m with chnWriteDiskIdx := Function.update m.chnWriteDiskIdx chn i }

end StorageMng

/-- The overwrite mask with every channel in it. -/
def overwriteAll : UInt32 := 0xf

/-- `strg_mng_init`, with the disks that `strg_disk_open` has returned. -/
def strgMngInit (disks : List (Option DiskMng)) : StorageMng where
  diskNum := disks.length
  dm i := disks.getD i none
  chnWriteDiskIdx _ := none
  overwrite := overwriteAll

/-- One attempt of a start on disk `i`; `none` if it goes on for ever. -/
def startOn (chn : Chn) (recordType : RecordType) (fuel : Nat) (m : StorageMng) (i : Nat)
    (dm : DiskMng) : Option (Bool × StorageMng) :=
  match strgDiskWriteStart chn recordType m.overwrite fuel dm with
  | none => none
  | some (ret, dm) =>
      if 0 ≤ ret then some (true, (m.setDisk i dm).setWriteDisk chn (some i))
      else some (false, m.setDisk i dm)

/-- The first loop of `strg_mng_write_start`: whether it found a disk. -/
def startPlain (chn : Chn) (recordType : RecordType) (fuel : Nat) :
    List Nat → StorageMng → Option (Bool × StorageMng)
  | [], m => some (false, m)
  | i :: rest, m =>
      match m.dm i with
      | none => startPlain chn recordType fuel rest m
      | some dm =>
          match startOn chn recordType fuel m i dm with
          | none => none
          | some (true, m) => some (true, m)
          | some (false, m) => startPlain chn recordType fuel rest m

/-- The second loop, over the disks whose generation can be moved on. -/
def startReset (chn : Chn) (recordType : RecordType) (fuel : Nat) :
    List Nat → StorageMng → Option (Bool × StorageMng)
  | [], m => some (false, m)
  | i :: rest, m =>
      match m.dm i with
      | none => startReset chn recordType fuel rest m
      | some dm =>
          let reset := strgDiskReset dm m.overwrite
          let m := m.setDisk i reset.2
          if reset.1 < 0 then startReset chn recordType fuel rest m
          else
            match startOn chn recordType fuel m i reset.2 with
            | none => none
            | some (true, m) => some (true, m)
            | some (false, m) => startReset chn recordType fuel rest m

def strgMngWriteStart (m : StorageMng) (chn : Chn) (recordType : RecordType) (fuel : Nat) :
    Option (Int × StorageMng) :=
  match startPlain chn recordType fuel (List.range m.diskNum) m with
  | none => none
  | some (true, m) => some (0, m)
  | some (false, m) =>
      if m.overwrite = 0 then some (-1, m)
      else
        match startReset chn recordType fuel (List.range m.diskNum) m with
        | none => none
        | some (found, m) => some (if found then 0 else -1, m)

def strgMngWriteStop (m : StorageMng) (chn : Chn) : StorageMng :=
  match m.chnWriteDiskIdx chn with
  | none => m
  | some i =>
      match m.dm i with
      | none => m.setWriteDisk chn none
      | some dm => (m.setDisk i (strgDiskWriteStop dm chn)).setWriteDisk chn none

def strgMngWrite (m : StorageMng) (chn : Chn) (minutes : Int32) (curTime : UInt64) (f : Frame) :
    Int × StorageMng :=
  match m.chnWriteDiskIdx chn with
  | none => (-1, m)
  | some i =>
      match m.dm i with
      | none => (-1, m)
      | some dm =>
          let written := strgDiskWrite dm chn minutes curTime f
          (written.1, m.setDisk i written.2)

def strgMngWriteSetType (m : StorageMng) (chn : Chn) (type : RecordType) : Int × StorageMng :=
  match m.chnWriteDiskIdx chn with
  | none => (-1, m)
  | some i =>
      match m.dm i with
      | none => (-1, m)
      | some dm =>
          let set := strgDiskWriteSetType dm chn type
          (set.1, m.setDisk i set.2)

def strgMngWriteSetOverwrite (m : StorageMng) (chn : Chn) (overwrite : Bool) : StorageMng :=
  { m with
    overwrite :=
      if overwrite then m.overwrite ||| chnBit (chnWord chn)
      else m.overwrite &&& ~~~chnBit (chnWord chn) }

/-- `strg_mng_read_start`, on a disk index that is not negative: below zero the
program reads outside of its array. -/
def strgMngReadStart (m : StorageMng) (q : RecordQueryInfo) :
    Option ((Nat × Nat) × StorageFragmentInfo) × StorageMng :=
  let i := q.diskIdx.toNatClampNeg
  if i < m.diskNum then
    match m.dm i with
    | none => (none, m)
    | some dm =>
        let started := strgDiskReadStart dm q
        (started.1.map fun h => ((i, h.1), h.2), m.setDisk i started.2)
  else (none, m)

def strgMngReadStop (m : StorageMng) (handle : Nat × Nat) : StorageMng :=
  match m.dm handle.1 with
  | none => m
  | some dm => m.setDisk handle.1 (strgDiskReadStop dm handle.2)

/-- `strg_disk_reset` of disk `i` alone. -/
def StorageMng.resetDisk (m : StorageMng) (i : Nat) : StorageMng :=
  match m.dm i with
  | none => m
  | some dm => m.setDisk i (strgDiskReset dm m.overwrite).2

/-- What the manager is asked for. `diskReset` is `strg_disk_reset` of one disk
with the manager's mask, as the second loop of a start calls it. -/
inductive MngOp where
  | writeStart (chn : Chn) (recordType : RecordType)
  | write (chn : Chn) (minutes : Int32) (curTime : UInt64) (f : Frame)
  | writeStop (chn : Chn)
  | writeSetType (chn : Chn) (type : RecordType)
  | setOverwrite (chn : Chn) (overwrite : Bool)
  | readStart (q : RecordQueryInfo)
  | readStop (handle : Nat × Nat)
  | diskReset (i : Nat)

/-- The manager after the operation, if it comes to an end. -/
def MngOp.Does (m : StorageMng) : MngOp → StorageMng → Prop
  | .writeStart chn recordType, m' =>
      ∃ fuel r, strgMngWriteStart m chn recordType fuel = some (r, m')
  | .write chn minutes curTime f, m' => m' = (strgMngWrite m chn minutes curTime f).2
  | .writeStop chn, m' => m' = strgMngWriteStop m chn
  | .writeSetType chn type, m' => m' = (strgMngWriteSetType m chn type).2
  | .setOverwrite chn overwrite, m' => m' = strgMngWriteSetOverwrite m chn overwrite
  | .readStart q, m' => m' = (strgMngReadStart m q).2
  | .readStop handle, m' => m' = strgMngReadStop m handle
  | .diskReset i, m' => m' = m.resetDisk i

end Nvr.Storage
