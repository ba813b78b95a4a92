import Nvr.Lib.FixedWidth
import Nvr.Storage.Types

/-!
# When a channel records

`nvr_rec.c`. Every ten seconds, and whenever an alarm, a key or a new
configuration asks for it, `nvr_rec_ctrl` looks at one channel and decides
whether its recording is started, stopped or left alone. The statics of the
file are `NvrRec`: one flag for all channels and a `RecChannel` for each.

The storage library is called and answers; a call of `nvr_rec_ctrl` returns
the calls it made and takes the answers as its input. At most one of the calls
it makes is a start, so one answer stands for all of them.
-/

namespace Nvr.Server

open Nvr.Storage

/-! ## The configuration of a channel -/

/-- `NVR_SEGMENT_S`: seconds of the day, both ends included. -/
structure Segment where
  u8Open : UInt8
  beginSec : BitVec 24
  endSec : BitVec 24

/-- `NVR_DEV_REC_STRC_S`. Column 0 of the segments is for every day, column 1
for Sundays. -/
structure RecCfg where
  u8OverWrite : UInt8
  u8RecStream : UInt8
  u8Enable : UInt8
  u8RecType : UInt8
  struTimerSeg : Fin 4 → Fin 8 → Segment

/-- `time(NULL)`, and `tm_wday` of its local time. -/
structure Clock where
  curT : Int
  tmWday : Fin 7

/-- The second `t` of a day is in an open segment. -/
def Segment.isIn (seg : Segment) (t : Int) : Bool :=
  seg.u8Open ≠ 0 && seg.beginSec.toNat ≤ t && t ≤ seg.endSec.toNat

def nvrRecIsInSegment (recCfg : RecCfg) (clock : Clock) : Bool :=
  let t := clock.curT.tmod (24 * 60 * 60)
  let day : Fin 8 := ⟨(clock.tmWday.val + 1) % 8, by omega⟩
  (List.finRange 4).any (fun seg => (recCfg.struTimerSeg seg 0).isIn t) ||
    (List.finRange 4).any (fun seg => (recCfg.struTimerSeg seg day).isIn t)

/-! ## The state -/

/-- What the file knows of one channel. -/
structure RecChannel where
  startRec : Bool
  recType : RecordType
  overwrite : Int
  alarmHappen : Int
  alarmSec : Int
  manualRec : Int

structure NvrRec where
  needSetMinutes : Bool
  chn : Chn → RecChannel

/-- The statics as the program starts. -/
def nvrRecInit : NvrRec where
  needSetMinutes := true
  chn _ := ⟨false, 0, -1, 0, 0, 0⟩

def NvrRec.setChn (s : NvrRec) (chn : Chn) (c : RecChannel) : NvrRec :=
  { s with chn := Function.update s.chn chn c }

@[simp] theorem NvrRec.setChn_self (s : NvrRec) (chn : Chn) (c : RecChannel) :
    (s.setChn chn c).chn chn = c := Function.update_self ..

theorem NvrRec.setChn_of_ne (s : NvrRec) {chn chn' : Chn} (h : chn ≠ chn') (c : RecChannel) :
    (s.setChn chn' c).chn chn = s.chn chn := Function.update_of_ne h ..

/-- A call of the storage library. -/
inductive StorageCall where
  | recordSetMinutes (minutes : Nat)
  | recordSetOverwrite (chn : Chn) (overwrite : UInt8)
  | recordStart (chn : Chn) (stream : UInt8) (recordType : RecordType)
  | recordStop (chn : Chn)
  deriving DecidableEq

/-- What the program is told during one call of `nvr_rec_ctrl`: whether the
operator's platform is in use, and what the storage library returns. -/
structure Replies where
  dianxinIsUsed : Bool
  recordSetMinutes : Int
  recordSetOverwrite : Int
  recordStart : Int

/-! ## `nvr_rec_ctrl` -/

/-- What is done to the channel, and what is called for it. -/
abbrev Ctrl := RecChannel → RecChannel × List StorageCall

/-- `storage_lib_record_stop`, and the channel is idle. -/
def stopRec (chn : Chn) : Ctrl := fun c =>
  ({ c with startRec := false, recType := 0 }, [.recordStop chn])

/-- `storage_lib_record_start`, and the channel records if it returned 0. -/
def beginRec (chn : Chn) (recCfg : RecCfg) (replies : Replies) (type : RecordType) : Ctrl :=
  fun c =>
    (if replies.recordStart = 0 then { c with startRec := true, recType := type } else c,
      [.recordStart chn recCfg.u8RecStream type])

/-- The channel is left alone. -/
def keepRec : Ctrl := fun c => (c, [])

/-- One thing after the other. -/
def Ctrl.andThen (f g : Ctrl) : Ctrl := fun c =>
  ((g (f c).1).1, (f c).2 ++ (g (f c).1).2)

/-- The recording of a channel that records by hand. -/
def ctrlManual (chn : Chn) (recCfg : RecCfg) (replies : Replies) : Ctrl :=
  Ctrl.andThen
    (fun c =>
      if c.startRec ∧ ¬ Flag.Has c.recType recordManualType then stopRec chn c else keepRec c)
    (fun c =>
      if ¬ c.startRec then beginRec chn recCfg replies recordManualType c else keepRec c)

/-- A recording by hand ends with the key that started it. -/
def endManual (chn : Chn) : Ctrl := fun c =>
  if c.startRec ∧ Flag.Has c.recType recordManualType then stopRec chn c else keepRec c

/-- `u8RecType == 1`: by schedule. -/
def ctrlTime (chn : Chn) (recCfg : RecCfg) (clock : Clock) (replies : Replies) : Ctrl := fun c =>
  let bIn := nvrRecIsInSegment recCfg clock
  if bIn ∧ ¬ c.startRec then beginRec chn recCfg replies recordTimeType c
  else if ¬ bIn ∧ c.startRec then stopRec chn c
  else keepRec c

/-- `u8RecType == 2`: by alarm. -/
def ctrlAlarm (chn : Chn) (recCfg : RecCfg) (replies : Replies) (alarm : Bool) : Ctrl := fun c =>
  if alarm ∧ ¬ c.startRec then
    beginRec chn recCfg replies recordAlarmType { c with alarmSec := 0 }
  else if ¬ alarm ∧ c.startRec then
    -- the increment is not reached for a recording that is not of the alarm type
    if ¬ Flag.Has c.recType recordAlarmType then stopRec chn c
    else if 60 ≤ c.alarmSec + 1 then stopRec chn { c with alarmSec := c.alarmSec + 1 }
    else keepRec { c with alarmSec := c.alarmSec + 1 }
  else if alarm then keepRec { c with alarmSec := 0 }
  else keepRec c

/-- `u8RecType == 3`: by schedule and by alarm. -/
def ctrlTimeAlarm (chn : Chn) (recCfg : RecCfg) (clock : Clock) (replies : Replies)
    (alarm : Bool) : Ctrl := fun c =>
  let bIn := nvrRecIsInSegment recCfg clock
  if ¬ c.startRec ∧ (bIn ∨ alarm) then
    let type := (if bIn then recordTimeType else 0) ||| (if alarm then recordAlarmType else 0)
    beginRec chn recCfg replies type (if alarm then { c with alarmSec := 0 } else c)
  else if c.startRec ∧ ¬ bIn ∧ ¬ alarm then
    if ¬ Flag.Has c.recType recordAlarmType then stopRec chn c
    else if 60 ≤ c.alarmSec + 1 then stopRec chn { c with alarmSec := c.alarmSec + 1 }
    else keepRec { c with alarmSec := c.alarmSec + 1 }
  else keepRec c

/-- `u8RecType == 0`, and every other value: always. -/
def ctrlStartup (chn : Chn) (recCfg : RecCfg) (replies : Replies) : Ctrl := fun c =>
  if ¬ c.startRec then beginRec chn recCfg replies recordStartupType c else keepRec c

/-- The part of `nvr_rec_ctrl` for a channel that does not record by hand. -/
def ctrlConfigured (chn : Chn) (recCfg : RecCfg) (clock : Clock) (replies : Replies) : Ctrl :=
  fun c =>
    let alarm := decide (c.alarmHappen ≠ 0)
    if recCfg.u8Enable ≠ 0 then
      if recCfg.u8RecType = 1 then ctrlTime chn recCfg clock replies c
      else if recCfg.u8RecType = 2 then ctrlAlarm chn recCfg replies alarm c
      else if recCfg.u8RecType = 3 then ctrlTimeAlarm chn recCfg clock replies alarm c
      else ctrlStartup chn recCfg replies c
    else if c.startRec then stopRec chn c
    else keepRec c

/-- `gOverwrite[chn]` follows the configuration. -/
def ctrlOverwrite (chn : Chn) (recCfg : RecCfg) (replies : Replies) : Ctrl := fun c =>
  if c.overwrite ≠ recCfg.u8OverWrite.toNat then
    (if 0 ≤ replies.recordSetOverwrite then { c with overwrite := recCfg.u8OverWrite.toNat } else c,
      [.recordSetOverwrite chn recCfg.u8OverWrite])
  else keepRec c

/-- The channel's part of `nvr_rec_ctrl`. -/
def ctrlChn (chn : Chn) (recCfg : RecCfg) (clock : Clock) (replies : Replies) : Ctrl :=
  (ctrlOverwrite chn recCfg replies).andThen fun c =>
    if c.manualRec ≠ 0 then ctrlManual chn recCfg replies c
    else (endManual chn).andThen (ctrlConfigured chn recCfg clock replies) c

/-- The fragments of the operator's platform are at most 15 minutes long; it is
asked for once. -/
def ctrlMinutes (replies : Replies) (needSetMinutes : Bool) : Bool × List StorageCall :=
  if needSetMinutes then
    if replies.dianxinIsUsed then
      (decide (replies.recordSetMinutes < 0), [.recordSetMinutes 15])
    else (false, [])
  else (needSetMinutes, [])

def nvrRecCtrl (chn : Chn) (recCfg : RecCfg) (clock : Clock) (replies : Replies) (s : NvrRec) :
    NvrRec × List StorageCall :=
  let minutes := ctrlMinutes replies s.needSetMinutes
  let ctrl := ctrlChn chn recCfg clock replies (s.chn chn)
  ({ s with needSetMinutes := minutes.1 }.setChn chn ctrl.1, minutes.2 ++ ctrl.2)

/-! ## What else writes the state -/

def nvrRecAlarm (chn : Chn) (happen : Int) (s : NvrRec) : NvrRec :=
  s.setChn chn { s.chn chn with alarmHappen := happen }

def nvrRecManual (chn : Chn) (start : Int) (s : NvrRec) : NvrRec :=
  s.setChn chn { s.chn chn with manualRec := start }

end Nvr.Server
