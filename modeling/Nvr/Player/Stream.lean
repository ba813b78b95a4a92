import Nvr.Storage.Types

/-!
# The replay queue of a stream thread

`stream.c`, what one stream thread does to its queue of two records. A record chosen
goes to the second place of the queue, moves up when the first one is free or has to
go, and is read through a handle of the storage. The thread handles one command after
the other; where none is waiting and it does not block, it reads a frame.

Whether the storage opens a record and finds the time, what reading gives and whether
the camera can be connected to are the input of a step. A handle is known by the
record it was opened for. Where a frame is read without a handle, the pointer it
stands for is followed, and there is no step.
-/

namespace Nvr.Player

open Nvr.Storage

/-- `QUERY_BUF_NUM`. -/
def queryBufNum : UInt8 := 2

/-- `file_info`. -/
structure FileInfo where
  query : RecordQueryInfo
  setTime : Int32
  deriving DecidableEq, Inhabited

/-- The place has a record in it: its channel is not -1. -/
def FileInfo.Taken (f : FileInfo) : Prop := f.query.chn ≠ -1

instance (f : FileInfo) : Decidable f.Taken := inferInstanceAs (Decidable (_ ≠ _))

def FileInfo.clear (f : FileInfo) : FileInfo := { f with query := { f.query with chn := -1 } }

/-- A record that the player hands over: one with a channel. -/
abbrev ChosenFile : Type := { f : FileInfo // 0 ≤ f.query.chn }

/-- `STR_THR_STA_..`, those that are ever entered. -/
inductive StreamSta
  | workOn
  | connectRepeat
  | standby
  | pause
  deriving DecidableEq

/-- `GET_STREAM_..`. -/
inductive StreamMode
  | null
  | fromNet
  | fromDisk
  deriving DecidableEq

/-- `stream_ctl` and the variables of `stream_thr_main`, what has to do with the queue. -/
structure StreamCtl where
  strThrSta : StreamSta
  diskHdl : Option FileInfo
  readCmd : StorageReadCmd
  replayInfor0 : FileInfo
  replayInfor1 : FileInfo
  queryNum : UInt8
  playId : UInt32
  getStreamMode : StreamMode
  startRecord : Bool
  exit : Bool

/-- `stream_parameter_init`, over what was on the stack. -/
def streamParameterInit (infor0 infor1 : FileInfo) (readCmd : StorageReadCmd) : StreamCtl where
  strThrSta := .standby
  diskHdl := none
  readCmd := readCmd
  replayInfor0 := infor0.clear
  replayInfor1 := infor1.clear
  queryNum := queryBufNum
  playId := 0
  getStreamMode := .null
  startRecord := false
  exit := false

/-! ## What the storage and the others do -/

/-- What `storage_lib_read_start` comes to: success, a server that refuses (there is a handle
nevertheless), or no server, memory or answer. -/
inductive ReadStart
  | ok
  | refused
  | noAnswer

/-- The two calls that play a record. -/
structure PlayIo where
  start : ReadStart
  setOk : Bool

/-- What a pass over the disk comes to: no buffer is empty; a frame, which is passed on or
skipped; one that cannot be passed on; or none, or not one that is played. -/
inductive DiskPass
  | noBuffer
  | frame
  | notPassed
  | ended (io : PlayIo)

/-- What a pass over the network comes to: nothing or a frame, one that cannot be passed on,
or a camera that is gone. -/
inductive NetPass
  | done
  | notPassed
  | noStream

namespace StreamCtl

variable (hdl : StreamCtl)

/-! ## The functions of the queue -/

/-- `stream_sta_change`. -/
def staChange (sta : StreamSta) : StreamCtl :=
  match sta with
  | .standby =>
      { hdl with
        replayInfor0 := hdl.replayInfor0.clear
        replayInfor1 := hdl.replayInfor1.clear
        queryNum := queryBufNum
        strThrSta := .standby }
  | sta => { hdl with strThrSta := sta }

/-- `stream_save_replay_file`. -/
def saveReplayFile (infor : FileInfo) (playNow : Bool) : StreamCtl :=
  if ¬ hdl.replayInfor1.Taken ∨ playNow then
    let hdl := { hdl with queryNum := hdl.queryNum - 1, replayInfor1 := infor }
    if playNow then { hdl with queryNum := queryBufNum - 1 } else hdl
  else hdl

/-- `stream_replay_file_end`. -/
def replayFileEnd : StreamCtl :=
  { hdl with
    replayInfor0 := hdl.replayInfor0.clear
    queryNum := hdl.queryNum + 1 }

/-- `stream_replay_file_ring`; `none` where it returns -1. -/
def replayFileRing (update : Bool) : Option StreamCtl :=
  if hdl.replayInfor1.Taken ∧ (update ∨ ¬ hdl.replayInfor0.Taken) then
    some { hdl with
      replayInfor0 := hdl.replayInfor1
      replayInfor1 := hdl.replayInfor1.clear }
  else none

/-- `stream_thr_stop_replay_video`. -/
def stopReplayVideo : StreamCtl := { hdl with diskHdl := none }

/-- `stream_replay_file_play`, and whether it returns 0. -/
def replayFilePlay (update : Bool) (io : PlayIo) : StreamCtl × Bool :=
  let hdl := if update then hdl.stopReplayVideo else hdl
  match io.start with
  | .noAnswer => (hdl, false)
  | .refused => ({ hdl with diskHdl := some hdl.replayInfor0 }, false)
  | .ok =>
      ({ hdl with diskHdl := some hdl.replayInfor0 },
        hdl.replayInfor0.setTime = 0 || io.setOk)

/-- `stream_replay_discard_check`. -/
def replayDiscardCheck : StreamCtl :=
  if hdl.replayInfor0.query.endTime ≠ hdl.replayInfor1.query.beginTime ∧
      hdl.replayInfor0.query.beginTime ≠ hdl.replayInfor1.query.endTime then
    { hdl with playId := hdl.playId + 1 }
  else hdl

/-! ## Reading -/

/-- After an error the thread connects again, if it was working. -/
def repeatConnect : StreamCtl :=
  if hdl.strThrSta = .workOn then hdl.staChange .connectRepeat else hdl

/-- `get_disk_over` in `stream_pro_disk_avdata`. -/
def diskOver (io : PlayIo) : StreamCtl × Bool :=
  let hdl := hdl.replayFileEnd.stopReplayVideo.replayDiscardCheck
  match hdl.replayFileRing false with
  | none => (hdl.repeatConnect, false)
  | some hdl =>
      let played := hdl.replayFilePlay false io
      if played.2 then (played.1, true) else (played.1.repeatConnect, false)

/-- `stream_pro_disk_avdata`, and whether it returns 0. It reads with the handle it has. -/
def proDiskAvdata : DiskPass → Option (StreamCtl × Bool)
  | .noBuffer => some (hdl, true)
  | .frame => hdl.diskHdl.map fun _ => (hdl, true)
  | .notPassed => hdl.diskHdl.map fun _ => (hdl.staChange .standby, false)
  | .ended io => hdl.diskHdl.map fun _ => hdl.diskOver io

/-- `stream_pro_net_avdata`. -/
def proNetAvdata : NetPass → StreamCtl
  | .done => hdl
  | .notPassed => hdl.staChange .standby
  | .noStream => hdl.staChange .connectRepeat

end StreamCtl

def StorageReadCmd.isForward : StorageReadCmd → Bool
  | .forward1Iframe | .forward2Iframe | .forward3Iframe | .forward4Iframe => true
  | _ => false

def StorageReadCmd.isBack : StorageReadCmd → Bool
  | .back1Iframe | .back2Iframe | .back3Iframe | .back4Iframe => true
  | _ => false

/-- How many frames `stream_find_frame_pos` has discarded. The frame it refers to is not
used. -/
def streamFindFramePos (curCmd backCmd : StorageReadCmd) : Nat :=
  let cur := if curCmd = .forwardVideoFrame then .normal else curCmd
  let back := if backCmd = .forwardVideoFrame then .normal else backCmd
  if back = .normal ∧ StorageReadCmd.isBack cur then 3
  else if StorageReadCmd.isForward back ∧ cur = .normal then 4
  else if StorageReadCmd.isForward back ∧ StorageReadCmd.isBack cur then 3
  else if StorageReadCmd.isBack back ∧ cur = .normal then 4
  else if StorageReadCmd.isBack back ∧ StorageReadCmd.isForward cur then 4
  else 0

/-- `stream_video_continue`; `none` where it returns -1. -/
def StreamCtl.videoContinue (hdl : StreamCtl) (curCmd : StorageReadCmd) : Option StreamCtl :=
  if hdl.diskHdl = none then none
  else if 0 < streamFindFramePos curCmd hdl.readCmd then
    some { hdl with playId := hdl.playId + 1, readCmd := curCmd }
  else some hdl

/-- The way of reading for a rate: normal and fast (0 to 3), fast by the I frames (4 to 6),
back (7 to 9), slow (10 to 12). -/
def readCmdOfRate (rate : Nat) (readCmd : StorageReadCmd) : StorageReadCmd :=
  match rate with
  | 7 => .back1Iframe
  | 8 => .back2Iframe
  | 9 => .back3Iframe
  | 0 | 1 | 2 | 3 | 10 | 11 | 12 => .normal
  | 4 | 5 | 6 => .forward1Iframe
  | _ => readCmd

/-! ## Commands -/

/-- What a pass of the thread finds: one of the commands, or none in time. -/
inductive StreamCmd
  | standby
  | pause (on : Bool)
  | queryPlayTime
  | setRate (rate : Nat)
  | chooseFile (infor : ChosenFile) (updateNow : Bool) (io : PlayIo)
  | singleFrame (down : Bool) (pass : DiskPass)
  | workOnAlready (record : StreamMode) (connected : Bool)
  | connect
  | standbyAlready
  | waitCmdAlready
  | setAudio
  | exit
  | noMessage (disk : DiskPass) (net : NetPass) (connected : Bool)

namespace StreamCtl

variable (hdl : StreamCtl)

/-- `STREAM_CMD_STANDBY`. -/
def standby : StreamCtl :=
  let hdl :=
    if hdl.strThrSta ≠ .standby ∧ hdl.getStreamMode = .fromDisk then hdl.stopReplayVideo else hdl
  hdl.staChange .standby

/-- `STREAM_CMD_PAUSE`. -/
def pause (on : Bool) : StreamCtl :=
  if hdl.strThrSta = .standby then hdl
  else if on then hdl.staChange .pause
  else
    match hdl.videoContinue hdl.readCmd with
    | some hdl => hdl.staChange .workOn
    | none => hdl.staChange .connectRepeat

/-- `STREAM_CMD_SET_RATE`. -/
def setRate (rate : Nat) : StreamCtl :=
  let cmd := readCmdOfRate rate hdl.readCmd
  if hdl.readCmd = cmd then hdl
  else { (hdl.videoContinue cmd).getD hdl.repeatConnect with readCmd := cmd }

/-- The record that has moved up is played; `start_record` says whether it is. -/
def playChosen (updateNow : Bool) (io : PlayIo) : StreamCtl :=
  let played := hdl.replayFilePlay updateNow io
  if played.2 then
    let hdl : StreamCtl := { played.1 with startRecord := true }
    if hdl.strThrSta = .connectRepeat then hdl.staChange .workOn else hdl
  else
    let hdl : StreamCtl := { played.1.replayFileEnd with startRecord := false }
    hdl.repeatConnect

/-- `STREAM_CMD_CHOOSE_FILE`. -/
def chooseFile (infor : FileInfo) (updateNow : Bool) (io : PlayIo) : StreamCtl :=
  let hdl := (hdl.saveReplayFile infor updateNow).replayDiscardCheck
  match hdl.replayFileRing updateNow with
  | none => hdl
  | some hdl => hdl.playChosen updateNow io

/-- `STREAM_CMD_SINGLE_FRAME`. -/
def singleFrame (down : Bool) (pass : DiskPass) : Option StreamCtl :=
  if hdl.strThrSta ≠ .pause then some hdl
  else
    let cmd := if down then .forwardVideoFrame else .back1Iframe
    match hdl.videoContinue cmd with
    | none => some (hdl.staChange .pause)
    | some hdl =>
        let hdl : StreamCtl := { hdl with readCmd := cmd }
        (hdl.proDiskAvdata pass).map fun done =>
          if done.2 then done.1 else done.1.staChange .pause

/-- `DECODE_CMD_WORK_ON_ALREADY`. -/
def workOnAlready (record : StreamMode) (connected : Bool) : StreamCtl :=
  if hdl.strThrSta ≠ .standby then hdl
  else
    match record with
    | .fromDisk =>
        { hdl with getStreamMode := .fromDisk }.staChange
          (if hdl.startRecord then .workOn else .connectRepeat)
    | mode =>
        let readCmd := if mode = .fromNet then .normal else hdl.readCmd
        { hdl with getStreamMode := .fromNet, readCmd := readCmd }.staChange
          (if connected then .workOn else .connectRepeat)

/-- No command is there. -/
def noMessage (disk : DiskPass) (net : NetPass) (connected : Bool) : Option StreamCtl :=
  match hdl.strThrSta with
  | .workOn =>
      if hdl.getStreamMode = .fromDisk then (hdl.proDiskAvdata disk).map Prod.fst
      else some (hdl.proNetAvdata net)
  | .connectRepeat =>
      if hdl.getStreamMode = .fromNet ∧ connected then some (hdl.staChange .workOn) else some hdl
  | .standby | .pause => some hdl

/-- One pass of `stream_thr_main`. -/
def step : StreamCmd → Option StreamCtl
  | cmd =>
      if hdl.exit then none
      else
        match cmd with
        | .standby => some hdl.standby
        | .pause on => some (hdl.pause on)
        | .setRate rate => some (hdl.setRate rate)
        | .chooseFile infor updateNow io => some (hdl.chooseFile infor updateNow io)
        | .singleFrame down pass => hdl.singleFrame down pass
        | .workOnAlready record connected => some (hdl.workOnAlready record connected)
        | .exit => some { hdl with exit := hdl.strThrSta = .standby }
        | .noMessage disk net connected => hdl.noMessage disk net connected
        -- these only send messages
        | .queryPlayTime | .connect | .standbyAlready | .waitCmdAlready | .setAudio => some hdl

end StreamCtl

end Nvr.Player
