import Mathlib.Algebra.Group.Int.Defs
import Mathlib.Algebra.Group.Nat.Defs
import Mathlib.Data.List.Basic

/-!
# The audio recording thread

`audio_record_thr_main` of `audio_record.c`: one poll of its loop, on the command that
`audio_record_set_cmd` has left in one byte. The sound device and the pool are modelled by the
calls that are made to them; what is recorded, and its encoding, is left out.
-/

namespace Nvr.Player

/-- `AUDIO_RECORD_START_CMD`. -/
def audioRecordStartCmd : UInt8 := 1

/-- `AUDIO_RECORD_STOP_CMD`. -/
def audioRecordStopCmd : UInt8 := 2

/-- `AUDIO_RECORD_EXIT_CMD`. -/
def audioRecordExitCmd : UInt8 := 3

/-- `AUDIO_RECORD_STA_RUNNING` and so on. -/
inductive AudioRecordSta
  | running
  | stop
  | exit
  deriving DecidableEq

/-- `AV_AUDIO_INFO_S`. -/
structure AvAudioInfo where
  u8AudioSamples : UInt8
  u16EncodeType : UInt8
  u8AudioChannels : UInt8
  u8AudioBits : UInt8
  deriving DecidableEq

/-- What the thread does outside: `audio_record_init`, `audio_record_exit`,
`av_pool_start_write_frame`, `av_pool_stop_write_frame`, and `av_pool_write_frame` with the
number of the frame; each of them where it succeeds. -/
inductive RecordEffect
  | deviceInit
  | deviceExit
  | startWrite
  | stopWrite
  | frame (u32FrameNo : UInt32)
  deriving DecidableEq

/-- The byte of the command, the variables of the thread, and what it has done. -/
structure AudioRecord where
  audio_record : UInt8
  start_cnt : UInt32
  record_sta : AudioRecordSta
  av_audio_hdl : Bool
  u32FrameNo : UInt32
  exit : Bool
  log : List RecordEffect
  deriving DecidableEq

/-- What a poll finds: the parameters of `audio_record_get_rec_par`, and whether
`av_pool_start_write_frame`, `audio_record_get_stram` and `av_pool_write_frame` succeed. -/
structure RecordIo where
  par : AvAudioInfo
  startWrite : Bool
  stream : Bool
  write : Bool
  deriving DecidableEq

/-- `audio_record_rec_init` gets as far as the device. -/
def audioRecordRecInit (head : AvAudioInfo) : Bool :=
  if head.u8AudioBits ≠ 8 && head.u8AudioBits ≠ 16 then false
  else if head.u8AudioSamples = 0 then true
  else if head.u8AudioSamples = 1 then true
  else if head.u8AudioSamples = 2 then true
  else if head.u8AudioSamples = 3 then true
  else false

namespace AudioRecord

/-- The thread before its first poll. -/
def init : AudioRecord where
  audio_record := 0
  start_cnt := 0
  record_sta := .stop
  av_audio_hdl := false
  u32FrameNo := 1
  exit := false
  log := []

variable (s : AudioRecord)

/-- `audio_record_set_cmd`. -/
def setCmd (cmd : UInt8) : AudioRecord := { s with audio_record := cmd }

def did (effect : RecordEffect) : AudioRecord := { s with log := s.log ++ [effect] }

/-- The device is opened where the parameters are good, and else `audio_record_exit`. -/
def initDevice (io : RecordIo) : AudioRecord :=
  if audioRecordRecInit io.par then { s with record_sta := .running }.did .deviceInit
  else { s with record_sta := .stop }.did .deviceExit

def startWriter (io : RecordIo) : AudioRecord :=
  if io.startWrite then { s with av_audio_hdl := true }.did .startWrite
  else { s with record_sta := .stop }.did .deviceExit

/-- The handling of a command. The two tests of the state are assignments in the source, which
are true and stay. -/
def takeCmd (record_cmd : UInt8) (io : RecordIo) : AudioRecord :=
  if record_cmd = audioRecordStartCmd then
    let s := { s with record_sta := .stop }
    let s := if s.start_cnt = 0 then (s.initDevice io).startWriter io else s
    { s with start_cnt := s.start_cnt + 1 }
  else if record_cmd = audioRecordStopCmd then
    let s := { s with record_sta := .running, start_cnt := s.start_cnt - 1 }
    if s.start_cnt = 0 then
      { ({ s with record_sta := .stop }.did .deviceExit).did .stopWrite with
        av_audio_hdl := false, u32FrameNo := 1 }
    else s
  else if record_cmd = audioRecordExitCmd then
    { ({ s with exit := true, record_sta := .exit }.did .deviceExit).did .stopWrite with
      av_audio_hdl := false }
  else s

/-- What the state makes the thread do in a poll. -/
def record (io : RecordIo) : AudioRecord :=
  if s.record_sta = .running && io.stream && io.write then
    { s.did (.frame s.u32FrameNo) with u32FrameNo := s.u32FrameNo + 1 }
  else s

/-- One round of the loop, with `audio_record_get_cmd` at its head. -/
def poll (io : RecordIo) : AudioRecord :=
  ({ s with audio_record := 0 }.takeCmd s.audio_record io).record io

end AudioRecord

/-! ## The thread and its users -/

/-- A user sets a command, or the thread polls. -/
inductive RecordEvent
  | start
  | stop
  | poll (io : RecordIo)
  deriving DecidableEq

/-- The thread with the numbers of start and stop commands that it has taken. -/
structure RecordUsers where
  thread : AudioRecord
  starts : Nat
  stops : Nat
  deriving DecidableEq

def RecordUsers.init : RecordUsers where
  thread := .init
  starts := 0
  stops := 0

/-- A poll takes what is set. -/
def RecordUsers.poll (u : RecordUsers) (io : RecordIo) : RecordUsers where
  thread := u.thread.poll io
  starts := u.starts + if u.thread.audio_record = audioRecordStartCmd then 1 else 0
  stops := u.stops + if u.thread.audio_record = audioRecordStopCmd then 1 else 0

/-- A step of those who are as they are meant to be: a command is set when the one before it
has been taken, nobody stops who has not started, and what a start has to initialise can be. -/
def RecordUsers.step (u : RecordUsers) : RecordEvent → Option RecordUsers
  | .start =>
      if u.thread.audio_record = 0 then
        some { u with thread := u.thread.setCmd audioRecordStartCmd }
      else none
  | .stop =>
      if u.thread.audio_record = 0 ∧ u.stops < u.starts then
        some { u with thread := u.thread.setCmd audioRecordStopCmd }
      else none
  | .poll io =>
      if u.thread.audio_record = audioRecordStartCmd →
          audioRecordRecInit io.par = true ∧ io.startWrite = true then
        some (u.poll io)
      else none

end Nvr.Player
