import Mathlib.Data.List.Basic

/-!
# Asking the audio thread to play

`audio_play` and `audio_stop` of `audio_play.c` leave what they are asked for in one
byte, which the audio thread fetches and clears with its next poll. The high half of the
byte says which types something was asked for, the low half what it was.

The sound device is not modelled, and of the alarm file only whether it is open and read
to its end.
-/

namespace Nvr.Player

/-- `AUDIO_TYPE_PHONE` and so on. -/
inductive AudioType where
  | phone
  | alarm
  | channel
  deriving DecidableEq, Repr

def AudioType.code : AudioType → UInt8
  | .phone => 0
  | .alarm => 1
  | .channel => 2

/-- `1 << type`. -/
def AudioType.bit (t : AudioType) : UInt8 := 1 <<< t.code

/-- `audio_play`, on `audio_play_ctl`. -/
def audioPlay (ctl : UInt8) (t : AudioType) : UInt8 := (ctl ||| 1 <<< (t.code + 4)) ||| t.bit

/-- `audio_stop`. -/
def audioStop (ctl : UInt8) (t : AudioType) : UInt8 := (ctl ||| 1 <<< (t.code + 4)) &&& ~~~t.bit

inductive AudioSta where
  | idle
  | work
  | error
  deriving DecidableEq, Repr

/-- `_audio_run`. The handle and the file are there or not, and the type is `none` for
`0xff`. -/
structure AudioRun where
  avpoolHdl : Bool
  fdAlarm : Bool
  playFlag : UInt8
  exit : Bool
  audioSta : AudioSta
  playType : Option AudioType
  readFileEnd : Bool

/-- `audio_sta_change`. -/
def audioStaChange (sta dst : AudioSta) : AudioSta :=
  match dst with
  | .idle => if sta = .work then .idle else sta
  | .work => if sta = .idle then .work else sta
  | .error => .error

/-- What playing comes to for any of the types. -/
def AudioRun.plays (hdl : AudioRun) (t : AudioType) : AudioRun :=
  { hdl with
    audioSta := audioStaChange hdl.audioSta .work
    playFlag := hdl.playFlag ||| t.bit }

/-- `audio_play_cmd_pro`. Any bit of `cmd` makes every type play that is in `type`. -/
def audioPlayCmdPro (hdl : AudioRun) (typeCmd : UInt8) : AudioRun :=
  let type := typeCmd >>> 4
  let cmd := typeCmd &&& 0x0f
  let hdl := if cmd &&& (1 : UInt8) <<< (3 : UInt8) ≠ 0 then { hdl with exit := true } else hdl
  let hdl :=
    if type &&& AudioType.phone.bit ≠ 0 then
      if cmd ≠ 0 then hdl.plays .phone
      else { hdl with avpoolHdl := false, playFlag := hdl.playFlag &&& ~~~AudioType.phone.bit }
    else hdl
  let hdl :=
    if type &&& AudioType.alarm.bit ≠ 0 then
      if cmd ≠ 0 then hdl.plays .alarm
      else if hdl.fdAlarm then
        { hdl with fdAlarm := false, playFlag := hdl.playFlag &&& ~~~AudioType.alarm.bit }
      else hdl
    else hdl
  let hdl :=
    if type &&& AudioType.channel.bit ≠ 0 then
      if cmd ≠ 0 then hdl.plays .channel
      else { hdl with playFlag := hdl.playFlag &&& ~~~AudioType.channel.bit }
    else hdl
  if hdl.playFlag = 0 then { hdl with audioSta := audioStaChange hdl.audioSta .idle } else hdl

/-- `audio_get_play_type`. -/
def audioGetPlayType (flag : UInt8) : Option AudioType :=
  if flag &&& 0x01 ≠ 0 then some .phone
  else if flag &&& 0x02 ≠ 0 then some .alarm
  else if flag &&& 0x04 ≠ 0 then some .channel
  else none

/-- A poll of `audio_thr_main`, with what `audio_get_cmd` has fetched. -/
def audioPoll (hdl : AudioRun) (typeCmd : UInt8) : AudioRun :=
  if typeCmd &&& 0xf0 ≠ 0 then
    let hdl := audioPlayCmdPro hdl typeCmd
    { hdl with playType := audioGetPlayType hdl.playFlag }
  else hdl

/-! ## The alarm file -/

/-- Whether the file opens and is PCM, whether a read of it comes to its end, and whether
the device has played what it was given. -/
structure AlarmIo where
  opens : Bool
  pcm : Bool
  eof : Bool
  xrun : Bool

/-- `audio_open_alarm_file`. -/
def audioOpenAlarmFile (hdl : AudioRun) (io : AlarmIo) : Bool × AudioRun :=
  if !io.opens then (false, { hdl with fdAlarm := false })
  else if !io.pcm then (false, { hdl with fdAlarm := true })
  else (true, { hdl with fdAlarm := true, readFileEnd := false })

/-- `audio_combine_alarm_data`, and whether it calls `audio_stop`. -/
def audioCombineAlarmData (hdl : AudioRun) (io : AlarmIo) : AudioRun × Bool :=
  let opened := if hdl.fdAlarm then (true, hdl) else audioOpenAlarmFile hdl io
  if !opened.1 then (opened.2, false)
  else if !opened.2.readFileEnd then ({ opened.2 with readFileEnd := io.eof }, false)
  else (opened.2, io.xrun)

/-! ## The thread and those who ask -/

/-- What happens, one after the other: somebody asks, the thread polls, or it goes on with
the type that it plays. -/
inductive AudioEvent where
  | ask (t : AudioType) (play : Bool)
  | poll
  | combine (io : AlarmIo)

/-- `audio_play_ctl` and the thread's own data. -/
structure AudioThread where
  ctl : UInt8
  hdl : AudioRun

def AudioThread.ask (s : AudioThread) (t : AudioType) (play : Bool) : AudioThread :=
  { s with ctl := if play then audioPlay s.ctl t else audioStop s.ctl t }

/-- A step, and what is asked for in it. -/
def AudioThread.step (s : AudioThread) : AudioEvent → AudioThread × List (AudioType × Bool)
  | .ask t play => (s.ask t play, [(t, play)])
  | .poll => ({ ctl := 0, hdl := audioPoll s.hdl s.ctl }, [])
  | .combine io =>
      if s.hdl.playType = some .alarm then
        let done := audioCombineAlarmData s.hdl io
        if done.2 then ({ s with hdl := done.1 }.ask .alarm false, [(.alarm, false)])
        else ({ s with hdl := done.1 }, [])
      else (s, [])

end Nvr.Player
