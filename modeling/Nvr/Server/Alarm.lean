import Nvr.Server.Rec

/-!
# The alarms of the cameras

`nvr_alarm.c`, as far as the cameras' alarms go. Once per second
`nvr_alarm_check_timeout` reads the alarm level of every channel. The first level
that is not 0 raises the alarm, and it ends when the level has been 0 for eleven
polls; each of the two is told to the recorder, and the first may send a mail.

Polling a channel is a function of its two statics, `checkIpnc`; what it calls is
carried out by `nvrAlarmIpnc`.
-/

namespace Nvr.Server

open Nvr.Storage

/-- `ipncAlarmStatus` and `ipncAlarmTime` of one channel. -/
structure IpncAlarm where
  status : Int
  time : Int

/-- `NVR_LINKACT_S`, what is read of it. -/
structure LinkAct where
  u8Email : UInt8

/-- The statics of the file, and those of the recorder. -/
structure Alarms where
  ipnc : Chn → IpncAlarm
  nvrRec : NvrRec

/-- The statics as the program starts. -/
def alarmsInit : Alarms where
  ipnc _ := ⟨0, 0⟩
  nvrRec := nvrRecInit

/-- A call of `nvr_alarm_ipnc`, and the mail that the linked action sends. -/
inductive AlarmCall where
  | alarmIpnc (chn : Chn) (happen : Bool)
  | sendMail
  deriving DecidableEq

def nvrAlarmAction (actionCfg : LinkAct) : List AlarmCall :=
  if actionCfg.u8Email ≠ 0 then [.sendMail] else []

def nvrAlarmIpnc (linkAct : Chn → LinkAct) (chn : Chn) (happen : Bool) (r : NvrRec) :
    NvrRec × List AlarmCall :=
  if happen then (nvrRecAlarm chn 1 r, .alarmIpnc chn true :: nvrAlarmAction (linkAct chn))
  else (nvrRecAlarm chn 0 r, [.alarmIpnc chn false])

/-- What a poll does to the statics of a channel, and the call it makes. -/
def checkIpnc (alarm : Int) (c : IpncAlarm) : IpncAlarm × Option Bool :=
  if alarm ≠ 0 ∧ c.status ≠ 1 then
    ({ c with status := 1 }, if c.status = 0 then some true else none)
  else if alarm = 0 ∧ c.status ≠ 0 then
    if c.status = 1 then (⟨2, 10⟩, none)
    else if c.status = 2 then
      if c.time - 1 = 0 then (⟨0, c.time - 1⟩, some false)
      else ({ c with time := c.time - 1 }, none)
    else (c, none)
  else (c, none)

/-- One pass of the loop of `nvr_alarm_check_timeout`. -/
def checkChn (linkAct : Chn → LinkAct) (chn : Chn) (alarm : Int) (s : Alarms) :
    Alarms × List AlarmCall :=
  let checked := checkIpnc alarm (s.ipnc chn)
  let s := { s with ipnc := Function.update s.ipnc chn checked.1 }
  match checked.2 with
  | none => (s, [])
  | some happen =>
      let called := nvrAlarmIpnc linkAct chn happen s.nvrRec
      ({ s with nvrRec := called.1 }, called.2)

/-- The passes for some channels. -/
def checkChns (linkAct : Chn → LinkAct) (alarm : Chn → Int) :
    List Chn → Alarms → Alarms × List AlarmCall
  | [], s => (s, [])
  | chn :: chns, s =>
      let first := checkChn linkAct chn (alarm chn) s
      let rest := checkChns linkAct alarm chns first.1
      (rest.1, first.2 ++ rest.2)

/-- `nvr_alarm_check_timeout`, when `NVR_CHN_NUM` is `chnNum` and these are the levels
that `av_pool_get_alarm_status` gives. -/
def nvrAlarmCheckTimeout (chnNum : Nat) (linkAct : Chn → LinkAct) (alarm : Chn → Int)
    (s : Alarms) : Alarms × List AlarmCall :=
  checkChns linkAct alarm ((List.finRange maxChn).filter fun chn => chn.val < chnNum) s

end Nvr.Server
