import Mathlib.Algebra.Group.Int.Defs
import Mathlib.Logic.Function.Basic
import Nvr.Lib.Slot

/-!
# The streams of a channel

`nvr_channel.c` for one channel. What reads frames sends a message when it starts
and one when it stops; the message thread counts them per stream, a stop only
when its timer fires half a minute later. A check of the channel brings the
connection to its configuration and opens and closes the streams as the counts
say. It holds the mutex of the channel, but the counts are read and written
outside of it, one by one.

A handle is `none` where the source has 0. What the camera and the thread pool
answer is the input of a step.
-/

namespace Nvr.Channel

open Slot

/-- `NVR_MAX_STREAM_NUM`. -/
abbrev nvrMaxStreamNum : Nat := 2

abbrev StreamNo : Type := Fin nvrMaxStreamNum

/-- What a check reads of `NVR_CHANNEL_CFG_S`. -/
structure ChannelCfg where
  szProtocolName : String
  szUser : String
  szPasswd : String
  u32IpAddr : UInt32
  u16DataPort : UInt16
  u16RtspPort : UInt16
  u8UseChn : UInt8
  u8Enable : UInt8
  deriving DecidableEq, Repr, Inhabited

/-- The configuration after a `memset`. -/
def ChannelCfg.zero : ChannelCfg := ⟨"", "", "", 0, 0, 0, 0, 0⟩

/-- `NVR_CHANNEL_INFO_S`. -/
structure ChannelInfo where
  struChannelCfg : ChannelCfg
  lHandle : Option Nat
  lIpncHandle : Option Nat
  lLongonHandle : Option Nat
  lStreamHandle : StreamNo → Option Nat
  nOpenStreamCnt : StreamNo → Int

/-- The channel as `nvr_channel_init` leaves it: stream 0 is counted once. -/
def nvrChannelInit : ChannelInfo where
  struChannelCfg := .zero
  lHandle := none
  lIpncHandle := none
  lLongonHandle := none
  lStreamHandle := fun _ => none
  nOpenStreamCnt := fun i => if i = 0 then 1 else 0

namespace ChannelInfo

variable (info : ChannelInfo)

/-- All three handles of the connection are there. -/
def online : Bool :=
  info.lHandle.isSome && info.lIpncHandle.isSome && info.lLongonHandle.isSome

/-- The handles behind `lHandle` are given up. -/
def dropIpnc : ChannelInfo :=
  { info with
    lIpncHandle := none
    lLongonHandle := none
    lStreamHandle := fun _ => none }

/-- All the handles are given up. -/
def drop : ChannelInfo := { info.dropIpnc with lHandle := none }

/-- `nvr_channel_close_all_handle`. -/
def nvrChannelCloseAllHandle : ChannelInfo := { info.drop with struChannelCfg := .zero }

/-- `nvr_check_handle`: whether the server of the protocol is connected. -/
def nvrCheckHandle (cfg : ChannelCfg) (connectServer : Option Nat) : Bool × ChannelInfo :=
  if info.lHandle.isNone ∨ info.struChannelCfg.szProtocolName ≠ cfg.szProtocolName ∨
      info.struChannelCfg.szUser ≠ cfg.szUser ∨ info.struChannelCfg.szPasswd ≠ cfg.szPasswd then
    let dropped := if info.lHandle.isSome then info.drop else info
    match connectServer with
    | none => (false, dropped)
    | some h => (true, { dropped with lHandle := some h })
  else (true, info)

/-- `nvr_check_ipnc_handle`: whether the camera is connected. -/
def nvrCheckIpncHandle (cfg : ChannelCfg) (connectIpnc : Option Nat) : Bool × ChannelInfo :=
  if info.lHandle.isNone then (false, info)
  else if info.lIpncHandle.isNone ∨ info.struChannelCfg.u32IpAddr ≠ cfg.u32IpAddr ∨
      info.struChannelCfg.u16DataPort ≠ cfg.u16DataPort ∨
      info.struChannelCfg.u16RtspPort ≠ cfg.u16RtspPort ∨
      info.struChannelCfg.u8UseChn ≠ cfg.u8UseChn then
    let dropped := if info.lIpncHandle.isSome then info.dropIpnc else info
    match connectIpnc with
    | none => (false, dropped)
    | some h => (true, { dropped with lIpncHandle := some h })
  else (true, info)

/-- `nvr_check_logon_handle`: whether the camera is logged on. -/
def nvrCheckLogonHandle (logon : Option Nat) : Bool × ChannelInfo :=
  if info.lLongonHandle.isNone ∧ info.lHandle.isSome ∧ info.lIpncHandle.isSome then
    match logon with
    | none => (false, info)
    | some h => (true, { info with lLongonHandle := some h })
  else (true, info)

end ChannelInfo

/-- What the calls of a check give that connect and log on. -/
structure ConnectCalls where
  connectServer : Option Nat
  connectIpnc : Option Nat
  logon : Option Nat

/-- The checks of `nvr_channel_check_status` before the streams; the first that
fails ends it. -/
def ChannelInfo.checkHandles (info : ChannelInfo) (cfg : ChannelCfg) (calls : ConnectCalls) :
    Bool × ChannelInfo :=
  let server := info.nvrCheckHandle cfg calls.connectServer
  if server.1 then
    let ipnc := server.2.nvrCheckIpncHandle cfg calls.connectIpnc
    if ipnc.1 then ipnc.2.nvrCheckLogonHandle calls.logon else ipnc
  else server

/-- What the calls for one stream give: its handle, or else less than 0; and
whether a stop succeeds. -/
structure StreamCalls where
  startGetStream : Option Nat
  stopGetStream : Bool

/-- One round of `nvr_check_stream_handle`, with what it sets `nRet` to, if it
makes a call. -/
def ChannelInfo.nvrCheckStream (info : ChannelInfo) (i : StreamNo) (calls : StreamCalls) :
    Option Bool × ChannelInfo :=
  if info.lHandle.isSome ∧ info.lIpncHandle.isSome then
    if info.lStreamHandle i = none ∧ info.nOpenStreamCnt i > 0 then
      match calls.startGetStream with
      | none => (some false, info)
      | some h =>
          (some true,
            { info with lStreamHandle := Function.update info.lStreamHandle i (some h) })
    else if info.lStreamHandle i ≠ none ∧ info.nOpenStreamCnt i = 0 then
      (some calls.stopGetStream,
        { info with lStreamHandle := Function.update info.lStreamHandle i none })
    else (none, info)
  else (none, info)

/-! ## The threads -/

/-- A reader that was started; it is reading, or its stop waits for the timer. -/
structure Reader where
  stream : StreamNo
  stopping : Bool
  deriving DecidableEq, Repr

/-- A check that is at the streams: the next one, what `nRet` is, whether all
its calls for streams have succeeded, and the counts that it has read. -/
structure CheckRun where
  cfg : ChannelCfg
  next : Nat
  nRet : Bool
  ok : Bool
  read : StreamNo → Int

/-- The channel with its threads: a start that the message thread has let in and
not yet counted, the checks pushed to the pool, the one that is at the streams
and holds the mutex. Beside that the readers that were started and whose stop
has not yet fired, and, right after a complete check with the camera online and
all calls successful, the counts that it has read. -/
structure World where
  info : ChannelInfo
  counting : Option StreamNo
  pool : Nat
  run : Option CheckRun
  readers : List Reader
  complete : Option (StreamNo → Int)

def World.init : World := ⟨nvrChannelInit, none, 1, none, [], none⟩

/-- What can happen. -/
inductive Op where
  | startRead (i : StreamNo)
  | count
  | stopRead (k : Nat)
  | fire (k : Nat)
  | pushCheck
  | check (isDefault : Bool) (cfg : ChannelCfg) (calls : ConnectCalls)
  | checkStream (calls : StreamCalls)
  | param (ok : Bool)

namespace World

variable (w : World)

/-- `g_atomic_int_add` on a count. -/
def addCount (i : StreamNo) (d : Int) : ChannelInfo :=
  { w.info with
    nOpenStreamCnt := Function.update w.info.nOpenStreamCnt i (w.info.nOpenStreamCnt i + d) }

/-- `AV_POOL_START_READ_FRAME` up to the end of the mutex. A channel that is not
online refuses the reader and does not count it. -/
def startRead (i : StreamNo) : World :=
  if w.info.online then { w with counting := some i, complete := none }
  else { w with readers := ⟨i, false⟩ :: w.readers, complete := none }

/-- The rest of `nvr_channel_start_stream`. -/
def count (i : StreamNo) : World :=
  { w with
    info := w.addCount i 1
    counting := none
    pool := if w.info.nOpenStreamCnt i = 0 then w.pool + 1 else w.pool
    readers := ⟨i, false⟩ :: w.readers
    complete := none }

/-- `nvr_channel_stop_stream_timeout` for the reader at `k`. -/
def fire (k : Nat) (i : StreamNo) : World :=
  { w with
    info := w.addCount i (-1)
    pool := if w.info.nOpenStreamCnt i + -1 = 0 then w.pool + 1 else w.pool
    readers := w.readers.eraseIdx k
    complete := none }

/-- `nvr_channel_check_status` up to the streams. -/
def check (isDefault : Bool) (cfg : ChannelCfg) (calls : ConnectCalls) : World :=
  let taken := { w with pool := w.pool - 1, complete := none }
  if isDefault then taken
  else if cfg.u8Enable = 0 ∨ cfg.u32IpAddr = 0 then
    { taken with info := w.info.nvrChannelCloseAllHandle }
  else
    let checked := w.info.checkHandles cfg calls
    { taken with
      info := checked.2
      run := if checked.1 then some ⟨cfg, 0, true, true, fun _ => 0⟩ else none }

/-- The end of `nvr_channel_check_status`. -/
def checkEnd (info : ChannelInfo) (r : CheckRun) : World :=
  if r.nRet then
    { w with
      info := { info with struChannelCfg := r.cfg }
      run := none
      complete := if r.ok ∧ info.online then some r.read else none }
  else { w with info := info, run := none, complete := none }

/-- The round for the next stream. -/
def checkStream (r : CheckRun) (i : StreamNo) (calls : StreamCalls) : World :=
  let checked := w.info.nvrCheckStream i calls
  let r' : CheckRun :=
    { r with
      next := r.next + 1
      nRet := checked.1.getD r.nRet
      ok := r.ok && checked.1.getD true
      read := Function.update r.read i (w.info.nOpenStreamCnt i) }
  if r.next + 1 < nvrMaxStreamNum then
    { w with info := checked.2, run := some r', complete := none }
  else w.checkEnd checked.2 r'

/-- One event, `none` where it cannot happen: what takes the mutex waits for a
check to end, and a reader stops once, after its start. -/
def step : Op → Option World
  | .startRead i => if w.run.isNone ∧ w.counting.isNone then some (w.startRead i) else none
  | .count => w.counting.map w.count
  | .stopRead k =>
      match w.readers[k]? with
      | none => none
      | some reader =>
          if w.counting.isSome ∨ reader.stopping then none
          else
            some { w with
              readers := w.readers.set k { reader with stopping := true }
              complete := none }
  | .fire k =>
      match w.readers[k]? with
      | none => none
      | some reader => if reader.stopping then some (w.fire k reader.stream) else none
  | .pushCheck => some { w with pool := w.pool + 1, complete := none }
  | .check isDefault cfg calls =>
      if w.run.isNone ∧ 0 < w.pool then some (w.check isDefault cfg calls) else none
  | .checkStream calls =>
      match w.run with
      | none => none
      | some r =>
          if h : r.next < nvrMaxStreamNum then some (w.checkStream r ⟨r.next, h⟩ calls) else none
  | .param ok =>
      if w.run.isNone then
        some { w with
          info :=
            if w.info.online ∧ ¬ok then { w.info with lLongonHandle := none } else w.info
          complete := none }
      else none

end World

end Nvr.Channel
