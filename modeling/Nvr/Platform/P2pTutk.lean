import Nvr.Storage.Types

/-!
# Streams of the P2P platform

`nvr_p2p_tutk.c`. A viewer is served by a slot with a thread of its own: for live viewing the slot
of the channel and stream, for a recording any slot that is free. What is read from is started
before the slot is taken, and stopped when the viewer is closed and the thread has ended, at once
or by a timer that looks every second.

What is started is numbered; the program has the addresses of readers and writers. The threads send
frames until they are told to quit, or end of themselves. A thread that has ended is not found by
`pthread_kill`.
-/

namespace Nvr.P2p

open Nvr.Storage

/-- What is started and stopped: a reader or a writer of the frame pool, or a reader of the
storage. -/
inductive Kind
  | readFrame
  | writeFrame
  | libRead
  deriving DecidableEq

/-- An element of `gP2PHandle` or `gP2PHistoryHandle`. -/
inductive Key
  | real (chn code : Int)
  | history (i : Nat)
  deriving DecidableEq

/-- What the slot reads from. -/
def Key.kind : Key → Kind
  | .real _ _ => .readFrame
  | .history _ => .libRead

/-- `P2P_CHN_HANDLE`. -/
structure Slot where
  nStatus : Bool
  nQuit : Bool
  lHandle : Int
  lReadId : Nat
  thid : Nat

/-- Why a thread has ended: it was told to quit, something has failed, or the recording is at its
end or was stopped by its viewer. -/
inductive Why
  | quit
  | error
  | finished
  deriving DecidableEq

inductive ThreadState
  | running
  | ended (why : Why)
  deriving DecidableEq

structure Thread where
  key : Key
  state : ThreadState

/-- The program, and what has been done: what was started, and what was stopped by which function.
A viewer is open from an open that has succeeded to its close, with the thread that was created
for it. -/
structure Sys where
  slot : Key → Slot
  thread : Nat → Thread
  threads : Nat
  timers : List Key
  talkReadId : Nat
  talkWriteId : Nat
  ids : Nat
  started : List (Nat × Kind)
  stopped : List (Nat × Kind)
  viewers : List (Int × Option Nat)
  talking : Bool

/-- The number 0 is nobody's. -/
def init : Sys where
  slot := fun _ => ⟨false, false, 0, 0, 0⟩
  thread := fun _ => ⟨.history 0, .ended .quit⟩
  threads := 1
  timers := []
  talkReadId := 0
  talkWriteId := 0
  ids := 1
  started := []
  stopped := []
  viewers := []
  talking := false

/-- `av_pool_start_read_frame`, `av_pool_start_write_frame` or `storage_lib_read_start` that
succeeds; the new number is `s.ids`. -/
def Sys.start (s : Sys) (kind : Kind) : Sys :=
  { s with ids := s.ids + 1, started := s.started ++ [(s.ids, kind)] }

/-- The function that stops what is of the kind. The pool's take no notice of NULL. -/
def Sys.stop (s : Sys) (id : Nat) (kind : Kind) : Sys :=
  if id = 0 then s else { s with stopped := s.stopped ++ [(id, kind)] }

def Sys.setSlot (s : Sys) (key : Key) (slot : Slot) : Sys :=
  { s with slot := Function.update s.slot key slot }

/-- `pthread_create` that succeeds; the new thread is `s.threads`. -/
def Sys.create (s : Sys) (key : Key) : Sys :=
  { s with
    threads := s.threads + 1
    thread := Function.update s.thread s.threads ⟨key, .running⟩ }

/-- `pthread_kill(thid, 0)` does not find the thread. -/
def Sys.quitAlready (s : Sys) (thid : Nat) : Bool := (s.thread thid).state ≠ .running

/-- `eJP2PETSuccess`, `eJP2PETOperator` and `eJP2PETParam`. -/
def success : Int32 := 0
def operator : Int32 := -1
def param : Int32 := -2

/-- `NVR_MAX_CHANNEL_NUM`, `NVR_MAX_STREAM_NUM` and `P2P_HISTORY_HANDLE_NUM`. -/
def nvrMaxChannelNum : Int := 4
def nvrMaxStreamNum : Int := 2
def p2pHistoryHandleNum : Nat := 8

/-- The slots in the order in which they are looked through. -/
def realKeys : List Key :=
  [.real 0 0, .real 0 1, .real 1 0, .real 1 1, .real 2 0, .real 2 1, .real 3 0, .real 3 1]

def historyKeys : List Key := (List.range p2pHistoryHandleNum).map .history

/-- The first slot of the viewer. -/
def Sys.find (s : Sys) (keys : List Key) (lHandle : Int) : Option Key :=
  keys.find? fun key => (s.slot key).nStatus && (s.slot key).lHandle = lHandle

/-! ## Live viewing -/

/-- `nvr_p2p_open_real_stream`: what it returns, and the thread that it has created. A channel
below 0 is a slot outside of the array. -/
def nvrP2pOpenRealStream (s : Sys) (lHandle : Int) (iChn iCode : Int) (reads creates : Bool) :
    Sys × Int32 × Option Nat :=
  if nvrMaxChannelNum ≤ iChn ∨ iCode < 0 ∨ nvrMaxStreamNum ≤ iCode ∨ iCode < 0 then
    (s, param, none)
  else if !reads then (s, operator, none)
  else
    let lReadId := s.ids
    let s := s.start .readFrame
    let key := Key.real iChn iCode
    if (s.slot key).nStatus then (s, success, none)
    else if creates then
      let thid := s.threads
      ((s.create key).setSlot key ⟨true, false, lHandle, lReadId, thid⟩, success, some thid)
    else
      ((s.stop lReadId .readFrame).setSlot key
        ⟨false, false, lHandle, lReadId, (s.slot key).thid⟩, operator, none)

/-- What is done about a slot whose thread has ended, at once or by its timer. -/
def Sys.release (s : Sys) (key : Key) : Sys :=
  (s.stop (s.slot key).lReadId key.kind).setSlot key
    { s.slot key with lHandle := 0, nStatus := false }

/-- `nvr_p2p_close_real_stream_timeout` and `nvr_p2p_close_history_stream_timeout`, which only
differ in what their slots read from; it is called again if the slot is not released. -/
def nvrP2pCloseStreamTimeout (s : Sys) (key : Key) : Sys :=
  if s.quitAlready (s.slot key).thid then { s.release key with timers := s.timers.erase key } else s

/-- The slot of a viewer that is closed. -/
def Sys.closeSlot (s : Sys) (key : Key) : Sys :=
  let s := s.setSlot key { s.slot key with nQuit := true }
  if s.quitAlready (s.slot key).thid then s.release key else { s with timers := s.timers ++ [key] }

/-- `nvr_p2p_close_real_stream`. -/
def nvrP2pCloseRealStream (s : Sys) (lHandle : Int) : Sys × Int32 :=
  match s.find realKeys lHandle with
  | some key => (s.closeSlot key, success)
  | none => (s, operator)

/-! ## Recordings -/

/-- `nvr_p2p_alloc_history_handle`. -/
def nvrP2pAllocHistoryHandle (s : Sys) : Option Key :=
  historyKeys.find? fun key => !(s.slot key).nStatus

/-- `nvr_p2p_open_history_stream`, with the times as `nvr_p2p_make_time` gives them, what the query
finds, if it does not fail, and whether the read is started and the thread created. -/
def nvrP2pOpenHistoryStream (s : Sys) (lHandle : Int) (iChn iCode : Int)
    (nStartTime nStopTime : Int32) (query : Option (List RecordQueryInfo)) (reads creates : Bool) :
    Sys × Int32 × Option Nat :=
  if iChn ≠ 0 ∨ iCode < 0 ∨ 2 < iCode then (s, param, none)
  else
    match query with
    | none => (s, param, none)
    | some pQueryInfo =>
        if !pQueryInfo.any fun q =>
            q.chn.toInt = iChn ∧ q.beginTime = nStartTime ∧ q.endTime = nStopTime then
          (s, param, none)
        else if !reads then (s, operator, none)
        else
          let lReadId := s.ids
          let s := s.start .libRead
          match nvrP2pAllocHistoryHandle s with
          | none => (s.stop lReadId .libRead, operator, none)
          | some key =>
              if creates then
                let thid := s.threads
                ((s.create key).setSlot key ⟨true, false, lHandle, lReadId, thid⟩, success,
                  some thid)
              else
                ((s.stop lReadId .libRead).setSlot key ⟨false, false, lHandle, lReadId, 0⟩,
                  operator, none)

/-- `nvr_p2p_close_history_stream`. -/
def nvrP2pCloseHistoryStream (s : Sys) (lHandle : Int) : Sys × Int32 :=
  match s.find historyKeys lHandle with
  | some key => (s.closeSlot key, success)
  | none => (s, operator)

/-! ## The callbacks -/

/-- `stJP2PReqStream`, as far as it is used, with how the open fares. -/
structure ReqStream where
  iStreamType : Option Bool
  iChn : Int
  iCode : Int
  nStartTime : Int32
  nStopTime : Int32
  query : Option (List RecordQueryInfo)
  reads : Bool
  creates : Bool

/-- `nvr_p2p_open_stream`; the type is live, a recording, or another. -/
def nvrP2pOpenStream (s : Sys) (lHandle : Int) (req : ReqStream) : Sys × Int32 × Option Nat :=
  match req.iStreamType with
  | some true => nvrP2pOpenRealStream s lHandle req.iChn req.iCode req.reads req.creates
  | some false =>
      nvrP2pOpenHistoryStream s lHandle req.iChn req.iCode req.nStartTime req.nStopTime req.query
        req.reads req.creates
  | none => (s, operator, none)

/-- `nvr_p2p_close_stream`. -/
def nvrP2pCloseStream (s : Sys) (lHandle : Int) : Sys × Int32 :=
  let r := nvrP2pCloseRealStream s lHandle
  if 0 ≤ r.2 then r
  else
    let r := nvrP2pCloseHistoryStream s lHandle
    if 0 ≤ r.2 then r else (r.1, operator)

/-- `nvr_p2p_ctrl_stream`, where the message is sent or not: what it returns. -/
def nvrP2pCtrlStream (s : Sys) (lHandle : Int) (sends : Bool) : Int32 :=
  match s.find realKeys lHandle, sends with
  | some _, true => success
  | _, _ =>
      match s.find historyKeys lHandle, sends with
      | some _, false => operator
      | _, _ => success

/-- `nvr_p2p_open_talk_stream`. -/
def nvrP2pOpenTalkStream (s : Sys) (reads writes : Bool) : Sys × Int32 :=
  if !reads then (s, operator)
  else
    let lReadId := s.ids
    let s := s.start .readFrame
    if !writes then (s.stop lReadId .readFrame, operator)
    else
      let lWriteId := s.ids
      ({ s.start .writeFrame with talkReadId := lReadId, talkWriteId := lWriteId }, success)

/-- `nvr_p2p_close_talk_stream`. -/
def nvrP2pCloseTalkStream (s : Sys) : Sys :=
  (s.stop s.talkReadId .readFrame).stop s.talkWriteId .readFrame

/-- What happens: a callback of the platform, an end of a thread, or a timer. -/
inductive Act
  | openStream (lHandle : Int) (req : ReqStream)
  | ctrlStream (lHandle : Int) (sends : Bool)
  | closeStream (lHandle : Int)
  | timeout (key : Key)
  | threadEnds (thid : Nat) (why : Why)
  | openTalk (reads writes : Bool)
  | closeTalk

/-- A thread ends of itself, or when its slot has it quit; only a recording comes to its end. -/
def Sys.CanEnd (s : Sys) (thid : Nat) (why : Why) : Prop :=
  (s.thread thid).state = .running ∧
    match why with
    | .quit => (s.slot (s.thread thid).key).nQuit = true
    | .error => True
    | .finished => (s.thread thid).key.kind = .libRead

instance (s : Sys) (thid : Nat) (why : Why) : Decidable (s.CanEnd thid why) := by
  unfold Sys.CanEnd
  cases why <;> infer_instance

/-- Viewers at the same time have different handles. -/
def Sys.exec (s : Sys) : Act → Option Sys
  | .openStream lHandle req =>
      if lHandle ∈ s.viewers.map (·.1) then none
      else
        let r := nvrP2pOpenStream s lHandle req
        if 0 ≤ r.2.1 then some { r.1 with viewers := r.1.viewers ++ [(lHandle, r.2.2)] }
        else some r.1
  | .ctrlStream _ _ => some s
  | .closeStream lHandle =>
      let r := nvrP2pCloseStream s lHandle
      some { r.1 with viewers := r.1.viewers.filter (·.1 ≠ lHandle) }
  | .timeout key => if key ∈ s.timers then some (nvrP2pCloseStreamTimeout s key) else none
  | .threadEnds thid why =>
      if s.CanEnd thid why then
        some
          { s with
            thread := Function.update s.thread thid { s.thread thid with state := .ended why } }
      else none
  | .openTalk reads writes =>
      let r := nvrP2pOpenTalkStream s reads writes
      some (if 0 ≤ r.2 then { r.1 with talking := true } else r.1)
  | .closeTalk => some { nvrP2pCloseTalkStream s with talking := false }

end Nvr.P2p
