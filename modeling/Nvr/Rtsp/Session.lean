import Mathlib.Logic.Function.Basic
import Mathlib.Tactic.Common

/-!
# The sessions of the RTSP server

`nvr_rtsp_session.c`, with the loop of `nvr_rtsp_global.c` that calls it, the
thread of `nvr_rtsp_transfer.c` and the callback of `nvr_rtsp.c`. A connection
is a session; its requests move it between the states of `eState`, and four
things outside of it follow: the clients are counted for each channel, a thread
sends the frames of a session that plays, and the callback links a stream and
unlinks it again.

A request is what the handlers read out of it. What the calls of the system and
of the frame pool answer comes with it. Of the session there is what decides
these things; what goes into the replies and to the sender is left out.
-/

namespace Nvr.Rtsp

/-- `RTSP_MAX_CHN` and `RTSP_MAX_STREAM_TYPE`. -/
def rtspMaxChn : Int := 8

def rtspMaxStreamType : Int := 2

/-- `RTSP_SESSION_STATE_E`. -/
inductive SessionState where
  | init
  | ready
  | play
  | stop
  deriving DecidableEq

/-- `eState < RTSP_STATE_PLAY`. -/
def SessionState.beforePlay : SessionState → Bool
  | .init | .ready => true
  | _ => false

/-- `RTSP_SESSION_S`, what handling requests reads and writes of it. `id` is
which one it is; `sessThd` and `lPriData` are 0 before there is a thread and a
stream. -/
structure Session where
  id : Nat
  nChId : Int
  nStreamId : Int
  nLink : Nat
  eState : SessionState
  sessThd : Nat
  lPriData : Nat
  deriving DecidableEq

/-- A call of `gMsgCb` that linked a stream or unlinked one; the number is the
stream it left in `lPriData`, or found there. -/
inductive LinkCall where
  | link (stream : Nat)
  | unlink (stream : Nat)
  deriving DecidableEq

/-- `NVR_RTSP_SVR`. A client count is an integer here, so that one below zero
shows. `threads` are the threads that are running, each with the session it
was made for, and `calls` are the calls of the callback so far. -/
structure RtspSvr where
  sessList : List Session
  nUseAuth : Bool
  clientCnt : Int → Int
  threads : List (Nat × Nat)
  calls : List (Nat × LinkCall)
  nextSess : Nat
  nextThread : Nat
  nextStream : Nat

/-- The server as it starts. -/
def rtspSvrInit (nUseAuth : Bool) : RtspSvr where
  sessList := []
  nUseAuth := nUseAuth
  clientCnt _ := 0
  threads := []
  calls := []
  nextSess := 0
  nextThread := 1
  nextStream := 1

/-- `clientCnt[nCh] += n`. -/
def RtspSvr.count (svr : RtspSvr) (nCh : Int) (n : Int) : RtspSvr :=
  { svr with clientCnt := Function.update svr.clientCnt nCh (svr.clientCnt nCh + n) }

/-- The session has changed. -/
def RtspSvr.put (svr : RtspSvr) (sess : Session) : RtspSvr :=
  { svr with sessList := svr.sessList.map fun s => if s.id = sess.id then sess else s }

/-! ## The callback -/

/-- `nvr_rtsp_start_preview`: a new stream, if there is memory and the pool
gives one. -/
def nvrRtspStartPreview (ok : Bool) (svr : RtspSvr) (sess : Session) : Int × RtspSvr × Session :=
  if ok then
    (0, { svr with
          calls := svr.calls ++ [(sess.id, .link svr.nextStream)]
          nextStream := svr.nextStream + 1 },
      { sess with lPriData := svr.nextStream })
  else (-1, svr, sess)

/-- `nvr_rtsp_stop_preview`. -/
def nvrRtspStopPreview (svr : RtspSvr) (sess : Session) : RtspSvr × Session :=
  ({ svr with calls := svr.calls ++ [(sess.id, .unlink sess.lPriData)] },
    { sess with lPriData := 0 })

/-! ## The beginning and the end of a session -/

/-- `rtsp_session_create`. -/
def rtspSessionCreate (svr : RtspSvr) : RtspSvr :=
  { svr with
    sessList := svr.sessList ++ [{
      id := svr.nextSess
      nChId := -1
      nStreamId := 0
      nLink := 0
      eState := .init
      sessThd := 0
      lPriData := 0 }]
    nextSess := svr.nextSess + 1 }

/-- `rtsp_session_lists_remove`. -/
def rtspSessionListsRemove (svr : RtspSvr) (sess : Session) : RtspSvr :=
  { svr with sessList := svr.sessList.filter fun s => s.id ≠ sess.id }

/-- The thread has come to its end; it does that by itself when sending fails,
and leaves `eState` as it is. -/
def RtspSvr.endThread (svr : RtspSvr) (thread : Nat) : RtspSvr :=
  { svr with threads := svr.threads.filter fun t => t.1 ≠ thread }

/-- `rtsp_session_close`. A thread that sees `RTSP_STATE_STOP` ends, and it is
waited for the one in `sessThd`. -/
def rtspSessionClose (svr : RtspSvr) (sess : Session) : RtspSvr :=
  if sess.eState.beforePlay then rtspSessionListsRemove svr sess
  else
    let svr := (svr.count sess.nChId (-1)).endThread sess.sessThd
    if sess.nLink ≠ 0 then
      rtspSessionListsRemove (nvrRtspStopPreview svr { sess with nLink := 0 }).1 sess
    else rtspSessionListsRemove svr sess

/-! ## Requests -/

/-- `rtsp_get_chn`, of the numbers that `sscanf` has found. -/
def rtspGetChn (scan : Option (Int × Int)) : Option (Int × Int) :=
  match scan with
  | none => none
  | some (nChNo, nStreamNo) =>
      if nChNo < 0 ∨ nChNo ≥ rtspMaxChn ∨ nStreamNo < 0 ∨ nStreamNo ≥ rtspMaxStreamType then none
      else some (nChNo, nStreamNo)

/-- What a well-formed Transport line asks for. -/
inductive TransportLine where
  | clientPort
  | tcp
  | other
  deriving DecidableEq

/-- A SETUP: whether its URL can be parsed, the number of the track in it, if
there is one, whether it has a Transport header and what that says, if it is
well-formed. -/
structure SetupRequest where
  url : Bool
  track : Option Int
  hasTransport : Bool
  transport : Option TransportLine

/-- A request. For DESCRIBE and PLAY there are the numbers of the channel and
the stream in the URL, if it can be parsed and has them; for DESCRIBE also
whether it accepts `application/sdp` (or does not say) and whether the user may
have it. `other` is any other method and every response, `invalid` what is no
request of any method, `notFull` what `rtsp_full_msg_parse` does not take. -/
inductive Request where
  | options
  | describe (chn : Option (Int × Int)) (acceptsSdp : Bool) (user : Bool)
  | setup (q : SetupRequest)
  | play (chn : Option (Int × Int))
  | teardown
  | pause
  | getParam
  | other
  | invalid
  | notFull

/-- What the calls made for a request answer: the two LINKs of DESCRIBE,
`pthread_create`, and the sending of the reply, where that is looked at. -/
structure Answers where
  link₁ : Bool
  link₂ : Bool
  created : Bool
  sent : Bool

/-- `rtsp_handle_describe`, which returns 0 in any case. -/
def rtspHandleDescribe (chn : Option (Int × Int)) (acceptsSdp user : Bool) (answers : Answers)
    (svr : RtspSvr) (sess : Session) : RtspSvr × Session :=
  match rtspGetChn chn with
  | none => (svr, sess)
  | some (nCh, nStream) =>
      let sess := { sess with nChId := nCh, nStreamId := nStream }
      if ¬acceptsSdp then (svr, sess)
      else if svr.nUseAuth ∧ ¬user then (svr, sess)
      else
        let link := nvrRtspStartPreview answers.link₁ svr sess
        if link.1 < 0 then link.2
        else
          let unlink := nvrRtspStopPreview link.2.1 link.2.2
          let link := nvrRtspStartPreview answers.link₂ unlink.1 unlink.2
          if link.1 < 0 then link.2
          else (link.2.1, { link.2.2 with nLink := 1 })

/-- `rtsp_handle_setup`: its return value. -/
def rtspHandleSetup (q : SetupRequest) : Int :=
  if ¬q.url then -1
  else
    match q.track with
    | none => -1
    | some trackid =>
        if ¬q.hasTransport then -1
        else if trackid ≠ 0 ∧ trackid ≠ 1 then -1
        else
          match q.transport with
          | none => -1
          | some .clientPort => 0
          | some .tcp => 0
          | some .other => -1

/-- `create_rtsp_av_transmit`. -/
def createRtspAvTransmit (created : Bool) (svr : RtspSvr) (sess : Session) : RtspSvr × Session :=
  if created then
    ({ svr with
       threads := svr.threads ++ [(svr.nextThread, sess.id)]
       nextThread := svr.nextThread + 1 },
      { sess with sessThd := svr.nextThread })
  else (svr, sess)

/-- `rtsp_handle_play`. A URL that cannot be parsed is answered, and then 0 is
returned. -/
def rtspHandlePlay (chn : Option (Int × Int)) (answers : Answers) (svr : RtspSvr)
    (sess : Session) : Int × RtspSvr × Session :=
  match rtspGetChn chn with
  | none => (0, svr, sess)
  | some (nCh, nStream) =>
      let sess := { sess with nChId := nCh, nStreamId := nStream }
      if sess.eState ≠ .ready then (-1, svr, sess)
      else (0, createRtspAvTransmit answers.created svr { sess with eState := .play })

/-- `rtsp_handle_event` for a session, and what is done when it does not
return 0; after a TEARDOWN the session is gone. -/
def rtspHandleEvent (r : Request) (answers : Answers) (svr : RtspSvr) (sess : Session) : RtspSvr :=
  match r with
  | .options | .getParam | .notFull => svr
  | .describe chn acceptsSdp user =>
      let described := rtspHandleDescribe chn acceptsSdp user answers svr sess
      described.1.put described.2
  | .setup q =>
      if rtspHandleSetup q = 0 then svr.put { sess with eState := .ready }
      else rtspSessionClose svr sess
  | .play chn =>
      let played := rtspHandlePlay chn answers svr sess
      if played.1 = 0 then
        (played.2.1.put { played.2.2 with eState := .play }).count played.2.2.nChId 1
      else rtspSessionClose played.2.1 played.2.2
  | .teardown | .invalid => rtspSessionClose svr sess
  | .pause | .other => if answers.sent then svr else rtspSessionClose svr sess

/-! ## What happens to the server -/

/-- A connection comes; a request comes over the connection of a session;
receiving from it fails, or the server is being stopped; the session is looked
at by `check_rtsp_session_state`; a thread ends by itself. -/
inductive SvrEvent where
  | connect
  | request (sess : Session) (r : Request) (answers : Answers)
  | hangUp (sess : Session)
  | check (sess : Session)
  | threadEnds (thread : Nat)

inductive SvrStep (svr : RtspSvr) : SvrEvent → RtspSvr → Prop
  | connect : SvrStep svr .connect (rtspSessionCreate svr)
  | request {sess : Session} (h : sess ∈ svr.sessList) (r : Request) (answers : Answers) :
      SvrStep svr (.request sess r answers) (rtspHandleEvent r answers svr sess)
  | hangUp {sess : Session} (h : sess ∈ svr.sessList) :
      SvrStep svr (.hangUp sess) (rtspSessionClose svr sess)
  | check {sess : Session} (h : sess ∈ svr.sessList) :
      SvrStep svr (.check sess) (if sess.eState = .stop then rtspSessionClose svr sess else svr)
  | threadEnds {thread : Nat × Nat} (h : thread ∈ svr.threads) :
      SvrStep svr (.threadEnds thread.1) (svr.endThread thread.1)

end Nvr.Rtsp
