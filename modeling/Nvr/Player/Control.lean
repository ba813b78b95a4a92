import Mathlib.Data.List.FinRange
import Mathlib.Logic.Function.Basic
import Nvr.Lib.Slot
import Nvr.Player.Stream

/-!
# The player and the threads it commands

`player.c`, and what the stream, decode, fluency, copy and display threads do with their messages.
The player takes a command of the user interface while it is idle, passes it on to the stream
threads it concerns, and takes no other until each of them has answered. Putting a channel to work or
to rest goes down its threads one by one, ends at the display, which all channels share, and comes
back the same way.

A step is what one thread does with one message, or what a stream thread does when it finds none.
It is taken to end, also where the thread waits for a buffer or for the decoder on the way, and
every message can be sent. What the storage, the cameras and the decoder come to is the input of a
step, and so are the data messages that go along. Nothing is left after the player has told all
threads to end.
-/

namespace Nvr.Player.Control

open Nvr.Storage Slot

/-- `STREAM_CHANNEL_MAX`. -/
abbrev streamChannelMax : Nat := 4

abbrev Ch : Type := Fin streamChannelMax

/-! ## Messages -/

/-- `STREAM_CMD_..` and `DECODE_CMD_.._ALREADY`, in the queue of a stream thread. -/
inductive StreamMsg
  | standby (blackScreen : Bool)
  | connect (record : StreamMode)
  | pause (on : Bool)
  | queryPlayTime
  | setRate (rate : Nat)
  | chooseFile (infor : ChosenFile) (updateNow : Bool)
  | singleFrame (down : Bool)
  | setAudio (on : Bool)
  | workOnAlready (record : StreamMode)
  | standbyAlready

/-- The threads between the stream and the display. -/
inductive Worker
  | decode
  | fluency
  | copy
  deriving DecidableEq

/-- `.._CMD_WORK_ON` and `.._CMD_STANDBY` of a worker, and `.._ALREADY` of the thread behind it. -/
inductive Ctl
  | workOn (record : StreamMode)
  | standby
  | workOnAlready (record : StreamMode)
  | standbyAlready

/-- What is in the queue of a worker. -/
inductive WorkerMsg
  | ctl (c : Ctl)
  | newData
  | ignoreData
  | black
  | frameSync
  | putBackBuf

/-- `DISPLAY_CMD_..`. -/
inductive DisMsg
  | newData
  | workOn (channel : Ch) (record : StreamMode)
  | standby (channel : Ch)
  | tempFullscreen (channel : Ch)
  | tempSlipscreen

/-- `STREAM_CMD_.._ALREADY`. -/
inductive PlayerMsg
  | standbyAlready
  | workAlready
  | pauseAlready
  | setRateAlready
  | chooseFileAlready
  | queryPlayTimeAlready (queryNum : UInt8)

/-- `CHANNEL_PALY` and so on. -/
inductive ChannelStatus
  | paly
  | standby
  | pause

/-- `player_status`. -/
structure PlayerStatus where
  queryNum : UInt8
  replayEnd : Bool
  channelStatus : ChannelStatus

/-- `PLAYER_CMD_RET_..`. -/
inductive UiMsg
  | retStatus (runStatus : Ch → PlayerStatus)
  | retDisplayMode (singleEn : Bool)
  | retPreviewStatus (previewStatus : Ch → Bool)

/-- `PLAYER_CMD_..`, those that have to do with the channels. A command without a channel is for
all of them. `runStatus` is what is in the message that asks for it. -/
inductive ProCmd
  | getPlayerStatus (channel : Option Ch) (runStatus : Ch → PlayerStatus)
  | play (channel : Option Ch)
  | stop (channel : Option Ch)
  | singalDisplay (channel : Ch) (singleEn : Bool)
  | allExit
  | setRate (channel : Option Ch) (rate : Nat)
  | realPlay (channel : Option Ch)
  | recordPlay (channel : Option Ch)
  | chooseFile (channel : Option Ch) (replayInfor : Ch → FileInfo) (updateNow : Bool)
  | upFrame (channel : Option Ch)
  | downFrame (channel : Option Ch)
  | pause (channel : Option Ch) (on : Bool)
  | getDisplayMode
  | getPreviewStatus (channel : Option Ch)
  | setAudio (channel : Ch) (on : Bool)

/-! ## State -/

/-- `PLAYER_THR_STA_..`. -/
inductive PlayerSta
  | idle
  | play
  | stop
  | pause
  | setRate
  | getPlayerStatus
  | recordPlaye
  | chooseFile
  | exit
  deriving DecidableEq

/-- `player_ctl`. -/
structure PlayerCtl where
  playerThrSta : PlayerSta
  waitReturn : Ch → Bool
  strStandbyAlready : Ch → Bool
  strPauseAlready : Ch → Bool
  recordEn : Ch → Bool
  singleEn : Bool
  state : Ch → PlayerStatus
  exit : Bool

/-- `DEC_THR_STA_..`, `FLU_THR_STA_..`, `COPY_THR_STA_..` and `DIS_THR_STA_..`. -/
inductive ThrSta
  | workOn
  | standby
  deriving DecidableEq

/-- The threads of a channel and their queues. -/
structure Lane where
  str : StreamCtl
  streamQ : List StreamMsg
  thrSta : Worker → ThrSta
  workerQ : Worker → List WorkerMsg

/-- All threads, and what has been sent to the user interface. -/
structure System where
  ctl : PlayerCtl
  playerQ : List (Ch × PlayerMsg)
  lanes : Ch → Lane
  disThrSta : ThrSta
  disStandbySta : Ch → Bool
  disSingleCh : Option Ch
  disQ : List DisMsg
  ui : List UiMsg

/-- `player_parameter_init`, `stream_parameter_init` and so on; `stack` is what the stream threads
find on their stacks. -/
def init (stack : Ch → FileInfo × FileInfo × StorageReadCmd) : System where
  ctl :=
    { playerThrSta := .idle
      waitReturn := fun _ => false
      strStandbyAlready := fun _ => true
      strPauseAlready := fun _ => false
      recordEn := fun _ => false
      singleEn := false
      state := fun _ => ⟨0, false, .paly⟩
      exit := false }
  playerQ := []
  lanes ch :=
    { str := streamParameterInit (stack ch).1 (stack ch).2.1 (stack ch).2.2
      streamQ := []
      thrSta := fun _ => .standby
      workerQ := fun _ => [] }
  disThrSta := .standby
  disStandbySta := fun _ => true
  disSingleCh := none
  disQ := []
  ui := []

/-! ## Sending -/

def setLane (s : System) (ch : Ch) (lane : Lane) : System :=
  { s with lanes := Function.update s.lanes ch lane }

/-- `stream_put_msg_to_queue`. -/
def streamPutMsg (s : System) (ch : Ch) (m : StreamMsg) : System :=
  setLane s ch { s.lanes ch with streamQ := (s.lanes ch).streamQ ++ [m] }

/-- `decode_put_msg_to_queue`, `fluency_put_msg_to_queue` and `copy_put_msg_to_queue`. -/
def workerPutMsg (s : System) (w : Worker) (ch : Ch) (m : WorkerMsg) : System :=
  setLane s ch { s.lanes ch with
    workerQ := Function.update (s.lanes ch).workerQ w ((s.lanes ch).workerQ w ++ [m]) }

/-- `dis_put_msg_to_queue`. -/
def disPutMsg (s : System) (m : DisMsg) : System := { s with disQ := s.disQ ++ [m] }

/-- `player_put_msg_to_queue`. -/
def playerPutMsg (s : System) (ch : Ch) (m : PlayerMsg) : System :=
  { s with playerQ := s.playerQ ++ [(ch, m)] }

/-- `player_send_msg_to_ui`. -/
def playerSendMsgToUi (s : System) (m : UiMsg) : System := { s with ui := s.ui ++ [m] }

/-! ## The player's commands -/

/-- `player_set_sta`. -/
def playerSetSta (s : System) (sta : PlayerSta) : System :=
  { s with ctl := { s.ctl with playerThrSta := sta } }

/-- `wait_return` with the bit of the channel. -/
def setWait (s : System) (ch : Ch) (wait : Bool) : System :=
  { s with ctl := { s.ctl with waitReturn := Function.update s.ctl.waitReturn ch wait } }

def setStatus (s : System) (ch : Ch) (status : ChannelStatus) : System :=
  { s with ctl := { s.ctl with
      state := Function.update s.ctl.state ch { s.ctl.state ch with channelStatus := status } } }

/-- `player_set_ch_stop`, and `send`. -/
def playerSetChStop (s : System) (ch : Ch) (black : Bool) : System × Bool :=
  if s.ctl.strStandbyAlready ch = false then
    let s := { s with ctl := { s.ctl with
      strPauseAlready := Function.update s.ctl.strPauseAlready ch false } }
    (streamPutMsg (setStatus s ch .standby) ch (.standby black), true)
  else (s, false)

/-- `player_set_ch_play`, and `send`. -/
def playerSetChPlay (s : System) (ch : Ch) : System × Bool :=
  if s.ctl.strStandbyAlready ch = true then
    let record : StreamMode := if s.ctl.recordEn ch then .fromDisk else .fromNet
    let s := { s with ctl := { s.ctl with
      strStandbyAlready := Function.update s.ctl.strStandbyAlready ch false } }
    (streamPutMsg (setStatus s ch .paly) ch (.connect record), true)
  else (s, false)

/-- `player_set_ch_pause`, and `send`. -/
def playerSetChPause (s : System) (ch : Ch) (pause : Bool) : System × Bool :=
  if s.ctl.recordEn ch = true then
    if pause = true ∧ s.ctl.strPauseAlready ch = false ∧ s.ctl.strStandbyAlready ch = false then
      let s := { s with ctl := { s.ctl with
        strPauseAlready := Function.update s.ctl.strPauseAlready ch true } }
      (streamPutMsg (setStatus s ch .pause) ch (.pause pause), true)
    else if pause = false ∧ s.ctl.strPauseAlready ch = true then
      let s := { s with ctl := { s.ctl with
        strPauseAlready := Function.update s.ctl.strPauseAlready ch false } }
      (streamPutMsg (setStatus s ch .paly) ch (.pause pause), true)
    else (s, false)
  else (s, false)

/-- From `st_index` to `end_index`. -/
def channels : Option Ch → List Ch
  | some ch => [ch]
  | none => List.finRange streamChannelMax

/-- The loop over the channels. -/
def eachChannel (channel : Option Ch) (f : System → Ch → System) (s : System) : System :=
  (channels channel).foldl f s

/-- What the loops do if something was sent. -/
def waitIfSent (sta : PlayerSta) (ch : Ch) (sent : System × Bool) : System :=
  if sent.2 then playerSetSta (setWait sent.1 ch true) sta else sent.1

/-- `player_pro_play_cmd`. -/
def playerProPlayCmd (s : System) (channel : Option Ch) : System :=
  eachChannel channel (fun s ch => waitIfSent .play ch (playerSetChPlay s ch)) s

/-- `player_pro_stop_cmd`. -/
def playerProStopCmd (s : System) (channel : Option Ch) : System :=
  eachChannel channel (fun s ch => waitIfSent .stop ch (playerSetChStop s ch true)) s

/-- `player_pro_exit_cmd`. -/
def playerProExitCmd (s : System) : System :=
  if ∀ ch, s.ctl.strStandbyAlready ch = true then { s with ctl := { s.ctl with exit := true } }
  else eachChannel none (fun s ch => waitIfSent .exit ch (playerSetChStop s ch false)) s

def setRecordEn (s : System) (ch : Ch) (record : Bool) : System :=
  { s with ctl := { s.ctl with recordEn := Function.update s.ctl.recordEn ch record } }

/-- `player_pro_play_mode_cmd`. -/
def playerProPlayModeCmd (s : System) (channel : Option Ch) (record : Bool) : System :=
  eachChannel channel
    (fun s ch => waitIfSent .recordPlaye ch (playerSetChStop (setRecordEn s ch record) ch true)) s

/-- `player_pro_pause_cmd`. -/
def playerProPauseCmd (s : System) (channel : Option Ch) (pause : Bool) : System :=
  eachChannel channel (fun s ch => waitIfSent .pause ch (playerSetChPause s ch pause)) s

/-- `player_pro_set_rate_cmd`. -/
def playerProSetRateCmd (s : System) (channel : Option Ch) (rate : Nat) : System :=
  eachChannel channel (fun s ch =>
    if s.ctl.recordEn ch = true then
      streamPutMsg (playerSetSta (setWait s ch true) .setRate) ch (.setRate rate)
    else s) s

/-- The status of a channel that does not replay. -/
def noReplay (s : System) (ch : Ch) : System :=
  { s with ctl := { s.ctl with
      state := Function.update s.ctl.state ch { s.ctl.state ch with queryNum := 0 } } }

/-- `player_pro_get_sta_cmd`. Where no channel replays the message goes back as it is. -/
def playerProGetStaCmd (s : System) (channel : Option Ch) (runStatus : Ch → PlayerStatus) :
    System :=
  let s := eachChannel channel (fun s ch =>
    if s.ctl.recordEn ch = true then
      streamPutMsg (playerSetSta (setWait s ch true) .getPlayerStatus) ch .queryPlayTime
    else noReplay s ch) s
  if ∀ ch, s.ctl.recordEn ch = false then playerSendMsgToUi s (.retStatus runStatus) else s

/-- `player_pro_choose_file_cmd`. -/
def playerProChooseFileCmd (s : System) (channel : Option Ch) (replayInfor : Ch → FileInfo)
    (updateNow : Bool) : System :=
  eachChannel channel (fun s ch =>
    if s.ctl.recordEn ch = true then
      if h : 0 ≤ (replayInfor ch).query.chn then
        playerSetSta (streamPutMsg (setWait s ch true) ch (.chooseFile ⟨replayInfor ch, h⟩ updateNow))
          .chooseFile
      else waitIfSent .chooseFile ch (playerSetChStop s ch true)
    else s) s

/-- `player_pro_single_frame_play`. -/
def playerProSingleFramePlay (s : System) (channel : Option Ch) (down : Bool) : System :=
  eachChannel channel (fun s ch =>
    if s.ctl.recordEn ch = true ∧ s.ctl.strPauseAlready ch = true then
      streamPutMsg s ch (.singleFrame down)
    else s) s

/-- `player_pro_dis_mod_cmd`. `preview` is `stream_preview_status`. -/
def playerProDisModCmd (s : System) (channel : Ch) (singleEn : Bool) (preview : Ch → Bool) :
    System :=
  let s := { s with ctl := { s.ctl with singleEn := singleEn } }
  let s := disPutMsg s (if singleEn then .tempFullscreen channel else .tempSlipscreen)
  if singleEn = true ∧ preview channel = false ∧ s.ctl.strStandbyAlready channel = false then
    workerPutMsg s .decode channel .black
  else s

/-- `player_pro_get_preview_sta_cmd`. -/
def playerProGetPreviewStaCmd (s : System) (channel : Option Ch) (preview : Ch → Bool) : System :=
  playerSendMsgToUi s (.retPreviewStatus fun ch =>
    decide (ch ∈ channels channel) && !s.ctl.strStandbyAlready ch && !s.ctl.recordEn ch && preview ch)

/-- `PLAYER_THR_STA_IDLE` in `main`. -/
def playerCommand (s : System) (preview : Ch → Bool) : ProCmd → System
  | .getPlayerStatus channel runStatus => playerProGetStaCmd s channel runStatus
  | .play channel => playerProPlayCmd s channel
  | .stop channel => playerProStopCmd s channel
  | .singalDisplay channel singleEn => playerProDisModCmd s channel singleEn preview
  | .allExit => playerProExitCmd s
  | .setRate channel rate => playerProSetRateCmd s channel rate
  | .realPlay channel => playerProPlayModeCmd s channel false
  | .recordPlay channel => playerProPlayModeCmd s channel true
  | .chooseFile channel replayInfor updateNow =>
      playerProChooseFileCmd s channel replayInfor updateNow
  | .upFrame channel => playerProSingleFramePlay s channel false
  | .downFrame channel => playerProSingleFramePlay s channel true
  | .pause channel on => playerProPauseCmd s channel on
  | .getDisplayMode => playerSendMsgToUi s (.retDisplayMode s.ctl.singleEn)
  | .getPreviewStatus channel => playerProGetPreviewStaCmd s channel preview
  | .setAudio channel on => streamPutMsg s channel (.setAudio on)

/-! ## The answers to the player -/

/-- The channel has answered, and the player is idle if no other is waited for. -/
def answered (s : System) (ch : Ch) : System :=
  let s := setWait s ch false
  if ∀ d, s.ctl.waitReturn d = false then playerSetSta s .idle else s

/-- `player_pro_stop_already_cmd`. -/
def playerProStopAlreadyCmd (s : System) (ch : Ch) : System :=
  answered { s with ctl := { s.ctl with
    strStandbyAlready := Function.update s.ctl.strStandbyAlready ch true } } ch

/-- `player_pro_exit_already_cmd`. -/
def playerProExitAlreadyCmd (s : System) : System :=
  if ∀ ch, s.ctl.strStandbyAlready ch = true then { s with ctl := { s.ctl with exit := true } }
  else s

/-- `player_pro_get_sta_already_cmd`. -/
def playerProGetStaAlreadyCmd (s : System) (ch : Ch) (queryNum : UInt8) : System :=
  let s := { s with ctl := { s.ctl with
    state := Function.update s.ctl.state ch
      { s.ctl.state ch with queryNum := queryNum, replayEnd := queryNum == queryBufNum } } }
  let s := setWait s ch false
  if ∀ d, s.ctl.waitReturn d = false then
    playerSetSta (playerSendMsgToUi s (.retStatus s.ctl.state)) .idle
  else s

/-- `player_pro_choose_file_already_cmd`. -/
def playerProChooseFileAlreadyCmd (s : System) (ch : Ch) : PlayerMsg → System
  | .chooseFileAlready =>
      if s.ctl.strStandbyAlready ch = true then (playerSetChPlay s ch).1
      else if s.ctl.strPauseAlready ch = true then (playerSetChPause s ch false).1
      else answered s ch
  | .workAlready | .pauseAlready => answered s ch
  | .standbyAlready => playerProStopAlreadyCmd s ch
  | .setRateAlready | .queryPlayTimeAlready _ => s

/-- The other states in `main`: a message of `ch`. What the state does not ask for is dropped. -/
def playerAnswer (s : System) (ch : Ch) (m : PlayerMsg) : System :=
  match s.ctl.playerThrSta, m with
  | .chooseFile, m => playerProChooseFileAlreadyCmd s ch m
  | .play, .workAlready => answered s ch
  | .stop, .standbyAlready => playerProStopAlreadyCmd s ch
  | .pause, .pauseAlready => answered s ch
  | .setRate, .setRateAlready => answered s ch
  | .getPlayerStatus, .queryPlayTimeAlready queryNum => playerProGetStaAlreadyCmd s ch queryNum
  | .recordPlaye, .standbyAlready => playerProStopAlreadyCmd s ch
  | .exit, .standbyAlready => playerProExitAlreadyCmd (playerProStopAlreadyCmd s ch)
  | _, _ => s

/-! ## The stream threads -/

/-- A message to the decode thread that carries no command. -/
inductive StreamData
  | newData
  | black
  | frameSync

def StreamData.msg : StreamData → WorkerMsg
  | .newData => .newData
  | .black => .black
  | .frameSync => .frameSync

/-- What the storage and the camera come to, and the data sent. -/
structure StreamIo where
  play : PlayIo
  disk : DiskPass
  net : NetPass
  connected : Bool
  data : List StreamData

/-- Every message can be passed on. -/
def StreamIo.passes (io : StreamIo) : Bool :=
  (match io.disk with | .notPassed => false | _ => true) &&
    (match io.net with | .notPassed => false | _ => true)

/-- What may be sent to the decode thread in handling a message. -/
def maySend (sta : StreamSta) : StreamMsg → StreamData → Bool
  | .standby _, .black => sta ≠ .standby
  | .workOnAlready _, .black => sta = .standby
  | .pause _, .frameSync => sta ≠ .standby
  | .setRate _, .frameSync => true
  | .chooseFile _ _, .frameSync => true
  | .singleFrame _, .frameSync => sta = .pause
  | .singleFrame _, .newData => sta = .pause
  | _, _ => false

def StreamMsg.cmd (io : StreamIo) : StreamMsg → StreamCmd
  | .standby _ => .standby
  | .connect _ => .connect
  | .pause on => .pause on
  | .queryPlayTime => .queryPlayTime
  | .setRate rate => .setRate rate
  | .chooseFile infor updateNow => .chooseFile infor updateNow io.play
  | .singleFrame down => .singleFrame down io.disk
  | .setAudio _ => .setAudio
  | .workOnAlready record => .workOnAlready record io.connected
  | .standbyAlready => .standbyAlready

def putData (s : System) (ch : Ch) (data : List StreamData) : System :=
  data.foldl (fun s d => workerPutMsg s .decode ch d.msg) s

/-- What a command has sent on or answered; `sta` is the state the thread was in. -/
def streamAnswer (s : System) (ch : Ch) (sta : StreamSta) : StreamMsg → System
  | .standby _ => workerPutMsg s .decode ch (.ctl .standby)
  | .connect record =>
      if sta = .standby then workerPutMsg s .decode ch (.ctl (.workOn record)) else s
  | .pause _ => if sta ≠ .standby then playerPutMsg s ch .pauseAlready else s
  | .queryPlayTime => playerPutMsg s ch (.queryPlayTimeAlready (s.lanes ch).str.queryNum)
  | .setRate _ => playerPutMsg s ch .setRateAlready
  | .chooseFile _ _ => playerPutMsg s ch .chooseFileAlready
  | .workOnAlready _ => if sta = .standby then playerPutMsg s ch .workAlready else s
  | .standbyAlready => if sta = .standby then playerPutMsg s ch .standbyAlready else s
  | .singleFrame _ | .setAudio _ => s

/-- One turn of the loop of `stream_thr_main`. A thread without a message has a turn if it does not
block. -/
def streamTurn (s : System) (ch : Ch) (io : StreamIo) : Option System :=
  let lane := s.lanes ch
  let sta := lane.str.strThrSta
  match lane.streamQ with
  | m :: queue =>
      if io.passes && io.data.all (maySend sta m) then
        (lane.str.step (m.cmd io)).map fun str =>
          streamAnswer (putData (setLane s ch { lane with str := str, streamQ := queue }) ch io.data)
            ch sta m
      else none
  | [] =>
      if io.passes && (sta = .workOn || sta = .connectRepeat) then
        (lane.str.step (.noMessage io.disk io.net io.connected)).map fun str =>
          putData (setLane s ch { lane with str := str }) ch io.data
      else none

/-! ## The workers -/

/-- A command goes on to the next thread or back to the one before. -/
inductive Way
  | next
  | prev

/-- What the three threads do with a command, the same in each: `DECODE_CMD_..` and
`FLU_CMD_.._ALREADY` in `decode_thr_main`, and so on. -/
def workerCtl (sta : ThrSta) : Ctl → ThrSta × Option Way
  | .standby => (.standby, some .next)
  | .standbyAlready => (sta, if sta = .standby then some .prev else none)
  | .workOn _ => (sta, if sta = .standby then some .next else none)
  | .workOnAlready _ => if sta = .standby then (.workOn, some .prev) else (sta, none)

/-- What comes of a frame in the decode thread: it fails for good, or there is a picture or none;
whether the fluency thread has a picture ignored; whether the copy thread puts a buffer into the
display's queue. -/
structure WorkerIo where
  fails : Bool
  ready : Bool
  ignore : Bool
  put : Bool

/-- Frames and pictures in `decode_thr_main`. -/
def decodeData (sta : ThrSta) (io : WorkerIo) : WorkerMsg → ThrSta × List WorkerMsg
  | .newData =>
      if sta = .workOn then
        if io.fails then (.standby, []) else (sta, if io.ready then [.newData] else [])
      else (sta, [])
  | .black => (sta, if sta = .workOn then [.black] else [])
  | .frameSync => (sta, [.frameSync])
  | _ => (sta, [])

/-- In `fluency_thr_main`. -/
def fluencyData (sta : ThrSta) (io : WorkerIo) : WorkerMsg → ThrSta × List WorkerMsg
  | .newData =>
      (sta, if sta = .workOn then [if io.ignore then .ignoreData else .newData] else [])
  | .black => (sta, if sta = .workOn then [.black] else [])
  | .frameSync => (sta, [.frameSync])
  | _ => (sta, [])

/-- In `copy_thr_main`. -/
def copyData (sta : ThrSta) (io : WorkerIo) : WorkerMsg → ThrSta × List WorkerMsg
  | .newData | .black | .putBackBuf =>
      (sta, if sta = .workOn ∧ io.put then [.newData] else [])
  | _ => (sta, [])

def workerData (w : Worker) : ThrSta → WorkerIo → WorkerMsg → ThrSta × List WorkerMsg :=
  match w with
  | .decode => decodeData
  | .fluency => fluencyData
  | .copy => copyData

/-- To the fluency thread, the copy thread or the display. -/
def putNext (s : System) (w : Worker) (ch : Ch) (m : WorkerMsg) : System :=
  match w, m with
  | .decode, m => workerPutMsg s .fluency ch m
  | .fluency, m => workerPutMsg s .copy ch m
  | .copy, .ctl (.workOn record) => disPutMsg s (.workOn ch record)
  | .copy, .ctl .standby => disPutMsg s (.standby ch)
  | .copy, .newData => disPutMsg s .newData
  | .copy, _ => s

/-- To the stream thread, the decode thread or the fluency thread. -/
def putPrev (s : System) (w : Worker) (ch : Ch) (c : Ctl) : System :=
  match w, c with
  | .decode, .workOnAlready record => streamPutMsg s ch (.workOnAlready record)
  | .decode, .standbyAlready => streamPutMsg s ch .standbyAlready
  | .decode, _ => s
  | .fluency, c => workerPutMsg s .decode ch (.ctl c)
  | .copy, c => workerPutMsg s .fluency ch (.ctl c)

/-- The oldest message is taken, and the thread is in state `sta`. -/
def workerTake (s : System) (w : Worker) (ch : Ch) (queue : List WorkerMsg) (sta : ThrSta) :
    System :=
  setLane s ch { s.lanes ch with
    thrSta := Function.update (s.lanes ch).thrSta w sta
    workerQ := Function.update (s.lanes ch).workerQ w queue }

/-- One turn of the loop of `decode_thr_main`, `fluency_thr_main` or `copy_thr_main`. -/
def workerTurn (s : System) (w : Worker) (ch : Ch) (io : WorkerIo) : Option System :=
  let lane := s.lanes ch
  match lane.workerQ w with
  | [] => none
  | .ctl c :: queue =>
      let done := workerCtl (lane.thrSta w) c
      let s := workerTake s w ch queue done.1
      match done.2 with
      | some .next => some (putNext s w ch (.ctl c))
      | some .prev => some (putPrev s w ch c)
      | none => some s
  | m :: queue =>
      let done := workerData w (lane.thrSta w) io m
      some (done.2.foldl (fun s m => putNext s w ch m) (workerTake s w ch queue done.1))

/-! ## The display thread -/

/-- One turn of the loop of `display_thr_main`; `fails` if there is no buffer to be had for good,
`publishes` if the back image goes into the display's own queue. -/
def displayTurn (s : System) (fails publishes : Bool) : Option System :=
  match s.disQ with
  | [] => none
  | .newData :: queue =>
      let s := { s with disQ := queue }
      some (if s.disThrSta = .workOn then
        let s := if publishes then disPutMsg s .newData else s
        if fails then { s with disThrSta := .standby } else s
      else s)
  | .workOn channel record :: queue =>
      let s := { s with
        disQ := queue
        disThrSta := .workOn
        disStandbySta := Function.update s.disStandbySta channel false }
      some (workerPutMsg s .copy channel (.ctl (.workOnAlready record)))
  | .standby channel :: queue =>
      let standbySta := Function.update s.disStandbySta channel true
      let s := { s with
        disQ := queue
        disStandbySta := standbySta
        disThrSta := if ∀ ch, standbySta ch = true then .standby else s.disThrSta }
      some (workerPutMsg s .copy channel (.ctl .standbyAlready))
  | .tempFullscreen channel :: queue =>
      some { s with disQ := queue, disSingleCh := some channel }
  | .tempSlipscreen :: queue =>
      let s' := { s with disQ := queue, disSingleCh := none }
      some (if s.disThrSta = .workOn then
        workerPutMsg s' .copy (s.disSingleCh.getD 0) .putBackBuf else s')

/-! ## Steps -/

inductive Op
  /-- The user interface; the second is `stream_preview_status`. -/
  | command (cmd : ProCmd) (preview : Ch → Bool)
  | answer
  | stream (ch : Ch) (io : StreamIo)
  | worker (w : Worker) (ch : Ch) (io : WorkerIo)
  | display (fails publishes : Bool)

/-- A step, where its thread can take it. -/
def step (s : System) : Op → Option System
  | .command cmd preview =>
      if s.ctl.playerThrSta = .idle ∧ s.ctl.exit = false then some (playerCommand s preview cmd)
      else none
  | .answer =>
      if s.ctl.playerThrSta ≠ .idle ∧ s.ctl.exit = false then
        match s.playerQ with
        | (ch, m) :: queue => some (playerAnswer { s with playerQ := queue } ch m)
        | [] => none
      else none
  | .stream ch io => streamTurn s ch io
  | .worker w ch io => workerTurn s w ch io
  | .display fails publishes => displayTurn s fails publishes

end Nvr.Player.Control
