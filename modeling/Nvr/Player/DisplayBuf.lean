import Mathlib.Data.List.FinRange
import Mathlib.Logic.Function.Basic

/-!
# The display's buffers

The four copy threads and the display thread of `display.c`. Pictures of the split screen are drawn
by their channels into one back image. The first channel to register fetches an empty buffer, whose
number goes into `dis_buf_id`, and once no channel is registered and the display is ready for more,
the back image is copied into that buffer and the buffer is put into the full queue. A picture that
fills the screen goes into a buffer of its own. The display thread shows what is in the full queue
and gives a buffer back when two later ones have come.

A step is a locked section, an operation on a queue or on the display's own fields, or the handling
of one message. A waiting channel may be woken at any time. A copy thread is told to work and to
stand by in turns, and it touches no buffer until the display has answered; so the answer is received
in the step that sends it.
-/

namespace Nvr.Player.DisplayBuf

/-- `DISPLAY_BUF_NUM`. -/
def displayBufNum : Nat := 4

/-- `COPY_CHANNEL_MAX`. -/
abbrev copyChannelMax : Nat := 4

abbrev Ch : Type := Fin copyChannelMax

/-- `DIS_THR_STA_WORK_ON` and `DIS_THR_STA_STANDBY`. -/
inductive DisThrSta where
  | workOn
  | standby
  deriving DecidableEq

/-- `DISPLAY_CMD_NEW_DATA` and so on. -/
inductive DisplayCmd where
  | newData
  | workOn (channel : Ch)
  | standby (channel : Ch)
  deriving DecidableEq

/-- What a copy thread is at. -/
inductive CopyAt where
  | standby
  /-- It has passed `COPY_CMD_WORK_ON` on. -/
  | starting
  /-- It has passed `COPY_CMD_STANDBY` on. -/
  | stopping
  | ready
  /-- In `pthread_cond_wait`. -/
  | waiting
  /-- Registered, with the empty buffer to be fetched. -/
  | getting
  /-- Registered, with what is needed to draw the back image. -/
  | drawing
  | unregistered
  /-- In `dis_thr_full_scn_buf_pro` with `buf_id`. -/
  | fullScn (bufId : Nat)
  /-- The buffer is in the full queue, the message is not sent. -/
  | fullPut
  deriving DecidableEq

/-- What the display thread is at, with a new-data message or without one. -/
inductive DisAt where
  | idle
  | getting
  | got (bufId : Nat)
  | given
  | updated
  deriving DecidableEq

/-- `display_handle`'s two queues, the globals of `display.c`, what `dis_ctl` has of them, the
display's messages, and what each thread is at. -/
structure Display where
  emptyQueue : List Nat
  fullQueue : List Nat
  bufUseReg : Ch → Bool
  getBufAlready : Ch → Bool
  newBuf : Bool
  updata : Bool
  disBufId : Nat
  disThrSta : DisThrSta
  standbySta : Ch → Bool
  bufIdLoop : List Nat
  msgs : List DisplayCmd
  copyAt : Ch → CopyAt
  disAt : DisAt

/-- After `player_buf_alloc` and `dis_parameter_init`. -/
def init : Display where
  emptyQueue := List.range displayBufNum
  fullQueue := []
  bufUseReg _ := false
  getBufAlready _ := false
  newBuf := false
  updata := true
  disBufId := 0
  disThrSta := .standby
  standbySta _ := true
  bufIdLoop := []
  msgs := []
  copyAt _ := .standby
  disAt := .idle

/-! ## The queues -/

/-- `player_que_put`, none while it waits for room. -/
def playerQuePut (queue : List Nat) (bufId : Nat) : Option (List Nat) :=
  if queue.length < displayBufNum then some (queue ++ [bufId]) else none

/-- `player_que_get`, none while it waits for a buffer. -/
def playerQueGet (queue : List Nat) : Option (Nat × List Nat) :=
  match queue with
  | bufId :: queue => some (bufId, queue)
  | [] => none

/-- `player_dis_buf_clr`. -/
def playerDisBufClr (s : Display) : Display :=
  { s with emptyQueue := List.range displayBufNum, fullQueue := [] }

/-! ## The copy threads -/

def setCopy (s : Display) (ch : Ch) (p : CopyAt) : Display :=
  { s with copyAt := Function.update s.copyAt ch p }

/-- `buf_use_reg` is nonzero. -/
def Registered (s : Display) : Prop := ∃ ch, s.bufUseReg ch = true

instance (s : Display) : Decidable (Registered s) := inferInstanceAs (Decidable (∃ _, _))

/-- `dis_thr_get_buf_register`, once nothing is waited for. The channel that finds no buffer
requested has to fetch one. -/
def register (s : Display) (ch : Ch) : Display :=
  let first := ¬Registered s ∧ s.newBuf = false
  setCopy { s with
    newBuf := s.newBuf || decide first
    getBufAlready := Function.update s.getBufAlready ch true
    bufUseReg := Function.update s.bufUseReg ch true } ch (if first then .getting else .drawing)

/-- `dis_thr_get_buf_register`. -/
def disThrGetBufRegister (s : Display) (ch : Ch) : Display :=
  if s.getBufAlready ch then setCopy s ch .waiting else register s ch

/-- `dis_thr_get_empty_buf`. -/
def disThrGetEmptyBuf (s : Display) (ch : Ch) : Option Display := do
  let (bufId, queue) ← playerQueGet s.emptyQueue
  some (setCopy { s with emptyQueue := queue, disBufId := bufId } ch .drawing)

/-- `dis_thr_get_buf_unregister`. -/
def disThrGetBufUnregister (s : Display) (ch : Ch) : Display :=
  setCopy { s with bufUseReg := Function.update s.bufUseReg ch false } ch .unregistered

/-- `dis_thr_put_full_buf`. -/
def disThrPutFullBuf (s : Display) : Option Display :=
  if s.updata = true ∧ ¬Registered s ∧ s.newBuf = true then do
    let queue ← playerQuePut s.fullQueue s.disBufId
    some { s with
      updata := false
      newBuf := false
      fullQueue := queue
      getBufAlready := fun _ => false
      msgs := s.msgs ++ [.newData] }
  else some s

/-! ## The display thread -/

/-- `dis_put_empty_buf`. -/
def disPutEmptyBuf (s : Display) (bufId : Nat) : Option Display :=
  match s.bufIdLoop ++ [bufId] with
  | [a, b, c] => do
      let queue ← playerQuePut s.emptyQueue a
      some { s with emptyQueue := queue, bufIdLoop := [b, c] }
  | loop => some { s with bufIdLoop := loop }

/-- `dis_thr_buf_process_init`. -/
def disThrBufProcessInit (s : Display) : Display :=
  { s with
    bufUseReg := fun _ => false
    newBuf := false
    updata := true
    getBufAlready := fun _ => false }

/-- `DISPLAY_CMD_WORK_ON`. -/
def workOn (s : Display) (channel : Ch) : Display :=
  let s :=
    match s.disThrSta with
    | .workOn => s
    | .standby => { playerDisBufClr s with bufIdLoop := [], disThrSta := .workOn }
  setCopy { s with standbySta := Function.update s.standbySta channel false } channel .ready

/-- `DISPLAY_CMD_STANDBY`. -/
def standby (s : Display) (channel : Ch) : Display :=
  let s := { s with standbySta := Function.update s.standbySta channel true }
  let s :=
    if ∀ ch, s.standbySta ch = true then disThrBufProcessInit { s with disThrSta := .standby }
    else s
  setCopy s channel .standby

/-- One turn of the loop of `display_thr_main`, up to what new data leads to. -/
def disRecv (s : Display) : Option Display :=
  match s.msgs with
  | [] => none
  | .newData :: msgs =>
      match s.disThrSta with
      | .workOn => some { s with msgs := msgs, disAt := .getting }
      | .standby => some { s with msgs := msgs }
  | .workOn channel :: msgs => some (workOn { s with msgs := msgs } channel)
  | .standby channel :: msgs => some (standby { s with msgs := msgs } channel)

/-! ## Steps -/

inductive Op where
  /-- `COPY_CMD_WORK_ON` and `COPY_CMD_STANDBY`. -/
  | copyWorkOn (ch : Ch)
  | copyStandby (ch : Ch)
  /-- `dis_thr_slip_scn_buf_pro`. -/
  | slipRegister (ch : Ch)
  | slipWoken (ch : Ch)
  | slipGetEmpty (ch : Ch)
  | slipUnregister (ch : Ch)
  | slipPutFull (ch : Ch)
  /-- `dis_thr_full_scn_buf_pro`. -/
  | fullGetEmpty (ch : Ch)
  | fullPutFull (ch : Ch)
  | fullSend (ch : Ch)
  /-- The display thread; the last four are new data. -/
  | disRecv
  | disGetFull
  | disPutEmpty
  | disUpdata
  | disPutFull
  /-- The player has seen all four streams stop. -/
  | playerStopped
  deriving DecidableEq

/-- A step, where its thread is at it. -/
def step (s : Display) : Op → Option Display
  | .copyWorkOn ch =>
      if s.copyAt ch = .standby then
        some (setCopy { s with msgs := s.msgs ++ [.workOn ch] } ch .starting)
      else none
  | .copyStandby ch =>
      if s.copyAt ch = .ready then
        some (setCopy { s with msgs := s.msgs ++ [.standby ch] } ch .stopping)
      else none
  | .slipRegister ch =>
      if s.copyAt ch = .ready then some (disThrGetBufRegister s ch) else none
  | .slipWoken ch => if s.copyAt ch = .waiting then some (register s ch) else none
  | .slipGetEmpty ch => if s.copyAt ch = .getting then disThrGetEmptyBuf s ch else none
  | .slipUnregister ch =>
      if s.copyAt ch = .drawing then some (disThrGetBufUnregister s ch) else none
  | .slipPutFull ch =>
      if s.copyAt ch = .unregistered then disThrPutFullBuf (setCopy s ch .ready) else none
  | .fullGetEmpty ch =>
      if s.copyAt ch = .ready then do
        let (bufId, queue) ← playerQueGet s.emptyQueue
        some (setCopy { s with emptyQueue := queue } ch (.fullScn bufId))
      else none
  | .fullPutFull ch =>
      match s.copyAt ch with
      | .fullScn bufId => do
          let queue ← playerQuePut s.fullQueue bufId
          some (setCopy { s with fullQueue := queue } ch .fullPut)
      | _ => none
  | .fullSend ch =>
      if s.copyAt ch = .fullPut then
        some (setCopy { s with msgs := s.msgs ++ [.newData] } ch .ready)
      else none
  | .disRecv => if s.disAt = .idle then disRecv s else none
  | .disGetFull =>
      if s.disAt = .getting then do
        let (bufId, queue) ← playerQueGet s.fullQueue
        some { s with fullQueue := queue, disAt := .got bufId }
      else none
  | .disPutEmpty =>
      match s.disAt with
      | .got bufId => disPutEmptyBuf { s with disAt := .given } bufId
      | _ => none
  | .disUpdata =>
      if s.disAt = .given then some { s with updata := true, disAt := .updated } else none
  | .disPutFull =>
      if s.disAt = .updated then disThrPutFullBuf { s with disAt := .idle } else none
  | .playerStopped =>
      if ∀ ch, s.copyAt ch = .standby then some (playerDisBufClr s) else none

/-! ## Where the buffers are -/

/-- The local variable of a running `dis_thr_full_scn_buf_pro`. -/
def CopyAt.bufId : CopyAt → Option Nat
  | .fullScn bufId => some bufId
  | _ => none

/-- The local variable of the display thread. -/
def DisAt.bufId : DisAt → Option Nat
  | .got bufId => some bufId
  | _ => none

/-- A channel has registered and is still to fetch what `dis_buf_id` will name. -/
def Getting (s : Display) : Prop := ∃ ch, s.copyAt ch = .getting

instance (s : Display) : Decidable (Getting s) := inferInstanceAs (Decidable (∃ _, _))

/-- `dis_buf_id`, where it names a buffer. -/
def backBuf (s : Display) : Option Nat :=
  if s.newBuf = true ∧ ¬Getting s then some s.disBufId else none

/-- The local variables of the copy threads. -/
def copyBufs (s : Display) : List Nat :=
  (List.finRange copyChannelMax).filterMap fun ch => (s.copyAt ch).bufId

/-- All the places of a buffer while the display works. -/
def places (s : Display) : List Nat :=
  s.emptyQueue ++ s.fullQueue ++ s.bufIdLoop ++ (backBuf s).toList ++ s.disAt.bufId.toList ++
    copyBufs s

end Nvr.Player.DisplayBuf
