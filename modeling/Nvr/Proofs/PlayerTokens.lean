import Nvr.Lib.Mailbox
import Nvr.Player.Control

/-!
# What is under way for a channel

The player waits for a channel as long as one message is under way for it: a request to its stream
thread, the command that goes down and comes back through its threads, or the answer. This file
says which messages these are, what they tell about the threads they have passed, and what each
thread's turn does with them.

A thread that has passed on the command to stand by, stands by from then on; one that has passed the
command to work on still stands by, and works once the answer has come back through it. So wherever
a command arrives, the thread is in the one state in which it does not drop it.
-/

namespace Nvr.Player.Control

open Mailbox Nvr.Storage

inductive Thr
  | player
  | stream (ch : Ch)
  | worker (w : Worker) (ch : Ch)
  | display
  deriving DecidableEq

/-- Requests that the stream thread answers itself. -/
inductive Req
  | pause
  | setRate
  | chooseFile
  | queryPlayTime
  deriving DecidableEq

/-- Messages the player waits for, or that lead to one. -/
inductive Tok
  | workOn
  | standby
  | workOnAlready
  | standbyAlready
  | request (r : Req)
  | answer (r : Req)
  deriving DecidableEq

def Ctl.tok : Ctl → Tok
  | .workOn _ => .workOn
  | .standby => .standby
  | .workOnAlready _ => .workOnAlready
  | .standbyAlready => .standbyAlready

def StreamMsg.tok : StreamMsg → Option Tok
  | .standby _ => some .standby
  | .connect _ => some .workOn
  | .pause _ => some (.request .pause)
  | .queryPlayTime => some (.request .queryPlayTime)
  | .setRate _ => some (.request .setRate)
  | .chooseFile _ _ => some (.request .chooseFile)
  | .workOnAlready _ => some .workOnAlready
  | .standbyAlready => some .standbyAlready
  | .singleFrame _ | .setAudio _ => none

def WorkerMsg.tok : WorkerMsg → Option Tok
  | .ctl c => some c.tok
  | _ => none

def PlayerMsg.tok : PlayerMsg → Tok
  | .standbyAlready => .standbyAlready
  | .workAlready => .workOnAlready
  | .pauseAlready => .answer .pause
  | .setRateAlready => .answer .setRate
  | .chooseFileAlready => .answer .chooseFile
  | .queryPlayTimeAlready _ => .answer .queryPlayTime

def DisMsg.mail : DisMsg → Option (Ch × Tok)
  | .workOn ch _ => some (ch, .workOn)
  | .standby ch => some (ch, .standby)
  | _ => none

/-- The queues, as far as they are about tokens. -/
def mail (s : System) : Thr → List (Option (Ch × Tok))
  | .player => s.playerQ.map fun m => some (m.1, m.2.tok)
  | .stream ch => (s.lanes ch).streamQ.map fun m => m.tok.map (Prod.mk ch)
  | .worker w ch => ((s.lanes ch).workerQ w).map fun m => m.tok.map (Prod.mk ch)
  | .display => s.disQ.map DisMsg.mail

section

variable {s t : System} {ch d : Ch} {w : Worker} {k : Thr} {tok : Tok}

/-! ## Sending and taking -/

theorem sends_streamPutMsg (s : System) (ch : Ch) (m : StreamMsg) :
    Sends (mail s) (mail (streamPutMsg s ch m)) (single (.stream ch) (m.tok.map (Prod.mk ch))) := by
  intro k
  cases k with
  | stream c =>
      by_cases hc : c = ch
      · subst hc
        simp [mail, single, streamPutMsg, setLane]
      · simp [mail, single, streamPutMsg, setLane, hc]
  | worker w c =>
      by_cases hc : c = ch
      · subst hc
        simp [mail, single, streamPutMsg, setLane]
      · simp [mail, single, streamPutMsg, setLane, hc]
  | player => simp [mail, single, streamPutMsg, setLane]
  | display => simp [mail, single, streamPutMsg, setLane]

theorem sends_workerPutMsg (s : System) (w : Worker) (ch : Ch) (m : WorkerMsg) :
    Sends (mail s) (mail (workerPutMsg s w ch m))
      (single (.worker w ch) (m.tok.map (Prod.mk ch))) := by
  intro k
  cases k with
  | stream c =>
      by_cases hc : c = ch
      · subst hc
        simp [mail, single, workerPutMsg, setLane]
      · simp [mail, single, workerPutMsg, setLane, hc]
  | worker v c =>
      by_cases hc : c = ch
      · subst hc
        by_cases hv : v = w
        · subst hv
          simp [mail, single, workerPutMsg, setLane]
        · simp [mail, single, workerPutMsg, setLane, hv]
      · simp [mail, single, workerPutMsg, setLane, hc]
  | player => simp [mail, single, workerPutMsg, setLane]
  | display => simp [mail, single, workerPutMsg, setLane]

theorem sends_disPutMsg (s : System) (m : DisMsg) :
    Sends (mail s) (mail (disPutMsg s m)) (single .display m.mail) := by
  intro k
  cases k <;> simp [mail, single, disPutMsg]

theorem sends_playerPutMsg (s : System) (ch : Ch) (m : PlayerMsg) :
    Sends (mail s) (mail (playerPutMsg s ch m)) (single .player (some (ch, m.tok))) := by
  intro k
  cases k <;> simp [mail, single, playerPutMsg]

/-- A stream thread takes its oldest message. -/
theorem takes_stream {m : StreamMsg} {queue : List StreamMsg} (str : StreamCtl)
    (h : (s.lanes ch).streamQ = m :: queue) :
    Takes (mail s) (mail (setLane s ch { s.lanes ch with str := str, streamQ := queue }))
      (.stream ch) (m.tok.map (Prod.mk ch)) := by
  refine ⟨by simp [mail, setLane, h], fun j hj => ?_⟩
  cases j with
  | stream c =>
      have hc : c ≠ ch := fun heq => hj (heq ▸ rfl)
      simp [mail, setLane, hc]
  | worker v c =>
      by_cases hc : c = ch
      · subst hc
        simp [mail, setLane]
      · simp [mail, setLane, hc]
  | player => rfl
  | display => rfl

theorem takes_worker {m : WorkerMsg} {queue : List WorkerMsg} (sta : ThrSta)
    (h : (s.lanes ch).workerQ w = m :: queue) :
    Takes (mail s) (mail (workerTake s w ch queue sta)) (.worker w ch)
      (m.tok.map (Prod.mk ch)) := by
  refine ⟨by simp [mail, workerTake, setLane, h], fun j hj => ?_⟩
  cases j with
  | stream c =>
      by_cases hc : c = ch
      · subst hc
        simp [mail, workerTake, setLane]
      · simp [mail, workerTake, setLane, hc]
  | worker v c =>
      by_cases hc : c = ch
      · subst hc
        have hv : v ≠ w := fun heq => hj (heq ▸ rfl)
        simp [mail, workerTake, setLane, hv]
      · simp [mail, workerTake, setLane, hc]
  | player => rfl
  | display => rfl

/-! ## What the invariant speaks of -/

/-- Of the player and the threads of a channel. -/
structure Face where
  sta : PlayerSta
  wait : Bool
  standby : Bool
  pause : Bool
  record : Bool
  str : StreamSta
  worker : Worker → ThrSta

def face (s : System) (ch : Ch) : Face where
  sta := s.ctl.playerThrSta
  wait := s.ctl.waitReturn ch
  standby := s.ctl.strStandbyAlready ch
  pause := s.ctl.strPauseAlready ch
  record := s.ctl.recordEn ch
  str := (s.lanes ch).str.strThrSta
  worker := (s.lanes ch).thrSta

@[simp] theorem face_streamPutMsg (s : System) (ch d : Ch) (m : StreamMsg) :
    face (streamPutMsg s ch m) d = face s d := by
  by_cases hd : d = ch
  · subst hd
    simp [face, streamPutMsg, setLane]
  · simp [face, streamPutMsg, setLane, hd]

@[simp] theorem face_workerPutMsg (s : System) (w : Worker) (ch d : Ch) (m : WorkerMsg) :
    face (workerPutMsg s w ch m) d = face s d := by
  by_cases hd : d = ch
  · subst hd
    simp [face, workerPutMsg, setLane]
  · simp [face, workerPutMsg, setLane, hd]

@[simp] theorem face_disPutMsg (s : System) (m : DisMsg) (d : Ch) :
    face (disPutMsg s m) d = face s d := rfl

@[simp] theorem face_playerPutMsg (s : System) (ch d : Ch) (m : PlayerMsg) :
    face (playerPutMsg s ch m) d = face s d := rfl

theorem face_setLane_other {lane : Lane} (hd : d ≠ ch) : face (setLane s ch lane) d = face s d := by
  simp [face, setLane, hd]

theorem face_setLane (s : System) (ch : Ch) (lane : Lane) :
    face (setLane s ch lane) ch =
      { face s ch with str := lane.str.strThrSta, worker := lane.thrSta } := by
  simp [face, setLane]

/-! ## The path of a command -/

/-- The threads of the channel all stand by. -/
def AllStandby (f : Face) : Prop := f.str = .standby ∧ ∀ w, f.worker w = .standby

/-- The stream thread, and the workers if the channel is at rest, are in the state the player takes
them to be in. -/
def Rest (f : Face) : Prop :=
  (f.standby = true → AllStandby f) ∧ (f.standby = false → f.str ≠ .standby)

/-- How far behind the stream thread. -/
def Worker.place : Worker → Nat
  | .decode => 1
  | .fluency => 2
  | .copy => 3

/-- The workers up to a place stand by. -/
def StandTo (f : Face) (place : Nat) : Prop := ∀ w : Worker, w.place ≤ place → f.worker w = .standby

/-- The player does not take the channel to be at rest, nor to pause. -/
def Stopping (f : Face) : Prop := f.standby = false ∧ f.pause = false

/-- What a token in the queue of a thread tells about the threads of its channel. -/
def Fits (ch : Ch) (f : Face) : Thr → Tok → Prop
  | .stream c, .workOn => c = ch ∧ f.standby = false ∧ AllStandby f
  | .worker _ c, .workOn => c = ch ∧ f.standby = false ∧ AllStandby f
  | .display, .workOn => f.standby = false ∧ AllStandby f
  | .worker w c, .workOnAlready =>
      c = ch ∧ f.standby = false ∧ f.str = .standby ∧ StandTo f w.place
  | .stream c, .workOnAlready => c = ch ∧ f.standby = false ∧ f.str = .standby
  | .player, .workOnAlready => f.standby = false ∧ f.str ≠ .standby
  | .stream c, .standby => c = ch ∧ Stopping f
  | .worker w c, .standby =>
      c = ch ∧ Stopping f ∧ f.str = .standby ∧ StandTo f (w.place - 1)
  | .display, .standby => Stopping f ∧ AllStandby f
  | .worker _ c, .standbyAlready => c = ch ∧ Stopping f ∧ AllStandby f
  | .stream c, .standbyAlready => c = ch ∧ Stopping f ∧ AllStandby f
  | .player, .standbyAlready => Stopping f ∧ AllStandby f
  | .stream c, .request .pause => c = ch ∧ f.standby = false ∧ f.str ≠ .standby
  | .player, .answer .pause => f.standby = false ∧ f.str ≠ .standby
  | .stream c, .request _ => c = ch ∧ Rest f
  | .player, .answer _ => Rest f
  | _, _ => False

/-- In which states the player asks for what the token leads to. -/
def Accepts : PlayerSta → Tok → Prop
  | .play, .workOn | .play, .workOnAlready => True
  | .stop, .standby | .stop, .standbyAlready => True
  | .recordPlaye, .standby | .recordPlaye, .standbyAlready => True
  | .exit, .standby | .exit, .standbyAlready => True
  | .pause, .request .pause | .pause, .answer .pause => True
  | .setRate, .request .setRate | .setRate, .answer .setRate => True
  | .getPlayerStatus, .request .queryPlayTime | .getPlayerStatus, .answer .queryPlayTime => True
  | .chooseFile, .request .chooseFile | .chooseFile, .answer .chooseFile => True
  | .chooseFile, .request .pause | .chooseFile, .answer .pause => True
  | .chooseFile, .workOn | .chooseFile, .workOnAlready => True
  | .chooseFile, .standby | .chooseFile, .standbyAlready => True
  | _, _ => False

/-- How many threads are still to see the token or what it turns into, the player included. -/
def stage : Thr → Tok → Nat
  | .player, .answer .chooseFile => 13
  | .player, _ => 3
  | .stream _, .request .chooseFile => 14
  | .stream _, .request _ => 4
  | .stream _, .workOnAlready | .stream _, .standbyAlready => 4
  | .stream _, _ => 12
  | .worker w _, .workOnAlready | .worker w _, .standbyAlready => 4 + w.place
  | .worker w _, _ => 12 - w.place
  | .display, _ => 8

/-- The invariant of a channel. -/
structure LaneInv (ch : Ch) (f : Face) (m : Thr → List (Option (Ch × Tok))) : Prop where
  quiet : f.wait = false → NoToken m ch ∧ Rest f
  under : f.wait = true → ∃ k tok i, TokenAt m ch k tok i ∧ Fits ch f k tok ∧ Accepts f.sta tok
  pause : f.pause = true → f.record = true ∧ f.standby = false

/-- The player waits unless it is idle, and for one token each. -/
structure Inv (s : System) : Prop where
  idle : s.ctl.playerThrSta = .idle ↔ ∀ ch, s.ctl.waitReturn ch = false
  lane : ∀ ch, LaneInv ch (face s ch) (mail s)

/-- Data change nothing: the stream thread stands by if it did, and a worker may fall back to
standing by. -/
structure Calm (f g : Face) : Prop where
  sta : g.sta = f.sta
  wait : g.wait = f.wait
  standby : g.standby = f.standby
  pause : g.pause = f.pause
  record : g.record = f.record
  str : g.str = .standby ↔ f.str = .standby
  worker : ∀ w, f.worker w = .standby → g.worker w = .standby

theorem Calm.refl (f : Face) : Calm f f := ⟨rfl, rfl, rfl, rfl, rfl, Iff.rfl, fun _ h => h⟩

theorem Calm.of_eq {f g : Face} (h : g = f) : Calm f g := h ▸ Calm.refl f

theorem Calm.allStandby {f g : Face} (h : Calm f g) (hall : AllStandby f) : AllStandby g :=
  ⟨h.str.2 hall.1, fun w => h.worker w (hall.2 w)⟩

theorem Calm.rest {f g : Face} (h : Calm f g) (hrest : Rest f) : Rest g := by
  refine ⟨fun hstd => h.allStandby (hrest.1 (h.standby ▸ hstd)), fun hstd hstr => ?_⟩
  exact hrest.2 (h.standby ▸ hstd) (h.str.1 hstr)

theorem Calm.standTo {f g : Face} (h : Calm f g) {place : Nat} (hto : StandTo f place) :
    StandTo g place :=
  fun w hw => h.worker w (hto w hw)

theorem Calm.fits {f g : Face} (h : Calm f g) (hfits : Fits ch f k tok) : Fits ch g k tok := by
  have hall := @Calm.allStandby f g h
  have hrest := @Calm.rest f g h
  have hto := @Calm.standTo f g h
  unfold Fits at hfits ⊢
  split at hfits <;> (try simp only [Stopping, h.standby, h.pause, ne_eq, h.str]) <;>
    (try simp only [Stopping] at hfits) <;> grind

theorem LaneInv.calm {f g : Face} {m m' : Thr → List (Option (Ch × Tok))} (h : LaneInv ch f m)
    (hkeeps : Keeps ch m m') (hcalm : Calm f g) : LaneInv ch g m' where
  quiet hwait := by
    obtain ⟨hnone, hrest⟩ := h.quiet (hcalm.wait ▸ hwait)
    exact ⟨hkeeps.1 hnone, hcalm.rest hrest⟩
  under hwait := by
    obtain ⟨k, tok, i, hat, hfits, hsta⟩ := h.under (hcalm.wait ▸ hwait)
    obtain ⟨i', -, hat'⟩ := hkeeps.2 k tok i hat
    exact ⟨k, tok, i', hat', hcalm.fits hfits, hcalm.sta ▸ hsta⟩
  pause hpause := by
    rw [hcalm.record, hcalm.standby]
    exact h.pause (hcalm.pause ▸ hpause)

end

end Nvr.Player.Control
