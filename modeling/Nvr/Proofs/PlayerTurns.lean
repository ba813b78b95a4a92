import Nvr.Proofs.PlayerTokens
import Nvr.Proofs.StreamStates

/-!
# What a turn does with a token

One lemma for each kind of thread. A turn without a token leaves all channels as they are, as far as
the invariant goes. A token is never dropped: where it arrives, the thread is in the state in which
it passes the command on or answers it, and then what is under way is one thread nearer to the
player.
-/

namespace Nvr.Player.Control

open Mailbox Nvr.Storage

section

variable {s t : System} {ch d : Ch} {w : Worker} {k : Thr} {tok : Tok}

/-! ## Messages without a token -/

theorem keeps_workerPutMsg {m : WorkerMsg} (hm : ∀ tok, m.tok.map (Prod.mk ch) ≠ some (d, tok))
    (s : System) (w : Worker) : Keeps d (mail s) (mail (workerPutMsg s w ch m)) :=
  Keeps.sends (sends_workerPutMsg s w ch m) fun j => free_single hm _ j

theorem keeps_streamPutMsg {m : StreamMsg} (hm : ∀ tok, m.tok.map (Prod.mk ch) ≠ some (d, tok))
    (s : System) : Keeps d (mail s) (mail (streamPutMsg s ch m)) :=
  Keeps.sends (sends_streamPutMsg s ch m) fun j => free_single hm _ j

theorem keeps_disPutMsg {m : DisMsg} (hm : ∀ tok, m.mail ≠ some (d, tok)) (s : System) :
    Keeps d (mail s) (mail (disPutMsg s m)) :=
  Keeps.sends (sends_disPutMsg s m) fun j => free_single hm _ j

theorem tok_none {o : Option Tok} (ho : o = none) (tok : Tok) :
    o.map (Prod.mk ch) ≠ some (d, tok) := by
  simp [ho]

theorem keeps_putData (s : System) (ch d : Ch) (data : List StreamData) :
    Keeps d (mail s) (mail (putData s ch data)) := by
  unfold putData
  induction data generalizing s with
  | nil => exact Keeps.refl d _
  | cons x data ih =>
      have hx : x.msg.tok = none := by cases x <;> rfl
      exact (keeps_workerPutMsg (tok_none hx) s .decode).trans (ih _)

@[simp] theorem face_putData (s : System) (ch d : Ch) (data : List StreamData) :
    face (putData s ch data) d = face s d := by
  unfold putData
  induction data generalizing s with
  | nil => rfl
  | cons x data ih => rw [List.foldl_cons, ih, face_workerPutMsg]

@[simp] theorem face_putNext (s : System) (w : Worker) (ch d : Ch) (m : WorkerMsg) :
    face (putNext s w ch m) d = face s d := by
  unfold putNext
  split <;> simp

@[simp] theorem face_putPrev (s : System) (w : Worker) (ch d : Ch) (c : Ctl) :
    face (putPrev s w ch c) d = face s d := by
  unfold putPrev
  split <;> simp

/-- Which thread ends is not touched by sending. -/
def Alive (s : System) : Prop := ∀ ch, (s.lanes ch).str.exit = false

theorem alive_setLane {lane : Lane} (h : Alive s) (hlane : lane.str.exit = false) :
    Alive (setLane s ch lane) := by
  intro d
  by_cases hd : d = ch
  · subst hd
    simpa [setLane] using hlane
  · simpa [setLane, hd] using h d

theorem alive_streamPutMsg {m : StreamMsg} (h : Alive s) : Alive (streamPutMsg s ch m) :=
  alive_setLane h (h ch)

theorem alive_workerPutMsg {m : WorkerMsg} (h : Alive s) : Alive (workerPutMsg s w ch m) :=
  alive_setLane h (h ch)

theorem alive_putData (h : Alive s) (data : List StreamData) : Alive (putData s ch data) := by
  unfold putData
  induction data generalizing s with
  | nil => exact h
  | cons x data ih => exact ih (alive_workerPutMsg h)

theorem alive_putNext {m : WorkerMsg} (h : Alive s) : Alive (putNext s w ch m) := by
  unfold putNext
  split
  · exact alive_workerPutMsg h
  · exact alive_workerPutMsg h
  all_goals exact h

theorem alive_putPrev {c : Ctl} (h : Alive s) : Alive (putPrev s w ch c) := by
  unfold putPrev
  split
  · exact alive_streamPutMsg h
  · exact alive_streamPutMsg h
  · exact h
  · exact alive_workerPutMsg h
  · exact alive_workerPutMsg h

/-! ## Turns -/

/-- A message that is no token has been handled, or none. -/
def Idles (s t : System) (k : Thr) (ch : Ch) : Prop :=
  Calm (face s ch) (face t ch) ∧
    ((mail s k = [] ∧ ∀ d, Keeps d (mail s) (mail t)) ∨
      ∃ m, Takes (mail s) m k none ∧ ∀ d, Keeps d m (mail t))

/-- The token of the channel has been passed on and is nearer to the player. -/
def Passes (s t : System) (k : Thr) (ch : Ch) : Prop :=
  ∃ m tok k' tok', Takes (mail s) m k (some (ch, tok)) ∧ (∀ d, d ≠ ch → Keeps d m (mail t)) ∧
    (NoToken m ch → ∃ i, TokenAt (mail t) ch k' tok' i) ∧ Fits ch (face t ch) k' tok' ∧
    stage k' tok' < stage k tok ∧ (∀ sta, Accepts sta tok → Accepts sta tok') ∧
    (face t ch).sta = (face s ch).sta ∧ (face t ch).wait = (face s ch).wait ∧
    (face t ch).standby = (face s ch).standby ∧ (face t ch).pause = (face s ch).pause ∧
    (face t ch).record = (face s ch).record

structure Turn (s t : System) (k : Thr) (ch : Ch) : Prop where
  others : ∀ d, d ≠ ch → face t d = face s d
  alive : Alive s → Alive t
  what : Idles s t k ch ∨ Passes s t k ch

/-- Whoever takes a token knows what it tells. -/
theorem Inv.taken {m : Thr → List (Option (Ch × Tok))} (h : Inv s)
    (htakes : Takes (mail s) m k (some (ch, tok))) :
    (face s ch).wait = true ∧ Fits ch (face s ch) k tok ∧ Accepts (face s ch).sta tok ∧
      NoToken m ch := by
  cases hwait : (face s ch).wait with
  | false =>
      have hnone := ((h.lane ch).quiet hwait).1 k
      rw [htakes.1, free_cons] at hnone
      exact absurd rfl (hnone.1 tok)
  | true =>
      obtain ⟨k', tok', i, hat, hfits, hsta⟩ := (h.lane ch).under hwait
      obtain rfl := hat.holder htakes rfl
      rcases hat.takes htakes with ⟨heq, hnone⟩ | ⟨hne, -⟩
      · obtain ⟨-, rfl⟩ := Prod.mk.inj (Option.some.inj heq)
        exact ⟨rfl, hfits, hsta, hnone⟩
      · exact absurd rfl (hne tok)

/-- The end of a turn: one message with a token. -/
theorem passes_of_send {m : Thr → List (Option (Ch × Tok))} {u : System} {k' : Thr} {tok' : Tok}
    (htakes : Takes (mail s) m k (some (ch, tok))) (hdata : ∀ d, Keeps d m (mail u))
    (hsend : Sends (mail u) (mail t) (single k' (some (ch, tok'))))
    (hfits : Fits ch (face t ch) k' tok') (hstage : stage k' tok' < stage k tok)
    (haccepts : ∀ sta, Accepts sta tok → Accepts sta tok')
    (hface : (face t ch).sta = (face s ch).sta ∧ (face t ch).wait = (face s ch).wait ∧
      (face t ch).standby = (face s ch).standby ∧ (face t ch).pause = (face s ch).pause ∧
      (face t ch).record = (face s ch).record) : Passes s t k ch := by
  refine ⟨m, tok, k', tok', htakes, fun d hd => ?_, fun hnone => ?_, hfits, hstage, haccepts, hface⟩
  · exact (hdata d).trans (Keeps.sends_other hsend hd)
  · exact ⟨_, ((hdata ch).1 hnone).sends_token hsend⟩

/-! ## The stream threads -/

/-- The lane of `ch` with another stream thread and queue, before anything is sent. -/
def withStream (s : System) (ch : Ch) (str : StreamCtl) (queue : List StreamMsg) : System :=
  setLane s ch { s.lanes ch with str := str, streamQ := queue }

theorem face_withStream (s : System) (ch : Ch) (str : StreamCtl) (queue : List StreamMsg) :
    face (withStream s ch str queue) ch = { face s ch with str := str.strThrSta } :=
  face_setLane s ch _

theorem calm_str {str : StreamCtl} (h : StreamCtl.SameRest (s.lanes ch).str str) :
    Calm (face s ch) { face s ch with str := str.strThrSta } :=
  ⟨rfl, rfl, rfl, rfl, rfl, h.rest, fun _ hw => hw⟩

theorem io_passes {io : StreamIo} (h : io.passes = true) :
    (match io.disk with | .notPassed => false | _ => true) = true ∧
      (match io.net with | .notPassed => false | _ => true) = true :=
  Bool.and_eq_true_iff.1 h

theorem step_alive {str str' : StreamCtl} {cmd : StreamCmd} (h : str.step cmd = some str') :
    str.exit = false := by
  cases hexit : str.exit with
  | false => rfl
  | true => simp [StreamCtl.step, hexit] at h

/-- Without a command a thread that does not block only moves about. -/
theorem step_noMessage {str str' : StreamCtl} {io : StreamIo} (hio : io.passes = true)
    (h : str.step (.noMessage io.disk io.net io.connected) = some str') :
    StreamCtl.SameRest str str' := by
  have halive := step_alive h
  simp only [StreamCtl.step, halive, Bool.false_eq_true, if_false] at h
  exact StreamCtl.sameRest_noMessage (io_passes hio).1 (io_passes hio).2 h

/-- Only two commands take a stream thread into standby or out of it. -/
theorem step_cmd {str str' : StreamCtl} {io : StreamIo} {m : StreamMsg} (hio : io.passes = true)
    (h : str.step (m.cmd io) = some str') :
    str'.exit = str.exit ∧
      match m with
      | .standby _ => str'.strThrSta = .standby
      | .workOnAlready _ => str'.strThrSta ≠ .standby
      | _ => StreamCtl.SameRest str str' := by
  have halive := step_alive h
  cases m with
  | standby =>
      simp only [StreamMsg.cmd, StreamCtl.step, halive, Bool.false_eq_true, if_false,
        Option.some.injEq] at h
      subst h
      exact (StreamCtl.standby_sta str).symm
  | workOnAlready record =>
      simp only [StreamMsg.cmd, StreamCtl.step, halive, Bool.false_eq_true, if_false,
        Option.some.injEq] at h
      subst h
      exact (StreamCtl.workOnAlready_sta str record io.connected).symm
  | pause on =>
      simp only [StreamMsg.cmd, StreamCtl.step, halive, Bool.false_eq_true, if_false,
        Option.some.injEq] at h
      subst h
      have hsame := StreamCtl.sameRest_pause str on
      exact ⟨hsame.exit, hsame⟩
  | setRate rate =>
      simp only [StreamMsg.cmd, StreamCtl.step, halive, Bool.false_eq_true, if_false,
        Option.some.injEq] at h
      subst h
      have hsame := StreamCtl.sameRest_setRate str rate
      exact ⟨hsame.exit, hsame⟩
  | chooseFile infor now =>
      simp only [StreamMsg.cmd, StreamCtl.step, halive, Bool.false_eq_true, if_false,
        Option.some.injEq] at h
      subst h
      have hsame := StreamCtl.sameRest_chooseFile str infor now io.play
      exact ⟨hsame.exit, hsame⟩
  | singleFrame down =>
      simp only [StreamMsg.cmd, StreamCtl.step, halive, Bool.false_eq_true, if_false] at h
      have hsame := StreamCtl.sameRest_singleFrame (io_passes hio).1 h
      exact ⟨hsame.exit, hsame⟩
  | connect | queryPlayTime | setAudio | standbyAlready =>
      simp only [StreamMsg.cmd, StreamCtl.step, halive, Bool.false_eq_true, if_false,
        Option.some.injEq] at h
      subst h
      exact ⟨rfl, StreamCtl.SameRest.refl str⟩

/-- A stream thread has taken a token and answers the player. `u` is what it has come to before. -/
theorem turn_answer {m : Thr → List (Option (Ch × Tok))} {u : System} {a : PlayerMsg}
    (htakes : Takes (mail s) m (.stream ch) (some (ch, tok))) (hdata : ∀ d, Keeps d m (mail u))
    (hothers : ∀ d, d ≠ ch → face u d = face s d) (halive : Alive s → Alive u) {sta : StreamSta}
    (hself : face u ch = { face s ch with str := sta })
    (hfits : Fits ch { face s ch with str := sta } .player a.tok)
    (hstage : stage .player a.tok < stage (.stream ch) tok)
    (haccepts : ∀ sta, Accepts sta tok → Accepts sta a.tok) :
    Turn s (playerPutMsg u ch a) (.stream ch) ch := by
  refine ⟨hothers, halive, .inr ?_⟩
  refine passes_of_send htakes hdata (sends_playerPutMsg u ch a) ?_ hstage haccepts ?_
  · rw [face_playerPutMsg, hself]
    exact hfits
  · simp [hself]

/-- It passes a command on. -/
theorem turn_down {m : Thr → List (Option (Ch × Tok))} {u : System} {c : Ctl}
    (htakes : Takes (mail s) m (.stream ch) (some (ch, tok))) (hdata : ∀ d, Keeps d m (mail u))
    (hothers : ∀ d, d ≠ ch → face u d = face s d) (halive : Alive s → Alive u) {sta : StreamSta}
    (hself : face u ch = { face s ch with str := sta })
    (hfits : Fits ch { face s ch with str := sta } (.worker .decode ch) c.tok)
    (hstage : stage (.worker .decode ch) c.tok < stage (.stream ch) tok)
    (haccepts : ∀ sta, Accepts sta tok → Accepts sta c.tok) :
    Turn s (workerPutMsg u .decode ch (.ctl c)) (.stream ch) ch := by
  refine ⟨fun d hd => ?_, fun ha => alive_workerPutMsg (halive ha), .inr ?_⟩
  · rw [face_workerPutMsg, hothers d hd]
  refine passes_of_send htakes hdata (sends_workerPutMsg u .decode ch _) ?_ hstage haccepts ?_
  · rw [face_workerPutMsg, hself]
    exact hfits
  · simp [hself]

theorem standTo_zero (f : Face) : StandTo f 0 := by
  intro w hw
  cases w <;> simp [Worker.place] at hw

theorem turn_stream {io : StreamIo} (h : Inv s) (hturn : streamTurn s ch io = some t) :
    Turn s t (.stream ch) ch := by
  unfold streamTurn at hturn
  simp only at hturn
  split at hturn
  · next m queue hq =>
      obtain ⟨hguard, hturn⟩ := Option.ite_none_right_eq_some.1 hturn
      obtain ⟨hio, -⟩ := Bool.and_eq_true_iff.1 hguard
      obtain ⟨str, hstep, rfl⟩ := Option.map_eq_some_iff.1 hturn
      obtain ⟨hexit, hcmd⟩ := step_cmd hio hstep
      have htakes := takes_stream str hq
      change Takes _ (mail (withStream s ch str queue)) _ _ at htakes
      have hdata : ∀ d, Keeps d (mail (withStream s ch str queue))
          (mail (putData (withStream s ch str queue) ch io.data)) := fun d => keeps_putData _ ch d _
      have hself : face (putData (withStream s ch str queue) ch io.data) ch =
          { face s ch with str := str.strThrSta } := by
        rw [face_putData, face_withStream]
      have hothers : ∀ d, d ≠ ch →
          face (putData (withStream s ch str queue) ch io.data) d = face s d := by
        intro d hd
        rw [face_putData]
        exact face_setLane_other hd
      have halive : Alive s → Alive (putData (withStream s ch str queue) ch io.data) := by
        intro halive
        exact alive_putData (alive_setLane halive (hexit.trans (halive ch))) _
      change Turn s (streamAnswer (putData (withStream s ch str queue) ch io.data) ch _ m) _ _
      generalize putData (withStream s ch str queue) ch io.data = u at hdata hself hothers halive ⊢
      cases m with
      | singleFrame down =>
          refine ⟨hothers, halive, .inl ⟨?_, .inr ⟨_, htakes, hdata⟩⟩⟩
          exact hself ▸ calm_str hcmd
      | setAudio on =>
          refine ⟨hothers, halive, .inl ⟨?_, .inr ⟨_, htakes, hdata⟩⟩⟩
          exact hself ▸ calm_str hcmd
      | standby black =>
          obtain ⟨-, hfits, -, -⟩ := h.taken htakes
          exact turn_down htakes hdata hothers halive hself
            ⟨rfl, hfits.2, hcmd, standTo_zero _⟩ (by show 11 < 12; decide)
            (fun sta hsta => by cases sta <;> exact hsta)
      | connect record =>
          obtain ⟨-, hfits, -, -⟩ := h.taken htakes
          have hstr : (s.lanes ch).str.strThrSta = .standby := hfits.2.2.1
          rw [streamAnswer, if_pos hstr]
          exact turn_down htakes hdata hothers halive hself
            ⟨rfl, hfits.2.1, (calm_str hcmd).allStandby hfits.2.2⟩ (by show 11 < 12; decide)
            (fun sta hsta => by cases sta <;> exact hsta)
      | pause on =>
          obtain ⟨-, hfits, -, -⟩ := h.taken htakes
          have hstr : (s.lanes ch).str.strThrSta ≠ .standby := hfits.2.2
          rw [streamAnswer, if_pos hstr]
          exact turn_answer htakes hdata hothers halive hself
            ⟨hfits.2.1, fun heq => hstr (hcmd.rest.1 heq)⟩ (by show 3 < 4; decide)
            (fun sta hsta => by cases sta <;> exact hsta)
      | queryPlayTime =>
          obtain ⟨-, hfits, -, -⟩ := h.taken htakes
          exact turn_answer htakes hdata hothers halive hself ((calm_str hcmd).rest hfits.2)
            (by show 3 < 4; decide) (fun sta hsta => by cases sta <;> exact hsta)
      | setRate rate =>
          obtain ⟨-, hfits, -, -⟩ := h.taken htakes
          exact turn_answer htakes hdata hothers halive hself ((calm_str hcmd).rest hfits.2)
            (by show 3 < 4; decide) (fun sta hsta => by cases sta <;> exact hsta)
      | chooseFile infor now =>
          obtain ⟨-, hfits, -, -⟩ := h.taken htakes
          exact turn_answer htakes hdata hothers halive hself ((calm_str hcmd).rest hfits.2)
            (by show 13 < 14; decide) (fun sta hsta => by cases sta <;> exact hsta)
      | workOnAlready record =>
          obtain ⟨-, hfits, -, -⟩ := h.taken htakes
          have hstr : (s.lanes ch).str.strThrSta = .standby := hfits.2.2
          rw [streamAnswer, if_pos hstr]
          exact turn_answer htakes hdata hothers halive hself ⟨hfits.2.1, hcmd⟩
            (by show 3 < 4; decide) (fun sta hsta => by cases sta <;> exact hsta)
      | standbyAlready =>
          obtain ⟨-, hfits, -, -⟩ := h.taken htakes
          have hstr : (s.lanes ch).str.strThrSta = .standby := hfits.2.2.1
          rw [streamAnswer, if_pos hstr]
          exact turn_answer htakes hdata hothers halive hself
            ⟨hfits.2.1, (calm_str hcmd).allStandby hfits.2.2⟩ (by show 3 < 4; decide)
            (fun sta hsta => by cases sta <;> exact hsta)
  · next hq =>
      obtain ⟨hguard, hturn⟩ := Option.ite_none_right_eq_some.1 hturn
      obtain ⟨hio, -⟩ := Bool.and_eq_true_iff.1 hguard
      obtain ⟨str, hstep, rfl⟩ := Option.map_eq_some_iff.1 hturn
      have hsame := step_noMessage hio hstep
      have hmail : mail (setLane s ch { s.lanes ch with str := str }) = mail s := by
        funext k
        cases k with
        | stream c => by_cases hc : c = ch <;> simp [mail, setLane, hc]
        | worker v c => by_cases hc : c = ch <;> simp [mail, setLane, hc]
        | player => rfl
        | display => rfl
      refine ⟨fun d hd => ?_, fun ha => ?_, .inl ⟨?_, .inl ⟨?_, fun d => ?_⟩⟩⟩
      · rw [face_putData]
        exact face_setLane_other hd
      · exact alive_putData (alive_setLane ha (hsame.exit.trans (ha ch))) _
      · rw [face_putData, face_setLane]
        exact calm_str hsame
      · simp [mail, hq]
      · exact hmail ▸ keeps_putData _ ch d _

/-! ## The workers -/

/-- A worker in another state. -/
def Face.withWorker (f : Face) (w : Worker) (sta : ThrSta) : Face :=
  { f with worker := Function.update f.worker w sta }

theorem Face.withWorker_self (f : Face) (w : Worker) : f.withWorker w (f.worker w) = f := by
  rw [Face.withWorker, Function.update_eq_self]

theorem face_workerTake (s : System) (w : Worker) (ch : Ch) (queue : List WorkerMsg) (sta : ThrSta) :
    face (workerTake s w ch queue sta) ch =
      (face s ch).withWorker w sta := by
  rw [workerTake, face_setLane]
  rfl

theorem workerData_tok (w : Worker) (sta : ThrSta) (io : WorkerIo) (m : WorkerMsg) :
    ∀ x ∈ (workerData w sta io m).2, x.tok = none := by
  cases w <;> cases m <;> simp only [workerData, decodeData, fluencyData, copyData] <;>
    (try split) <;> (try split) <;> (try split) <;> simp [WorkerMsg.tok]

theorem keeps_putNext {m : WorkerMsg} (hm : m.tok = none) (s : System) (w : Worker) (ch d : Ch) :
    Keeps d (mail s) (mail (putNext s w ch m)) := by
  unfold putNext
  split
  · exact keeps_workerPutMsg (tok_none hm) s .fluency
  · exact keeps_workerPutMsg (tok_none hm) s .copy
  · cases hm
  · cases hm
  · exact keeps_disPutMsg (by simp [DisMsg.mail]) s
  · exact Keeps.refl d _

/-- A thread at work may fall back; one that stands by stays so. -/
theorem calm_workerData (f : Face) (w : Worker) (io : WorkerIo) (m : WorkerMsg) :
    Calm f (f.withWorker w (workerData w (f.worker w) io m).1) := by
  refine ⟨rfl, rfl, rfl, rfl, rfl, Iff.rfl, fun v hv => ?_⟩
  by_cases hvw : v = w
  · subst hvw
    simp only [Face.withWorker, Function.update_self]
    cases v <;> cases m <;> simp [workerData, decodeData, fluencyData, copyData, hv]
  · simpa [Face.withWorker, hvw] using hv

/-- Behind a worker. -/
def nextThr (ch : Ch) : Worker → Thr
  | .decode => .worker .fluency ch
  | .fluency => .worker .copy ch
  | .copy => .display

/-- In front of it. -/
def prevThr (ch : Ch) : Worker → Thr
  | .decode => .stream ch
  | .fluency => .worker .decode ch
  | .copy => .worker .fluency ch

theorem sends_putNext (s : System) (w : Worker) (ch : Ch) {c : Ctl}
    (hc : c.tok = .workOn ∨ c.tok = .standby) :
    Sends (mail s) (mail (putNext s w ch (.ctl c))) (single (nextThr ch w) (some (ch, c.tok))) := by
  cases w with
  | decode => exact sends_workerPutMsg s .fluency ch (.ctl c)
  | fluency => exact sends_workerPutMsg s .copy ch (.ctl c)
  | copy =>
      cases c with
      | workOn record => exact sends_disPutMsg s (.workOn ch record)
      | standby => exact sends_disPutMsg s (.standby ch)
      | workOnAlready => simp [Ctl.tok] at hc
      | standbyAlready => simp [Ctl.tok] at hc

theorem sends_putPrev (s : System) (w : Worker) (ch : Ch) {c : Ctl}
    (hc : c.tok = .workOnAlready ∨ c.tok = .standbyAlready) :
    Sends (mail s) (mail (putPrev s w ch c)) (single (prevThr ch w) (some (ch, c.tok))) := by
  cases w with
  | decode =>
      cases c with
      | workOnAlready record => exact sends_streamPutMsg s ch (.workOnAlready record)
      | standbyAlready => exact sends_streamPutMsg s ch .standbyAlready
      | workOn => simp [Ctl.tok] at hc
      | standby => simp [Ctl.tok] at hc
  | fluency => exact sends_workerPutMsg s .decode ch (.ctl c)
  | copy => exact sends_workerPutMsg s .fluency ch (.ctl c)

/-- The thread itself stands by now. -/
theorem StandTo.here {f : Face} {w : Worker} (h : StandTo f (w.place - 1)) :
    StandTo (f.withWorker w .standby) w.place := by
  intro v hv
  by_cases hvw : v = w
  · subst hvw
    simp [Face.withWorker]
  · show Function.update f.worker w .standby v = .standby
    rw [Function.update_of_ne hvw]
    refine h v ?_
    cases v <;> cases w <;> simp [Worker.place] at hv hvw ⊢

theorem StandTo.all {f : Face} (h : StandTo f 3) (hstr : f.str = .standby) : AllStandby f :=
  ⟨hstr, fun w => h w (by cases w <;> decide)⟩

theorem fits_next_standby {f : Face} (hfits : Fits ch f (.worker w ch) .standby) :
    Fits ch (f.withWorker w .standby) (nextThr ch w) .standby := by
  obtain ⟨-, hstd, hstr, hto⟩ := hfits
  have hhere := hto.here
  cases w with
  | decode => exact ⟨rfl, hstd, hstr, hhere⟩
  | fluency => exact ⟨rfl, hstd, hstr, hhere⟩
  | copy => exact ⟨hstd, hhere.all hstr⟩

theorem fits_next_workOn {f : Face} (hfits : Fits ch f (.worker w ch) .workOn) :
    Fits ch f (nextThr ch w) .workOn := by
  cases w with
  | decode => exact hfits
  | fluency => exact hfits
  | copy => exact hfits.2

theorem fits_prev_workOnAlready {f : Face} (hfits : Fits ch f (.worker w ch) .workOnAlready) :
    Fits ch (f.withWorker w .workOn) (prevThr ch w)
      .workOnAlready := by
  obtain ⟨-, hstd, hstr, hto⟩ := hfits
  have hbefore : StandTo (f.withWorker w .workOn) (w.place - 1) := by
    intro v hv
    have hvw : v ≠ w := by
      rintro rfl
      cases v <;> simp [Worker.place] at hv
    show Function.update f.worker w .workOn v = .standby
    rw [Function.update_of_ne hvw]
    exact hto v (Nat.le_trans hv (Nat.sub_le _ _))
  cases w with
  | decode => exact ⟨rfl, hstd, hstr⟩
  | fluency => exact ⟨rfl, hstd, hstr, hbefore⟩
  | copy => exact ⟨rfl, hstd, hstr, hbefore⟩

theorem fits_prev_standbyAlready {f : Face} (hfits : Fits ch f (.worker w ch) .standbyAlready) :
    Fits ch f (prevThr ch w) .standbyAlready := by
  cases w <;> exact hfits

theorem face_workerTake_other {queue : List WorkerMsg} {sta : ThrSta} (hd : d ≠ ch) :
    face (workerTake s w ch queue sta) d = face s d :=
  face_setLane_other hd

/-- A worker has taken a token and sends it on. -/
theorem turn_worker {queue : List WorkerMsg} {c : Ctl} {sta : ThrSta} {k' : Thr}
    (hq : (s.lanes ch).workerQ w = .ctl c :: queue)
    (hsend : Sends (mail (workerTake s w ch queue sta)) (mail t) (single k' (some (ch, c.tok))))
    (hface : ∀ d, face t d = face (workerTake s w ch queue sta) d) (halive : Alive s → Alive t)
    (hfits : Fits ch ((face s ch).withWorker w sta) k' c.tok)
    (hstage : stage k' c.tok < stage (.worker w ch) c.tok) : Turn s t (.worker w ch) ch := by
  have htakes : Takes (mail s) (mail (workerTake s w ch queue sta)) (.worker w ch)
      (some (ch, c.tok)) := takes_worker sta hq
  refine ⟨fun d hd => ?_, halive, .inr ?_⟩
  · rw [hface, face_workerTake_other hd]
  · refine passes_of_send htakes (fun d => Keeps.refl d _) hsend ?_ hstage (fun _ => id) ?_
    · rw [hface, face_workerTake]
      exact hfits
    · rw [hface, face_workerTake]
      simp [Face.withWorker]

theorem stage_next (ch : Ch) (w : Worker) {tok : Tok} (h : tok = .workOn ∨ tok = .standby) :
    stage (nextThr ch w) tok < stage (.worker w ch) tok := by
  rcases h with rfl | rfl <;> cases w <;> simp [stage, nextThr, Worker.place]

theorem stage_prev (ch : Ch) (w : Worker) {tok : Tok}
    (h : tok = .workOnAlready ∨ tok = .standbyAlready) :
    stage (prevThr ch w) tok < stage (.worker w ch) tok := by
  rcases h with rfl | rfl <;> cases w <;> simp [stage, prevThr, Worker.place]

theorem turn_workerCtl {queue : List WorkerMsg} {c : Ctl} (h : Inv s)
    (hq : (s.lanes ch).workerQ w = .ctl c :: queue)
    (hturn : (match (workerCtl ((s.lanes ch).thrSta w) c).2 with
      | some .next => some (putNext
          (workerTake s w ch queue (workerCtl ((s.lanes ch).thrSta w) c).1) w ch (.ctl c))
      | some .prev => some (putPrev
          (workerTake s w ch queue (workerCtl ((s.lanes ch).thrSta w) c).1) w ch c)
      | none => some (workerTake s w ch queue (workerCtl ((s.lanes ch).thrSta w) c).1)) = some t) :
    Turn s t (.worker w ch) ch := by
  have htakes : Takes (mail s) (mail (workerTake s w ch queue ((s.lanes ch).thrSta w)))
      (.worker w ch) (some (ch, c.tok)) := takes_worker _ hq
  obtain ⟨-, hfits, -, -⟩ := h.taken htakes
  have hsame : (face s ch).withWorker w ((s.lanes ch).thrSta w) = face s ch :=
    (face s ch).withWorker_self w
  have htake : ∀ sta, Alive s → Alive (workerTake s w ch queue sta) :=
    fun sta ha => alive_setLane ha (ha ch)
  cases c with
  | standby =>
      obtain rfl := Option.some.inj hturn
      exact turn_worker hq (sends_putNext _ w ch (.inr rfl)) (fun d => face_putNext _ w ch d _)
        (fun ha => alive_putNext (htake _ ha)) (fits_next_standby hfits) (stage_next ch w (.inr rfl))
  | workOn record =>
      have hstd : (s.lanes ch).thrSta w = .standby := hfits.2.2.2 w
      simp only [workerCtl, hstd, if_true, Option.some.injEq] at hturn
      subst hturn
      refine turn_worker hq (sends_putNext _ w ch (.inl rfl)) (fun d => face_putNext _ w ch d _)
        (fun ha => alive_putNext (htake _ ha)) ?_ (stage_next ch w (.inl rfl))
      rw [← hstd, hsame]
      exact fits_next_workOn hfits
  | workOnAlready record =>
      have hstd : (s.lanes ch).thrSta w = .standby := hfits.2.2.2 w (Nat.le_refl _)
      simp only [workerCtl, hstd, if_true, Option.some.injEq] at hturn
      subst hturn
      exact turn_worker hq (sends_putPrev _ w ch (.inl rfl)) (fun d => face_putPrev _ w ch d _)
        (fun ha => alive_putPrev (htake _ ha)) (fits_prev_workOnAlready hfits)
        (stage_prev ch w (.inl rfl))
  | standbyAlready =>
      have hstd : (s.lanes ch).thrSta w = .standby := hfits.2.2.2 w
      simp only [workerCtl, hstd, if_true, Option.some.injEq] at hturn
      subst hturn
      refine turn_worker hq (sends_putPrev _ w ch (.inr rfl)) (fun d => face_putPrev _ w ch d _)
        (fun ha => alive_putPrev (htake _ ha)) ?_ (stage_prev ch w (.inr rfl))
      rw [← hstd, hsame]
      exact fits_prev_standbyAlready hfits

/-- A worker has taken a message without a token, and sends data one after the other. -/
theorem turn_putNext (w : Worker) (ch : Ch) {u : System} {out : List WorkerMsg}
    (hout : ∀ x ∈ out, x.tok = none) :
    ∀ {v : System}, (∀ d, Keeps d (mail u) (mail v) ∧ face v d = face u d) → (Alive u → Alive v) →
      (∀ d, Keeps d (mail u) (mail (out.foldl (fun s m => putNext s w ch m) v)) ∧
        face (out.foldl (fun s m => putNext s w ch m) v) d = face u d) ∧
      (Alive u → Alive (out.foldl (fun s m => putNext s w ch m) v)) := by
  induction out with
  | nil => exact fun hsame halive => ⟨hsame, halive⟩
  | cons x out ih =>
      intro v hsame halive
      have hx := hout x List.mem_cons_self
      refine ih (fun y hy => hout y (List.mem_cons_of_mem x hy)) (fun d => ?_) fun hu =>
        alive_putNext (halive hu)
      exact ⟨(hsame d).1.trans (keeps_putNext hx v w ch d),
        (face_putNext v w ch d x).trans (hsame d).2⟩

theorem turn_workerTurn {io : WorkerIo} (h : Inv s) (hturn : workerTurn s w ch io = some t) :
    Turn s t (.worker w ch) ch := by
  unfold workerTurn at hturn
  simp only at hturn
  split at hturn
  · cases hturn
  · next c queue hq => exact turn_workerCtl h hq hturn
  · next m queue hctl hq =>
      obtain rfl := Option.some.inj hturn
      have hm : m.tok = none := by
        cases m with
        | ctl c => exact absurd rfl (hctl c)
        | newData | ignoreData | black | frameSync | putBackBuf => rfl
      have htakes := takes_worker (workerData w ((s.lanes ch).thrSta w) io m).1 hq
      rw [hm] at htakes
      obtain ⟨hsame, halive⟩ := turn_putNext w ch
        (u := workerTake s w ch queue (workerData w ((s.lanes ch).thrSta w) io m).1)
        (workerData_tok w ((s.lanes ch).thrSta w) io m) (fun d => ⟨Keeps.refl d _, rfl⟩) id
      refine ⟨fun d hd => ?_, fun ha => halive (alive_setLane ha (ha ch)),
        .inl ⟨?_, .inr ⟨_, htakes, fun d => (hsame d).1⟩⟩⟩
      · rw [(hsame d).2, face_workerTake_other hd]
      · rw [(hsame ch).2, face_workerTake]
        exact calm_workerData (face s ch) w io m

/-! ## The display -/

theorem takes_display {m : DisMsg} {queue : List DisMsg} (h : s.disQ = m :: queue)
    (hu : t.disQ = queue ∧ t.playerQ = s.playerQ ∧ t.lanes = s.lanes) :
    Takes (mail s) (mail t) .display m.mail := by
  obtain ⟨hq, hplayer, hlanes⟩ := hu
  refine ⟨by simp [mail, h, hq], fun j hj => ?_⟩
  cases j with
  | display => exact absurd rfl hj
  | stream c => simp [mail, hlanes]
  | worker v c => simp [mail, hlanes]
  | player => simp [mail, hplayer]

theorem face_display (hctl : t.ctl = s.ctl) (hlanes : t.lanes = s.lanes) (d : Ch) :
    face t d = face s d := by
  simp [face, hctl, hlanes]

/-- The display answers the copy thread it has a command from. -/
theorem turn_display_ctl {u : System} {m : DisMsg} {queue : List DisMsg} {c : Ctl}
    (hq : s.disQ = m :: queue) (hm : m.mail = some (ch, tok))
    (hu : u.disQ = queue ∧ u.playerQ = s.playerQ ∧ u.lanes = s.lanes) (hctl : u.ctl = s.ctl)
    (hfits : Fits ch (face s ch) (.worker .copy ch) c.tok)
    (hstage : stage (.worker .copy ch) c.tok < stage .display tok)
    (haccepts : ∀ sta, Accepts sta tok → Accepts sta c.tok) :
    Turn s (workerPutMsg u .copy ch (.ctl c)) .display ch := by
  have hface := face_display hctl hu.2.2
  have htakes := takes_display hq hu
  rw [hm] at htakes
  refine ⟨fun d _ => ?_, fun ha => alive_workerPutMsg fun d => ?_, .inr ?_⟩
  · rw [face_workerPutMsg, hface]
  · rw [hu.2.2]
    exact ha d
  · refine passes_of_send htakes (fun d => Keeps.refl d _) (sends_workerPutMsg u .copy ch _) ?_
      hstage haccepts ?_
    · rw [face_workerPutMsg, hface]
      exact hfits
    · simp [hface]

/-- A message to the display without a token. -/
theorem turn_display_data {u : System} {m : DisMsg} {queue : List DisMsg}
    (hq : s.disQ = m :: queue) (hm : m.mail = none)
    (hu : u.disQ = queue ∧ u.playerQ = s.playerQ ∧ u.lanes = s.lanes) (hctl : u.ctl = s.ctl)
    (ht : ∀ d, Keeps d (mail u) (mail t) ∧ face t d = face u d) (halive : Alive u → Alive t) :
    Turn s t .display ch := by
  have hface := face_display hctl hu.2.2
  have htakes := takes_display hq hu
  rw [hm] at htakes
  refine ⟨fun d _ => ?_, fun ha => halive fun d => ?_, .inl ⟨?_, .inr ⟨_, htakes, fun d => (ht d).1⟩⟩⟩
  · rw [(ht d).2, hface]
  · rw [hu.2.2]
    exact ha d
  · exact .of_eq (by rw [(ht ch).2, hface])

theorem turn_display {fails publishes : Bool} (h : Inv s)
    (hturn : displayTurn s fails publishes = some t) :
    ∃ ch, Turn s t .display ch := by
  unfold displayTurn at hturn
  split at hturn
  · cases hturn
  · next queue hq =>
      obtain rfl := Option.some.inj hturn
      refine ⟨0, turn_display_data (u := { s with disQ := queue }) hq rfl ⟨rfl, rfl, rfl⟩ rfl
        (fun d => ?_) fun ha => ?_⟩
      · have hfalls : ∀ v : System, mail (if fails then { v with disThrSta := .standby } else v) =
            mail v ∧ face (if fails then { v with disThrSta := .standby } else v) d = face v d := by
          intro v
          cases fails
          · exact ⟨rfl, rfl⟩
          · exact ⟨by funext k; cases k <;> rfl, rfl⟩
        simp only
        split
        · rw [(hfalls _).1, (hfalls _).2]
          cases publishes
          · exact ⟨Keeps.refl d _, rfl⟩
          · exact ⟨keeps_disPutMsg (by simp [DisMsg.mail]) _, rfl⟩
        · exact ⟨Keeps.refl d _, rfl⟩
      · simp only
        split
        · cases publishes <;> cases fails <;> exact ha
        · exact ha
  · next channel record queue hq =>
      obtain rfl := Option.some.inj hturn
      have htakes : Takes (mail s) (mail { s with disQ := queue }) .display
          (some (channel, .workOn)) := takes_display hq ⟨rfl, rfl, rfl⟩
      obtain ⟨-, ⟨hstd, hall⟩, -, -⟩ := h.taken htakes
      refine ⟨channel, turn_display_ctl hq rfl ⟨rfl, rfl, rfl⟩ rfl ?_ (by show 7 < 8; decide)
        (fun sta hsta => by cases sta <;> exact hsta)⟩
      exact ⟨rfl, hstd, hall.1, fun w _ => hall.2 w⟩
  · next channel queue hq =>
      obtain rfl := Option.some.inj hturn
      have htakes : Takes (mail s) (mail { s with disQ := queue }) .display
          (some (channel, .standby)) := takes_display hq ⟨rfl, rfl, rfl⟩
      obtain ⟨-, ⟨hstd, hall⟩, -, -⟩ := h.taken htakes
      exact ⟨channel, turn_display_ctl hq rfl ⟨rfl, rfl, rfl⟩ rfl ⟨rfl, hstd, hall⟩
        (by show 7 < 8; decide) (fun sta hsta => by cases sta <;> exact hsta)⟩
  · next channel queue hq =>
      obtain rfl := Option.some.inj hturn
      exact ⟨channel, turn_display_data (u := { s with disQ := queue, disSingleCh := some channel })
        hq rfl ⟨rfl, rfl, rfl⟩ rfl (fun d => ⟨Keeps.refl d _, rfl⟩) id⟩
  · next queue hq =>
      simp only at hturn
      refine ⟨0, turn_display_data (u := { s with disQ := queue, disSingleCh := none }) hq rfl
        ⟨rfl, rfl, rfl⟩ rfl ?_ ?_⟩
      · intro d
        split at hturn <;> obtain rfl := Option.some.inj hturn
        · exact ⟨keeps_workerPutMsg (tok_none rfl) _ .copy, face_workerPutMsg _ _ _ d _⟩
        · exact ⟨Keeps.refl d _, rfl⟩
      · intro ha
        split at hturn <;> obtain rfl := Option.some.inj hturn
        · exact alive_workerPutMsg ha
        · exact ha

end

end Nvr.Player.Control
