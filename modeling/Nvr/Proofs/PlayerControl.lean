import Nvr.Lib.Fairness
import Nvr.Lib.Run
import Nvr.Proofs.PlayerTurns

/-!
# The player is never left waiting

While the player waits for a channel, exactly one message is under way for it, and where it arrives
it is answered or passed on: the number of threads it still has to pass and the messages in front of
it go down, whatever else happens. The player takes no command meanwhile, so the channels it waits for
become fewer, and it is idle again after the last one.
-/

namespace Nvr.Player.Control

open Mailbox Nvr.Storage

section

variable {s t u : System} {ch d : Ch} {k : Thr} {tok : Tok} {T : PlayerSta}

/-! ## Turns keep the invariant -/

/-- The invariant speaks of faces and of the tokens in the queues. -/
theorem Inv.keeps (h : Inv s) (hface : ∀ d, face t d = face s d)
    (hkeeps : ∀ d, Keeps d (mail s) (mail t)) : Inv t where
  idle := by
    have hsta : t.ctl.playerThrSta = s.ctl.playerThrSta := congrArg Face.sta (hface 0)
    have hwait : ∀ d, t.ctl.waitReturn d = s.ctl.waitReturn d := fun d =>
      congrArg Face.wait (hface d)
    simp only [hsta, hwait]
    exact h.idle
  lane d := (h.lane d).calm (hkeeps d) (.of_eq (hface d))

theorem Inv.congr (h : Inv s) (hface : ∀ d, face t d = face s d) (hmail : mail t = mail s) :
    Inv t :=
  h.keeps hface fun _ => Keeps.of_eq hmail

theorem Inv.turn (h : Inv s) (hturn : Turn s t k ch) : Inv t := by
  have hbits : (face t ch).sta = (face s ch).sta ∧ (face t ch).wait = (face s ch).wait := by
    rcases hturn.what with ⟨hcalm, -⟩ | ⟨_, _, _, _, -, -, -, -, -, -, hsta, hwait, -⟩
    · exact ⟨hcalm.sta, hcalm.wait⟩
    · exact ⟨hsta, hwait⟩
  have hkeeps : ∀ d, d ≠ ch → Keeps d (mail s) (mail t) := by
    intro d hd
    rcases hturn.what with ⟨-, ⟨-, hall⟩ | ⟨m, htakes, hall⟩⟩ | ⟨m, tok, _, _, htakes, hothers, -⟩
    · exact hall d
    · exact (Keeps.takes htakes fun _ => by simp).trans (hall d)
    · exact (Keeps.takes_other htakes hd).trans (hothers d hd)
  constructor
  · have hwait : ∀ d, t.ctl.waitReturn d = s.ctl.waitReturn d := by
      intro d
      by_cases hd : d = ch
      · subst hd
        exact hbits.2
      · exact congrArg Face.wait (hturn.others d hd)
    have hsta : t.ctl.playerThrSta = s.ctl.playerThrSta := hbits.1
    simp only [hsta, hwait]
    exact h.idle
  · intro d
    by_cases hd : d = ch
    · subst hd
      rcases hturn.what with ⟨hcalm, ⟨-, hall⟩ | ⟨m, htakes, hall⟩⟩ |
        ⟨m, tok, k', tok', htakes, -, hnext, hfits, -, haccepts, hsta, hwait, hstd, hpause, hrec⟩
      · exact (h.lane d).calm (hall d) hcalm
      · exact (h.lane d).calm ((Keeps.takes htakes fun _ => by simp).trans (hall d)) hcalm
      · obtain ⟨hwaits, -, hsta', hnone⟩ := h.taken htakes
        refine ⟨fun hquiet => ?_, fun _ => ?_, fun hp => ?_⟩
        · rw [hwait, hwaits] at hquiet
          cases hquiet
        · obtain ⟨i, hat⟩ := hnext hnone
          exact ⟨k', tok', i, hat, hfits, haccepts _ (hsta.symm ▸ hsta')⟩
        · rw [hrec, hstd]
          exact (h.lane d).pause (hpause ▸ hp)
    · rw [hturn.others d hd]
      exact (h.lane d).calm (hkeeps d hd) (Calm.refl _)

/-! ## Answers to the player -/

theorem mail_ctl (s : System) (c : PlayerCtl) : mail { s with ctl := c } = mail s := by
  funext k
  cases k <;> rfl

theorem mail_setWait (s : System) (ch : Ch) (b : Bool) : mail (setWait s ch b) = mail s :=
  mail_ctl s _

theorem mail_playerSetSta (s : System) (T : PlayerSta) : mail (playerSetSta s T) = mail s :=
  mail_ctl s _

theorem mail_setStatus (s : System) (ch : Ch) (c : ChannelStatus) :
    mail (setStatus s ch c) = mail s :=
  mail_ctl s _

/-- A stream is sent a message after the player's notes about its channel have changed. -/
theorem sends_setStatus (s : System) (ctl : PlayerCtl) (ch : Ch) (c : ChannelStatus)
    (m : StreamMsg) :
    Sends (mail s) (mail (streamPutMsg (setStatus { s with ctl := ctl } ch c) ch m))
      (single (.stream ch) (m.tok.map (Prod.mk ch))) := by
  have hsend := sends_streamPutMsg (setStatus { s with ctl := ctl } ch c) ch m
  rwa [mail_setStatus, mail_ctl] at hsend

/-- The pause of a channel that replays ends. -/
theorem playerSetChPause_ends {s : System} {ch : Ch} (hrec : s.ctl.recordEn ch = true)
    (hp : s.ctl.strPauseAlready ch = true) :
    playerSetChPause s ch false = (streamPutMsg (setStatus { s with
      ctl := { s.ctl with
        strPauseAlready := Function.update s.ctl.strPauseAlready ch false } } ch .paly) ch
      (.pause false), true) := by
  simp [playerSetChPause, hrec, hp]

@[simp] theorem face_playerSetSta (s : System) (T : PlayerSta) (d : Ch) :
    face (playerSetSta s T) d = { face s d with sta := T } := rfl

@[simp] theorem face_setStatus (s : System) (ch d : Ch) (c : ChannelStatus) :
    face (setStatus s ch c) d = face s d := rfl

theorem mail_answered (s : System) (ch : Ch) : mail (answered s ch) = mail s := by
  unfold answered
  simp only
  split
  · rw [mail_playerSetSta, mail_setWait]
  · exact mail_setWait s ch false

theorem wait_answered (s : System) (ch d : Ch) :
    (answered s ch).ctl.waitReturn d = if d = ch then false else s.ctl.waitReturn d := by
  have hwait : (setWait s ch false).ctl.waitReturn d =
      if d = ch then false else s.ctl.waitReturn d := by
    simp [setWait, Function.update_apply]
  unfold answered
  simp only
  split
  · exact hwait
  · exact hwait

theorem sta_answered (s : System) (ch : Ch) :
    (answered s ch).ctl.playerThrSta =
      if ∀ d, (answered s ch).ctl.waitReturn d = false then .idle else s.ctl.playerThrSta := by
  by_cases hall : ∀ d, (setWait s ch false).ctl.waitReturn d = false
  · have heq : answered s ch = playerSetSta (setWait s ch false) .idle := if_pos hall
    rw [heq]
    exact (if_pos hall).symm
  · have heq : answered s ch = setWait s ch false := if_neg hall
    rw [heq]
    exact (if_neg hall).symm

theorem face_answered (s : System) (ch d : Ch) :
    face (answered s ch) d = { face s d with
      sta := (answered s ch).ctl.playerThrSta
      wait := (answered s ch).ctl.waitReturn d } := by
  unfold answered
  simp only
  split <;> simp [face, setWait, playerSetSta]

/-- After the last answer the player is idle. -/
theorem inv_answered (hsta : s.ctl.playerThrSta ≠ .idle)
    (hothers : ∀ d, d ≠ ch → LaneInv d (face s d) (mail s)) (hnone : NoToken (mail s) ch)
    (hrest : Rest (face s ch))
    (hpause : (face s ch).pause = true → (face s ch).record = true ∧ (face s ch).standby = false) :
    Inv (answered s ch) := by
  constructor
  · rw [sta_answered]
    split
    · next hall => exact ⟨fun _ => hall, fun _ => rfl⟩
    · next hall => exact ⟨fun heq => absurd heq hsta, fun h => absurd h hall⟩
  · intro d
    rw [face_answered, mail_answered]
    by_cases hd : d = ch
    · subst hd
      refine ⟨fun _ => ⟨hnone, hrest⟩, fun hwait => ?_, hpause⟩
      rw [wait_answered, if_pos rfl] at hwait
      cases hwait
    · have hlane := hothers d hd
      refine ⟨fun hwait => hlane.quiet ?_, fun hwait => ?_, hlane.pause⟩
      · rwa [wait_answered, if_neg hd] at hwait
      · have hwaits : s.ctl.waitReturn d = true := by
          rwa [wait_answered, if_neg hd] at hwait
        obtain ⟨k, tok, i, hat, hfits, haccepts⟩ := hlane.under hwaits
        have hnot : ¬∀ e, (answered s ch).ctl.waitReturn e = false := by
          intro hall
          rw [hall d] at hwait
          cases hwait
        refine ⟨k, tok, i, hat, hfits, ?_⟩
        rw [sta_answered, if_neg hnot]
        exact haccepts

theorem takes_player {m : PlayerMsg} {queue : List (Ch × PlayerMsg)}
    (h : s.playerQ = (ch, m) :: queue) :
    Takes (mail s) (mail { s with playerQ := queue }) .player (some (ch, m.tok)) := by
  refine ⟨by simp [mail, h], fun j hj => ?_⟩
  cases j with
  | player => exact absurd rfl hj
  | stream c => rfl
  | worker v c => rfl
  | display => rfl

/-- A channel is asked, and waited for from then on. -/
theorem inv_ask {t : System} (bits : Face) (tok : Tok)
    (hothers : ∀ d, d ≠ ch → LaneInv d (face s d) (mail s)) (hnone : NoToken (mail s) ch)
    (hsta : ∀ d, d ≠ ch → (face s d).wait = true → (face s d).sta = T) (hT : T ≠ .idle)
    (hsend : Sends (mail s) (mail t) (single (.stream ch) (some (ch, tok))))
    (hface : ∀ d, d ≠ ch → face t d = { face s d with sta := T })
    (hself : face t ch = { bits with sta := T, wait := true })
    (hfits : Fits ch { bits with sta := T, wait := true } (.stream ch) tok) (haccepts : Accepts T tok)
    (hpause : bits.pause = true → bits.record = true ∧ bits.standby = false) : Inv t := by
  have htsta : t.ctl.playerThrSta = T := congrArg Face.sta hself
  have htwait : t.ctl.waitReturn ch = true := congrArg Face.wait hself
  constructor
  · rw [htsta]
    refine ⟨fun heq => absurd heq hT, fun hall => ?_⟩
    rw [hall ch] at htwait
    cases htwait
  · intro d
    by_cases hd : d = ch
    · subst hd
      rw [hself]
      refine ⟨fun hquiet => absurd hquiet (by simp), fun _ => ?_, hpause⟩
      exact ⟨_, tok, _, hnone.sends_token hsend, hfits, haccepts⟩
    · rw [hface d hd]
      have hlane := (hothers d hd).calm (Keeps.sends_other hsend hd) (Calm.refl _)
      refine ⟨hlane.quiet, fun hwait => ?_, hlane.pause⟩
      obtain ⟨k, tok, i, hat, hfits, haccepts⟩ := hlane.under hwait
      exact ⟨k, tok, i, hat, hfits, hsta d hd hwait ▸ haccepts⟩

/-- The channel is at rest: what its threads are in is what the player takes them to be in. -/
theorem inv_playerProStopAlreadyCmd (hsta : s.ctl.playerThrSta ≠ .idle)
    (hothers : ∀ d, d ≠ ch → LaneInv d (face s d) (mail s)) (hnone : NoToken (mail s) ch)
    (hstop : Stopping (face s ch)) (hall : AllStandby (face s ch)) :
    Inv (playerProStopAlreadyCmd s ch) := by
  have hself : face { s with ctl := { s.ctl with
      strStandbyAlready := Function.update s.ctl.strStandbyAlready ch true } } ch =
      { face s ch with standby := true } := by
    simp [face]
  refine inv_answered hsta (fun d hd => ?_) (mail_ctl s _ ▸ hnone) ?_ ?_
  · have hface : face { s with ctl := { s.ctl with
        strStandbyAlready := Function.update s.ctl.strStandbyAlready ch true } } d = face s d := by
      simp [face, hd]
    rw [hface, mail_ctl]
    exact hothers d hd
  · rw [hself]
    exact ⟨fun _ => hall, fun hstd => by simp at hstd⟩
  · rw [hself]
    intro hpause
    rw [hstop.2] at hpause
    cases hpause

theorem inv_playerProExitAlreadyCmd (h : Inv s) : Inv (playerProExitAlreadyCmd s) := by
  unfold playerProExitAlreadyCmd
  split
  · exact h.congr (fun _ => rfl) (mail_ctl s _)
  · exact h

/-- The play time of `ch` is noted. -/
def noteQueryNum (s : System) (ch : Ch) (queryNum : UInt8) : System :=
  { s with ctl := { s.ctl with
    state := Function.update s.ctl.state ch
      { s.ctl.state ch with queryNum := queryNum, replayEnd := queryNum == queryBufNum } } }

theorem playerProGetStaAlreadyCmd_last (queryNum : UInt8)
    (hall : ∀ d, (setWait s ch false).ctl.waitReturn d = false) :
    playerProGetStaAlreadyCmd s ch queryNum =
      playerSetSta (playerSendMsgToUi (setWait (noteQueryNum s ch queryNum) ch false)
        (.retStatus (noteQueryNum s ch queryNum).ctl.state)) .idle :=
  if_pos hall

theorem playerProGetStaAlreadyCmd_more (queryNum : UInt8)
    (hall : ¬∀ d, (setWait s ch false).ctl.waitReturn d = false) :
    playerProGetStaAlreadyCmd s ch queryNum = setWait (noteQueryNum s ch queryNum) ch false :=
  if_neg hall

theorem inv_playerProGetStaAlreadyCmd (queryNum : UInt8) (hsta : s.ctl.playerThrSta ≠ .idle)
    (hothers : ∀ d, d ≠ ch → LaneInv d (face s d) (mail s)) (hnone : NoToken (mail s) ch)
    (hrest : Rest (face s ch))
    (hpause : (face s ch).pause = true → (face s ch).record = true ∧ (face s ch).standby = false) :
    Inv (playerProGetStaAlreadyCmd s ch queryNum) := by
  have h := inv_answered hsta hothers hnone hrest hpause
  have hfields : (∀ d, face (playerProGetStaAlreadyCmd s ch queryNum) d = face (answered s ch) d) ∧
      mail (playerProGetStaAlreadyCmd s ch queryNum) = mail (answered s ch) := by
    by_cases hall : ∀ d, (setWait s ch false).ctl.waitReturn d = false
    · have heq : answered s ch = playerSetSta (setWait s ch false) .idle := if_pos hall
      have hget := playerProGetStaAlreadyCmd_last queryNum hall
      rw [heq, hget]
      exact ⟨fun _ => rfl, by funext k; cases k <;> rfl⟩
    · have heq : answered s ch = setWait s ch false := if_neg hall
      have hget := playerProGetStaAlreadyCmd_more queryNum hall
      rw [heq, hget]
      exact ⟨fun _ => rfl, by funext k; cases k <;> rfl⟩
  exact h.congr hfields.1 hfields.2

@[simp] theorem ctl_streamPutMsg (s : System) (ch : Ch) (m : StreamMsg) :
    (streamPutMsg s ch m).ctl = s.ctl := rfl

/-- A file has been chosen for a channel at rest or pausing, and the channel is started. -/
theorem inv_chooseFileAlready (hsta : s.ctl.playerThrSta = .chooseFile)
    (hothers : ∀ d, d ≠ ch → LaneInv d (face s d) (mail s))
    (hstas : ∀ d, d ≠ ch → (face s d).wait = true → (face s d).sta = .chooseFile)
    (hwait : (face s ch).wait = true) (hnone : NoToken (mail s) ch) (hrest : Rest (face s ch))
    (hpause : (face s ch).pause = true → (face s ch).record = true ∧ (face s ch).standby = false) :
    Inv (playerProChooseFileAlreadyCmd s ch .chooseFileAlready) := by
  have hface : ∀ d, face s d = { face s d with sta := .chooseFile } := by
    intro d
    rw [← hsta]
    rfl
  simp only [playerProChooseFileAlreadyCmd]
  split
  · next hstd =>
      have hall := hrest.1 hstd
      have hnot : (face s ch).pause ≠ true := by
        intro hp
        have := (hpause hp).2
        rw [show (face s ch).standby = true from hstd] at this
        cases this
      rw [playerSetChPlay, if_pos hstd]
      refine inv_ask (T := .chooseFile) { face s ch with standby := false } .workOn hothers hnone
        hstas (by simp) ?_ (fun d hd => ?_) ?_ ⟨rfl, rfl, hall⟩ trivial ?_
      · exact sends_setStatus s _ ch .paly _
      · rw [face_streamPutMsg, face_setStatus, ← hface d]
        simp [face, hd]
      · rw [face_streamPutMsg, face_setStatus]
        have hw : s.ctl.waitReturn ch = true := hwait
        simp [face, hsta, hw]
      · exact fun hp => absurd hp hnot
  · next hstd =>
      split
      · next hp =>
          obtain ⟨hrec, hstd⟩ := hpause hp
          have hr : s.ctl.recordEn ch = true := hrec
          have hw : s.ctl.waitReturn ch = true := hwait
          rw [playerSetChPause_ends hr hp]
          refine inv_ask (T := .chooseFile) { face s ch with pause := false } (.request .pause)
            hothers hnone hstas (by simp) ?_ (fun d hd => ?_) ?_ ⟨rfl, hstd, hrest.2 hstd⟩ trivial ?_
          · exact sends_setStatus s _ ch .paly (.pause false)
          · rw [face_streamPutMsg, face_setStatus, ← hface d]
            simp [face, hd]
          · rw [face_streamPutMsg, face_setStatus]
            simp [face, hsta, hw]
          · intro hfalse
            simp at hfalse
      · have hnot : s.ctl.playerThrSta ≠ .idle := by simp [hsta]
        exact inv_answered hnot hothers hnone hrest hpause

theorem inv_playerAnswer {m : PlayerMsg} {queue : List (Ch × PlayerMsg)} (h : Inv s)
    (hsta : s.ctl.playerThrSta ≠ .idle) (hq : s.playerQ = (ch, m) :: queue) :
    Inv (playerAnswer { s with playerQ := queue } ch m) := by
  have htakes := takes_player hq
  obtain ⟨hwait, hfits, haccepts, hnone⟩ := h.taken htakes
  have hothers : ∀ d, d ≠ ch →
      LaneInv d (face { s with playerQ := queue } d) (mail { s with playerQ := queue }) :=
    fun d hd => (h.lane d).calm (Keeps.takes_other htakes hd) (Calm.refl _)
  have hpause := (h.lane ch).pause
  change Accepts s.ctl.playerThrSta m.tok at haccepts
  cases m with
  | standbyAlready =>
      have hstopped := inv_playerProStopAlreadyCmd (s := { s with playerQ := queue }) hsta hothers
        hnone hfits.1 hfits.2
      unfold playerAnswer
      cases hs : s.ctl.playerThrSta <;> simp only [hs] at haccepts <;> first
        | exact haccepts.elim
        | exact hstopped
        | exact inv_playerProExitAlreadyCmd hstopped
  | workAlready =>
      have hrest : Rest (face s ch) :=
        ⟨fun hstd => absurd (hfits.1.symm.trans hstd) (by simp), fun _ => hfits.2⟩
      have hanswered := inv_answered (s := { s with playerQ := queue }) hsta hothers hnone hrest hpause
      unfold playerAnswer
      cases hs : s.ctl.playerThrSta <;> simp only [hs] at haccepts <;> first
        | exact haccepts.elim
        | exact hanswered
  | pauseAlready =>
      have hrest : Rest (face s ch) :=
        ⟨fun hstd => absurd (hfits.1.symm.trans hstd) (by simp), fun _ => hfits.2⟩
      have hanswered := inv_answered (s := { s with playerQ := queue }) hsta hothers hnone hrest hpause
      unfold playerAnswer
      cases hs : s.ctl.playerThrSta <;> simp only [hs] at haccepts <;> first
        | exact haccepts.elim
        | exact hanswered
  | setRateAlready =>
      have hanswered := inv_answered (s := { s with playerQ := queue }) hsta hothers hnone hfits hpause
      unfold playerAnswer
      cases hs : s.ctl.playerThrSta <;> simp only [hs] at haccepts <;> first
        | exact haccepts.elim
        | exact hanswered
  | queryPlayTimeAlready queryNum =>
      have hanswered := inv_playerProGetStaAlreadyCmd (s := { s with playerQ := queue }) queryNum
        hsta hothers hnone hfits hpause
      unfold playerAnswer
      cases hs : s.ctl.playerThrSta <;> simp only [hs] at haccepts <;> first
        | exact haccepts.elim
        | exact hanswered
  | chooseFileAlready =>
      unfold playerAnswer
      cases hs : s.ctl.playerThrSta <;> simp only [hs] at haccepts <;> first
        | exact haccepts.elim
        | exact inv_chooseFileAlready (s := { s with playerQ := queue }) hs hothers
            (fun _ _ _ => hs) hwait hnone hfits hpause

/-! ## Commands -/

/-- In the middle of a command that leads to state `T`. -/
structure Asking (T : PlayerSta) (s : System) : Prop where
  inv : Inv s
  sta : s.ctl.playerThrSta = .idle ∨ s.ctl.playerThrSta = T

/-- Nothing has been asked of another channel than `ch`. -/
def Asks (T : PlayerSta) (ch : Ch) (s t : System) : Prop :=
  Asking T t ∧ ∀ d, d ≠ ch → t.ctl.waitReturn d = s.ctl.waitReturn d

/-- A channel that is not waited for is asked. -/
theorem Asking.ask {c : PlayerCtl} {m : StreamMsg} (h : Asking T s)
    (hquiet : s.ctl.waitReturn ch = false) (ht : t = streamPutMsg { s with ctl := c } ch m)
    (hm : m.tok = some tok) (hsta : c.playerThrSta = T)
    (hwait : c.waitReturn = Function.update s.ctl.waitReturn ch true)
    (hothers : ∀ d, d ≠ ch → c.strStandbyAlready d = s.ctl.strStandbyAlready d ∧
      c.strPauseAlready d = s.ctl.strPauseAlready d ∧ c.recordEn d = s.ctl.recordEn d)
    (hfits : Fits ch { face s ch with
      sta := T
      wait := true
      standby := c.strStandbyAlready ch
      pause := c.strPauseAlready ch
      record := c.recordEn ch } (.stream ch) tok)
    (haccepts : Accepts T tok)
    (hpause : c.strPauseAlready ch = true → c.recordEn ch = true ∧ c.strStandbyAlready ch = false) :
    Asks T ch s t := by
  have hT : T ≠ .idle := by
    rintro rfl
    cases tok <;> exact haccepts
  have hface : ∀ d, face t d = face { s with ctl := c } d := fun d => by
    rw [ht, face_streamPutMsg]
  have hothersface : ∀ d, d ≠ ch → face t d = { face s d with sta := T } := by
    intro d hd
    obtain ⟨hstd, hp, hrec⟩ := hothers d hd
    rw [hface]
    simp [face, hsta, hwait, hd, hstd, hp, hrec]
  have hstas : ∀ d, d ≠ ch → (face s d).wait = true → (face s d).sta = T := by
    intro d _ hd
    rcases h.sta with hidle | hT
    · have hfalse := h.inv.idle.1 hidle d
      rw [show s.ctl.waitReturn d = true from hd] at hfalse
      cases hfalse
    · exact hT
  have hsend := sends_streamPutMsg { s with ctl := c } ch m
  rw [mail_ctl, ← ht, hm] at hsend
  have hself : face t ch = { face s ch with
      sta := T
      wait := true
      standby := c.strStandbyAlready ch
      pause := c.strPauseAlready ch
      record := c.recordEn ch } := by
    rw [hface]
    simp [face, hsta, hwait]
  have hinv : Inv t := inv_ask
    { face s ch with
      standby := c.strStandbyAlready ch
      pause := c.strPauseAlready ch
      record := c.recordEn ch } tok
    (fun d _ => h.inv.lane d) ((h.inv.lane ch).quiet hquiet).1 hstas hT hsend hothersface hself hfits
    haccepts hpause
  refine ⟨⟨hinv, .inr (congrArg Face.sta hself)⟩, fun d hd => ?_⟩
  exact congrArg Face.wait (hothersface d hd)

theorem Asking.same (h : Asking T s) : Asks T ch s s := ⟨h, fun _ _ => rfl⟩

/-- What the invariant does not speak of has changed. -/
theorem Asking.keeps (h : Asking T s) (hface : ∀ d, face t d = face s d)
    (hkeeps : ∀ d, Keeps d (mail s) (mail t)) : Asks T ch s t := by
  refine ⟨⟨h.inv.keeps hface hkeeps, ?_⟩, fun d _ => congrArg Face.wait (hface d)⟩
  rw [show t.ctl.playerThrSta = s.ctl.playerThrSta from congrArg Face.sta (hface 0)]
  exact h.sta

/-- The loop over the channels asks each at most once. -/
theorem asking_eachChannel {f : System → Ch → System}
    (hf : ∀ s ch, Asking T s → s.ctl.waitReturn ch = false → Asks T ch s (f s ch)) (h : Inv s)
    (hidle : s.ctl.playerThrSta = .idle) (channel : Option Ch) :
    Asking T (eachChannel channel f s) := by
  have hall := h.idle.1 hidle
  have hloop : ∀ l : List Ch, l.Nodup → ∀ s, Asking T s → (∀ ch ∈ l, s.ctl.waitReturn ch = false) →
      Asking T (l.foldl f s) := by
    intro l
    induction l with
    | nil => exact fun _ s h _ => h
    | cons ch l ih =>
        intro hnodup s h hquiet
        obtain ⟨hch, hl⟩ := List.nodup_cons.1 hnodup
        obtain ⟨hnext, hsame⟩ := hf s ch h (hquiet ch List.mem_cons_self)
        refine ih hl _ hnext fun d hd => ?_
        have hne : d ≠ ch := fun heq => hch (heq ▸ hd)
        rw [hsame d hne]
        exact hquiet d (List.mem_cons_of_mem ch hd)
  refine hloop _ ?_ s ⟨h, .inl hidle⟩ fun ch _ => hall ch
  cases channel with
  | some ch => exact List.nodup_singleton ch
  | none => exact List.nodup_finRange _

theorem asks_play (h : Asking T s) (hquiet : s.ctl.waitReturn ch = false)
    (haccepts : Accepts T .workOn) : Asks T ch s (waitIfSent T ch (playerSetChPlay s ch)) := by
  obtain ⟨-, hrest⟩ := (h.inv.lane ch).quiet hquiet
  unfold playerSetChPlay
  split
  · next hstd =>
      rw [waitIfSent, if_pos rfl]
      refine h.ask hquiet rfl rfl rfl rfl ?_ ⟨rfl, ?_, hrest.1 hstd⟩ haccepts ?_
      · intro d hd
        simp [setStatus, setWait, hd]
      · simp [setStatus, setWait]
      · intro hp
        have hfalse := ((h.inv.lane ch).pause hp).2
        rw [show (face s ch).standby = true from hstd] at hfalse
        cases hfalse
  · exact h.same

/-- The mode of a channel is set first, or it is as it was. -/
theorem asks_stop (h : Asking T s) (hquiet : s.ctl.waitReturn ch = false)
    (haccepts : Accepts T .standby) (record black : Bool) :
    Asks T ch s (waitIfSent T ch (playerSetChStop (setRecordEn s ch record) ch black)) := by
  have hlane := h.inv.lane ch
  unfold playerSetChStop
  split
  · next hstd =>
      rw [waitIfSent, if_pos rfl]
      refine h.ask hquiet rfl rfl rfl rfl ?_ ⟨rfl, hstd, ?_⟩ haccepts ?_
      · intro d hd
        simp [setStatus, setWait, setRecordEn, hd]
      · simp [setStatus, setWait]
      · intro hp
        simp [setStatus, setWait] at hp
  · next hstd =>
      have hstd : s.ctl.strStandbyAlready ch = true := by simpa [setRecordEn] using hstd
      have hface : face (setRecordEn s ch record) ch = { face s ch with record := record } := by
        simp [face, setRecordEn]
      have hmail : mail (setRecordEn s ch record) = mail s := mail_ctl s _
      rw [waitIfSent, if_neg (by simp)]
      refine ⟨⟨⟨h.inv.idle, fun d => ?_⟩, h.sta⟩, fun _ _ => rfl⟩
      rw [hmail]
      by_cases hd : d = ch
      · subst hd
        rw [hface]
        refine ⟨hlane.quiet, fun hwait => ?_, fun hp => ?_⟩
        · rw [show s.ctl.waitReturn d = true from hwait] at hquiet
          cases hquiet
        · have hfalse := (hlane.pause hp).2
          rw [show (face s d).standby = true from hstd] at hfalse
          cases hfalse
      · have hsame : face (setRecordEn s ch record) d = face s d := by
          simp [face, setRecordEn, hd]
        rw [hsame]
        exact h.inv.lane d

theorem asks_pause (h : Asking .pause s) (hquiet : s.ctl.waitReturn ch = false) (on : Bool) :
    Asks .pause ch s (waitIfSent .pause ch (playerSetChPause s ch on)) := by
  have hlane := h.inv.lane ch
  obtain ⟨-, hrest⟩ := hlane.quiet hquiet
  unfold playerSetChPause
  split
  · next hrec =>
      split
      · next hon =>
          obtain ⟨rfl, -, hstd⟩ := hon
          rw [waitIfSent, if_pos rfl]
          refine h.ask hquiet rfl rfl rfl rfl ?_ ⟨rfl, hstd, hrest.2 hstd⟩ trivial
            fun _ => ⟨hrec, hstd⟩
          intro d hd
          simp [setStatus, setWait, hd]
      · split
        · next hoff =>
            obtain ⟨rfl, hp⟩ := hoff
            have hstd := (hlane.pause hp).2
            rw [waitIfSent, if_pos rfl]
            refine h.ask hquiet rfl rfl rfl rfl ?_ ⟨rfl, hstd, hrest.2 hstd⟩ trivial fun hp => ?_
            · intro d hd
              simp [setStatus, setWait, hd]
            · simp [setStatus, setWait] at hp
        · exact h.same
  · exact h.same

/-- A request leaves the player's view of the channel as it is. -/
theorem asks_request {m : StreamMsg} {r : Req} (h : Asking T s)
    (hquiet : s.ctl.waitReturn ch = false) (hm : m.tok = some (.request r)) (hr : r ≠ .pause)
    (haccepts : Accepts T (.request r)) :
    Asks T ch s (streamPutMsg (playerSetSta (setWait s ch true) T) ch m) := by
  obtain ⟨-, hrest⟩ := (h.inv.lane ch).quiet hquiet
  refine h.ask hquiet rfl hm rfl rfl (fun d _ => ⟨rfl, rfl, rfl⟩) ?_ haccepts (h.inv.lane ch).pause
  cases r with
  | pause => exact absurd rfl hr
  | setRate | chooseFile | queryPlayTime => exact ⟨rfl, hrest⟩

/-- The mode of the channel is left as it is. -/
theorem asks_stop_same (h : Asking T s) (hquiet : s.ctl.waitReturn ch = false)
    (haccepts : Accepts T .standby) (black : Bool) :
    Asks T ch s (waitIfSent T ch (playerSetChStop s ch black)) := by
  have hasks := asks_stop h hquiet haccepts (s.ctl.recordEn ch) black
  rwa [show setRecordEn s ch (s.ctl.recordEn ch) = s by
    rw [setRecordEn, Function.update_eq_self]] at hasks

theorem inv_playerProGetStaCmd (h : Inv s) (hidle : s.ctl.playerThrSta = .idle)
    (channel : Option Ch) (runStatus : Ch → PlayerStatus) :
    Inv (playerProGetStaCmd s channel runStatus) := by
  have hloop : Asking .getPlayerStatus (eachChannel channel (fun s ch =>
      if s.ctl.recordEn ch = true then
        streamPutMsg (playerSetSta (setWait s ch true) .getPlayerStatus) ch .queryPlayTime
      else noReplay s ch) s) := by
    refine asking_eachChannel (fun s ch h hquiet => ?_) h hidle channel
    split
    · exact asks_request h hquiet rfl (by simp) trivial
    · exact h.keeps (fun _ => rfl) fun _ => Keeps.of_eq (mail_ctl s _)
  unfold playerProGetStaCmd
  simp only
  split
  · exact hloop.inv.congr (fun _ => rfl) (by funext k; cases k <;> rfl)
  · exact hloop.inv

theorem inv_playerProDisModCmd (h : Inv s) (channel : Ch) (singleEn : Bool) (preview : Ch → Bool) :
    Inv (playerProDisModCmd s channel singleEn preview) := by
  have hdis : ∀ {s : System} {m : DisMsg}, Inv s → m.mail = none → Inv (disPutMsg s m) :=
    fun h hm => h.keeps (fun _ => rfl) fun _ => keeps_disPutMsg (by simp [hm]) _
  have hctl : Inv { s with ctl := { s.ctl with singleEn := singleEn } } :=
    h.congr (fun _ => rfl) (mail_ctl s _)
  have hsent := hdis (m := if singleEn then .tempFullscreen channel else .tempSlipscreen) hctl
    (by cases singleEn <;> rfl)
  refine iteInduction (motive := Inv) (fun _ => ?_) fun _ => hsent
  exact hsent.keeps (fun d => face_workerPutMsg _ _ _ d _) fun d =>
    keeps_workerPutMsg (tok_none rfl) _ .decode

theorem inv_playerProSingleFramePlay (h : Inv s) (hidle : s.ctl.playerThrSta = .idle)
    (channel : Option Ch) (down : Bool) : Inv (playerProSingleFramePlay s channel down) := by
  refine (asking_eachChannel (T := .idle) (fun s ch h _ => ?_) h hidle channel).inv
  split
  · exact h.keeps (fun d => face_streamPutMsg s ch d _) fun d => keeps_streamPutMsg (tok_none rfl) s
  · exact h.same

/-- Every command keeps the invariant. -/
theorem inv_playerCommand (h : Inv s) (hidle : s.ctl.playerThrSta = .idle) (preview : Ch → Bool)
    (cmd : ProCmd) : Inv (playerCommand s preview cmd) := by
  have hui : ∀ m, Inv (playerSendMsgToUi s m) :=
    fun m => h.congr (fun _ => rfl) (by funext k; cases k <;> rfl)
  cases cmd with
  | getPlayerStatus channel runStatus => exact inv_playerProGetStaCmd h hidle channel runStatus
  | play channel =>
      exact (asking_eachChannel (T := .play) (fun s ch h hquiet => asks_play h hquiet trivial) h hidle
        channel).inv
  | stop channel =>
      exact (asking_eachChannel (T := .stop)
        (fun s ch h hquiet => asks_stop_same h hquiet trivial true) h hidle channel).inv
  | singalDisplay channel singleEn => exact inv_playerProDisModCmd h channel singleEn preview
  | allExit =>
      simp only [playerCommand, playerProExitCmd]
      split
      · exact h.congr (fun _ => rfl) (mail_ctl s _)
      · exact (asking_eachChannel (T := .exit)
          (fun s ch h hquiet => asks_stop_same h hquiet trivial false) h hidle none).inv
  | setRate channel rate =>
      refine (asking_eachChannel (T := .setRate) (fun s ch h hquiet => ?_) h hidle channel).inv
      split
      · exact asks_request h hquiet rfl (by simp) trivial
      · exact h.same
  | realPlay channel =>
      exact (asking_eachChannel (T := .recordPlaye)
        (fun s ch h hquiet => asks_stop h hquiet trivial false true) h hidle channel).inv
  | recordPlay channel =>
      exact (asking_eachChannel (T := .recordPlaye)
        (fun s ch h hquiet => asks_stop h hquiet trivial true true) h hidle channel).inv
  | chooseFile channel replayInfor updateNow =>
      refine (asking_eachChannel (T := .chooseFile) (fun s ch h hquiet => ?_) h hidle channel).inv
      split
      · split
        · exact asks_request h hquiet rfl (by simp) trivial
        · exact asks_stop_same h hquiet trivial true
      · exact h.same
  | upFrame channel => exact inv_playerProSingleFramePlay h hidle channel false
  | downFrame channel => exact inv_playerProSingleFramePlay h hidle channel true
  | pause channel on =>
      exact (asking_eachChannel (T := .pause) (fun s ch h hquiet => asks_pause h hquiet on) h hidle
        channel).inv
  | getDisplayMode => exact hui _
  | getPreviewStatus channel => exact hui _
  | setAudio channel on =>
      exact h.keeps (fun d => face_streamPutMsg s channel d _) fun d =>
        keeps_streamPutMsg (tok_none rfl) s

end

end Nvr.Player.Control
