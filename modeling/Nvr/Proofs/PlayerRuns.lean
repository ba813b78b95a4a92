import Mathlib.Data.Finset.Lattice.Fold
import Mathlib.Data.Fintype.Basic
import Mathlib.Logic.Relation
import Nvr.Lib.Fairness
import Nvr.Lib.Run
import Nvr.Proofs.PlayerControl

/-!
# Runs of the player and its threads

What holds of every run: the invariant of the channels, that no stream thread ends before it is told
to, and that the player is not told to end while it waits. Then what comes of a run in which every
thread gets its turn: the token of a channel is handed on until the player has it.
-/

namespace Nvr.Player.Control

open Fairness Mailbox Nvr.Storage Slot

section

variable {s t u : System} {ch d : Ch} {k : Thr} {tok : Tok} {op : Op}

/-! ## The invariant -/

/-- Whose step it is; a command is the user's. -/
def Op.thread : Op → Option Thr
  | .command _ _ => none
  | .answer => some .player
  | .stream ch _ => some (.stream ch)
  | .worker w ch _ => some (.worker w ch)
  | .display _ _ => some .display

theorem inv_init (stack : Ch → FileInfo × FileInfo × StorageReadCmd) : Inv (init stack) where
  idle := ⟨fun _ _ => rfl, fun _ => rfl⟩
  lane ch := by
    refine ⟨fun _ => ⟨fun k tok => ?_, ?_⟩, fun hwait => ?_, fun hp => ?_⟩
    · cases k <;> simp [mail, init]
    · exact ⟨fun _ => ⟨rfl, fun _ => rfl⟩, fun hstd => by simp [face, init] at hstd⟩
    · simp [face, init] at hwait
    · simp [face, init] at hp

/-- What the player has, and what it has told the user interface. -/
def SamePlayer (s t : System) : Prop := t.ctl = s.ctl ∧ t.ui = s.ui

theorem SamePlayer.trans (h : SamePlayer s t) (h' : SamePlayer t u) : SamePlayer s u :=
  ⟨h'.1.trans h.1, h'.2.trans h.2⟩

theorem samePlayer_putData (s : System) (ch : Ch) (data : List StreamData) :
    SamePlayer s (putData s ch data) := by
  unfold putData
  induction data generalizing s with
  | nil => exact ⟨rfl, rfl⟩
  | cons x data ih => exact ih _

theorem samePlayer_putNext (s : System) (w : Worker) (ch : Ch) (m : WorkerMsg) :
    SamePlayer s (putNext s w ch m) := by
  unfold putNext
  split <;> exact ⟨rfl, rfl⟩

theorem samePlayer_putPrev (s : System) (w : Worker) (ch : Ch) (c : Ctl) :
    SamePlayer s (putPrev s w ch c) := by
  unfold putPrev
  split <;> exact ⟨rfl, rfl⟩

theorem samePlayer_streamAnswer (s : System) (ch : Ch) (sta : StreamSta) (m : StreamMsg) :
    SamePlayer s (streamAnswer s ch sta m) := by
  unfold streamAnswer
  split <;> (try split) <;> exact ⟨rfl, rfl⟩

theorem samePlayer_streamTurn {io : StreamIo} (hturn : streamTurn s ch io = some t) :
    SamePlayer s t := by
  unfold streamTurn at hturn
  simp only at hturn
  split at hturn
  · obtain ⟨-, hturn⟩ := Option.ite_none_right_eq_some.1 hturn
    obtain ⟨str, -, rfl⟩ := Option.map_eq_some_iff.1 hturn
    exact (samePlayer_putData (setLane s ch _) ch io.data).trans (samePlayer_streamAnswer _ ch _ _)
  · obtain ⟨-, hturn⟩ := Option.ite_none_right_eq_some.1 hturn
    obtain ⟨str, -, rfl⟩ := Option.map_eq_some_iff.1 hturn
    exact samePlayer_putData (setLane s ch _) ch io.data

theorem samePlayer_workerTurn {w : Worker} {io : WorkerIo} (hturn : workerTurn s w ch io = some t) :
    SamePlayer s t := by
  have hfold : ∀ (out : List WorkerMsg) (u : System),
      SamePlayer u (out.foldl (fun s m => putNext s w ch m) u) := by
    intro out
    induction out with
    | nil => exact fun _ => ⟨rfl, rfl⟩
    | cons x out ih => exact fun u => (samePlayer_putNext u w ch x).trans (ih _)
  unfold workerTurn at hturn
  simp only at hturn
  split at hturn
  · cases hturn
  · split at hturn <;> obtain rfl := Option.some.inj hturn
    · exact samePlayer_putNext _ w ch _
    · exact samePlayer_putPrev _ w ch _
    · exact ⟨rfl, rfl⟩
  · obtain rfl := Option.some.inj hturn
    exact hfold _ _

theorem samePlayer_displayTurn {fails publishes : Bool}
    (hturn : displayTurn s fails publishes = some t) : SamePlayer s t := by
  unfold displayTurn at hturn
  split at hturn
  · cases hturn
  all_goals
    simp only [Option.some.injEq] at hturn
    subst hturn
  · cases fails <;> cases publishes <;> split <;> exact ⟨rfl, rfl⟩
  · exact ⟨rfl, rfl⟩
  · exact ⟨rfl, rfl⟩
  · exact ⟨rfl, rfl⟩
  · split <;> exact ⟨rfl, rfl⟩

/-- The steps of the player, and the turns of the others. -/
theorem step_cases (h : Inv s) (hstep : step s op = some t) :
    (∃ cmd preview, s.ctl.playerThrSta = .idle ∧ s.ctl.exit = false ∧ op.thread = none ∧
      t = playerCommand s preview cmd) ∨
    (∃ ch m queue, s.ctl.playerThrSta ≠ .idle ∧ s.ctl.exit = false ∧ op.thread = some .player ∧
      s.playerQ = (ch, m) :: queue ∧ t = playerAnswer { s with playerQ := queue } ch m) ∨
    ∃ k ch, op.thread = some k ∧ Turn s t k ch ∧ SamePlayer s t := by
  cases op with
  | command cmd preview =>
      simp only [step] at hstep
      obtain ⟨⟨hidle, hexit⟩, ht⟩ := Option.ite_none_right_eq_some.1 hstep
      exact .inl ⟨cmd, preview, hidle, hexit, rfl, (Option.some.inj ht).symm⟩
  | answer =>
      simp only [step] at hstep
      obtain ⟨⟨hsta, hexit⟩, ht⟩ := Option.ite_none_right_eq_some.1 hstep
      split at ht
      · next ch m queue hq =>
          exact .inr (.inl ⟨ch, m, queue, hsta, hexit, rfl, hq, (Option.some.inj ht).symm⟩)
      · cases ht
  | stream ch io => exact .inr (.inr ⟨_, ch, rfl, turn_stream h hstep, samePlayer_streamTurn hstep⟩)
  | worker w ch io =>
      exact .inr (.inr ⟨_, ch, rfl, turn_workerTurn h hstep, samePlayer_workerTurn hstep⟩)
  | display fails publishes =>
      obtain ⟨ch, hturn⟩ := turn_display h hstep
      exact .inr (.inr ⟨_, ch, rfl, hturn, samePlayer_displayTurn hstep⟩)

theorem Inv.step (h : Inv s) (hstep : step s op = some t) : Inv t := by
  rcases step_cases h hstep with ⟨cmd, preview, hidle, -, -, rfl⟩ |
    ⟨ch, m, queue, hsta, -, -, hq, rfl⟩ | ⟨k, ch, -, hturn, -⟩
  · exact inv_playerCommand h hidle preview cmd
  · exact inv_playerAnswer h hsta hq
  · exact h.turn hturn

/-! ## What commands and answers are made of -/

/-- What the player does about one channel: its data change, and a message may go to a stream
thread. -/
inductive Part (T : PlayerSta) : System → System → Prop
  | none {s : System} : Part T s s
  | set {s : System} {c : PlayerCtl} (hexit : c.exit = s.ctl.exit)
      (hsta : c.playerThrSta = s.ctl.playerThrSta ∨ c.playerThrSta = T) : Part T s { s with ctl := c }
  | send {s : System} {c : PlayerCtl} {ch : Ch} {m : StreamMsg} (hexit : c.exit = s.ctl.exit)
      (hsta : c.playerThrSta = s.ctl.playerThrSta ∨ c.playerThrSta = T) :
      Part T s (streamPutMsg { s with ctl := c } ch m)

abbrev Parts (T : PlayerSta) : System → System → Prop := Relation.ReflTransGen (Part T)

theorem Parts.keeps {T : PlayerSta} {P : System → Prop} (hpart : ∀ {u v}, P u → Part T u v → P v)
    (h : Parts T s t) (hs : P s) : P t := by
  induction h with
  | refl => exact hs
  | tail _ hlast ih => exact hpart ih hlast

theorem parts_eachChannel {T : PlayerSta} {f : System → Ch → System} (hf : ∀ u ch, Part T u (f u ch))
    (s : System) (channel : Option Ch) : Parts T s (eachChannel channel f s) := by
  unfold eachChannel
  generalize channels channel = l
  induction l generalizing s with
  | nil => exact .refl
  | cons ch l ih => exact .head (hf s ch) (ih _)

theorem part_stop (T : PlayerSta) (s : System) (ch : Ch) (record black : Bool) :
    Part T s (waitIfSent T ch (playerSetChStop (setRecordEn s ch record) ch black)) := by
  unfold playerSetChStop
  split
  · exact .send rfl (.inr rfl)
  · exact .set rfl (.inl rfl)

theorem part_stop_same (T : PlayerSta) (s : System) (ch : Ch) (black : Bool) :
    Part T s (waitIfSent T ch (playerSetChStop s ch black)) := by
  unfold playerSetChStop
  split
  · exact .send rfl (.inr rfl)
  · exact .none

theorem part_play (T : PlayerSta) (s : System) (ch : Ch) :
    Part T s (waitIfSent T ch (playerSetChPlay s ch)) := by
  unfold playerSetChPlay
  split
  · exact .send rfl (.inr rfl)
  · exact .none

theorem part_pause (T : PlayerSta) (s : System) (ch : Ch) (on : Bool) :
    Part T s (waitIfSent T ch (playerSetChPause s ch on)) := by
  unfold playerSetChPause
  split
  · split
    · exact .send rfl (.inr rfl)
    · split
      · exact .send rfl (.inr rfl)
      · exact .none
  · exact .none

/-- The state that a command leads to which does nothing but go through the channels. -/
def ProCmd.leadsTo : ProCmd → Option PlayerSta
  | .play _ => some .play
  | .stop _ => some .stop
  | .setRate _ _ => some .setRate
  | .realPlay _ | .recordPlay _ => some .recordPlaye
  | .chooseFile _ _ _ => some .chooseFile
  | .pause _ _ => some .pause
  | .upFrame _ | .downFrame _ | .setAudio _ _ => some .idle
  | .getPlayerStatus _ _ | .singalDisplay _ _ | .allExit | .getDisplayMode | .getPreviewStatus _ =>
      none

theorem parts_playerCommand {T : PlayerSta} {cmd : ProCmd} (hT : cmd.leadsTo = some T)
    (s : System) (preview : Ch → Bool) : Parts T s (playerCommand s preview cmd) := by
  cases cmd with
  | play channel =>
      obtain rfl := Option.some.inj hT
      exact parts_eachChannel (part_play .play) s channel
  | stop channel =>
      obtain rfl := Option.some.inj hT
      exact parts_eachChannel (fun u ch => part_stop_same .stop u ch true) s channel
  | setRate channel rate =>
      obtain rfl := Option.some.inj hT
      refine parts_eachChannel (fun u ch => ?_) s channel
      split
      · exact .send rfl (.inr rfl)
      · exact .none
  | realPlay channel =>
      obtain rfl := Option.some.inj hT
      exact parts_eachChannel (fun u ch => part_stop .recordPlaye u ch false true) s channel
  | recordPlay channel =>
      obtain rfl := Option.some.inj hT
      exact parts_eachChannel (fun u ch => part_stop .recordPlaye u ch true true) s channel
  | chooseFile channel replayInfor updateNow =>
      obtain rfl := Option.some.inj hT
      refine parts_eachChannel (fun u ch => ?_) s channel
      split
      · split
        · exact .send rfl (.inr rfl)
        · exact part_stop_same .chooseFile u ch true
      · exact .none
  | pause channel on =>
      obtain rfl := Option.some.inj hT
      exact parts_eachChannel (fun u ch => part_pause .pause u ch on) s channel
  | upFrame channel | downFrame channel =>
      obtain rfl := Option.some.inj hT
      refine parts_eachChannel (fun u ch => ?_) s channel
      split
      · exact .send rfl (.inl rfl)
      · exact .none
  | setAudio channel on =>
      obtain rfl := Option.some.inj hT
      exact .single (.send rfl (.inl rfl))
  | getPlayerStatus | singalDisplay | allExit | getDisplayMode | getPreviewStatus => cases hT

/-- The channels that are asked for their play time. -/
theorem parts_queryPlayTime (s : System) (channel : Option Ch) :
    Parts .getPlayerStatus s (eachChannel channel (fun s ch =>
      if s.ctl.recordEn ch = true then
        streamPutMsg (playerSetSta (setWait s ch true) .getPlayerStatus) ch .queryPlayTime
      else noReplay s ch) s) := by
  refine parts_eachChannel (fun u ch => ?_) s channel
  split
  · exact .send rfl (.inr rfl)
  · exact .set rfl (.inl rfl)

theorem part_answered (s : System) (ch : Ch) : Part .idle s (answered s ch) := by
  unfold answered
  simp only
  split
  · exact .set rfl (.inr rfl)
  · exact .set rfl (.inl rfl)

theorem part_playerProStopAlreadyCmd (s : System) (ch : Ch) :
    Part .idle s (playerProStopAlreadyCmd s ch) := by
  unfold playerProStopAlreadyCmd answered
  simp only
  split
  · exact .set rfl (.inr rfl)
  · exact .set rfl (.inl rfl)

/-- The answers for the status and to the command to end do more than the others. -/
theorem playerAnswer_forms (s : System) (ch : Ch) (m : PlayerMsg) :
    (s.ctl.playerThrSta ≠ .getPlayerStatus ∧ Part .idle s (playerAnswer s ch m)) ∨
      (s.ctl.playerThrSta = .getPlayerStatus ∧ (playerAnswer s ch m = s ∨
        ∃ queryNum, playerAnswer s ch m = playerProGetStaAlreadyCmd s ch queryNum)) ∨
      (s.ctl.playerThrSta = .exit ∧
        playerAnswer s ch m = playerProExitAlreadyCmd (playerProStopAlreadyCmd s ch)) := by
  unfold playerAnswer
  split
  · next m _ _ hsta =>
      refine .inl ⟨by simp [hsta], ?_⟩
      cases m with
      | chooseFileAlready =>
          simp only [playerProChooseFileAlreadyCmd]
          split
          · next hstd =>
              rw [playerSetChPlay, if_pos hstd]
              exact .send rfl (.inl rfl)
          · split
            · unfold playerSetChPause
              split
              · split
                · exact .send rfl (.inl rfl)
                · split
                  · exact .send rfl (.inl rfl)
                  · exact .none
              · exact .none
            · exact part_answered s ch
      | workAlready | pauseAlready => exact part_answered s ch
      | standbyAlready => exact part_playerProStopAlreadyCmd s ch
      | setRateAlready | queryPlayTimeAlready => exact .none
  · next hsta => exact .inl ⟨by simp [hsta], part_answered s ch⟩
  · next hsta => exact .inl ⟨by simp [hsta], part_playerProStopAlreadyCmd s ch⟩
  · next hsta => exact .inl ⟨by simp [hsta], part_answered s ch⟩
  · next hsta => exact .inl ⟨by simp [hsta], part_answered s ch⟩
  · next queryNum hsta => exact .inr (.inl ⟨hsta, .inr ⟨queryNum, rfl⟩⟩)
  · next hsta => exact .inl ⟨by simp [hsta], part_playerProStopAlreadyCmd s ch⟩
  · next hsta => exact .inr (.inr ⟨hsta, rfl⟩)
  · by_cases hget : s.ctl.playerThrSta = .getPlayerStatus
    · exact .inr (.inl ⟨hget, .inl rfl⟩)
    · exact .inl ⟨hget, .none⟩

/-! ## No end before its time -/

/-- No stream thread has ended, and the player has not told them to. -/
def Goes (s : System) : Prop := Alive s ∧ s.ctl.exit = false

theorem Goes.parts {T : PlayerSta} (h : Goes s) (hparts : Parts T s t) : Goes t := by
  refine hparts.keeps (fun {u v} hu hpart => ?_) h
  cases hpart with
  | none => exact hu
  | set hexit _ => exact ⟨hu.1, hexit.trans hu.2⟩
  | send hexit _ => exact ⟨alive_streamPutMsg hu.1, hexit.trans hu.2⟩

/-- The player tells the threads to end after all channels have come to rest. -/
def Ends (s : System) : Prop :=
  s.ctl.exit = true → (∀ ch, s.ctl.strStandbyAlready ch = true) ∧
    (s.ctl.playerThrSta = .idle ∨ s.ctl.playerThrSta = .exit)

theorem Goes.ends (h : Goes s) : Alive s ∧ Ends s :=
  ⟨h.1, fun hexit => absurd (h.2.symm.trans hexit) (by simp)⟩

theorem ends_playerCommand (h : Goes s) (hidle : s.ctl.playerThrSta = .idle) (preview : Ch → Bool)
    (cmd : ProCmd) : Alive (playerCommand s preview cmd) ∧ Ends (playerCommand s preview cmd) := by
  cases hT : cmd.leadsTo with
  | some T => exact (h.parts (parts_playerCommand hT s preview)).ends
  | none =>
      cases cmd with
      | getPlayerStatus channel runStatus =>
          have hloop := h.parts (parts_queryPlayTime s channel)
          exact Goes.ends (iteInduction (motive := Goes) (fun _ => hloop) fun _ => hloop)
      | singalDisplay channel singleEn =>
          refine Goes.ends (iteInduction (motive := Goes) (fun _ => ?_) fun _ => h)
          exact ⟨alive_workerPutMsg h.1, h.2⟩
      | allExit =>
          simp only [playerCommand, playerProExitCmd]
          split
          · next hall => exact ⟨h.1, fun _ => ⟨hall, .inl hidle⟩⟩
          · have hparts := parts_eachChannel (fun u ch => part_stop_same .exit u ch false) s none
            exact (h.parts hparts).ends
      | getDisplayMode | getPreviewStatus => exact h.ends
      | play | stop | setRate | realPlay | recordPlay | chooseFile | pause | upFrame | downFrame
      | setAudio => cases hT

theorem ends_playerAnswer (ch : Ch) (m : PlayerMsg) (h : Goes s) :
    Alive (playerAnswer s ch m) ∧ Ends (playerAnswer s ch m) := by
  rcases playerAnswer_forms s ch m with ⟨-, hpart⟩ | ⟨-, heq | ⟨queryNum, heq⟩⟩ | ⟨hexit, heq⟩
  · exact (h.parts (.single hpart)).ends
  · exact heq.symm ▸ h.ends
  · rw [heq]
    exact Goes.ends (iteInduction (motive := Goes) (fun _ => h) fun _ => h)
  · have hstop := h.parts (.single (part_playerProStopAlreadyCmd s ch))
    have hsta : (playerProStopAlreadyCmd s ch).ctl.playerThrSta = .idle ∨
        (playerProStopAlreadyCmd s ch).ctl.playerThrSta = .exit := by
      rw [playerProStopAlreadyCmd, sta_answered]
      split
      · exact .inl rfl
      · exact .inr hexit
    rw [heq, playerProExitAlreadyCmd]
    split
    · next hall => exact ⟨hstop.1, fun _ => ⟨hall, hsta⟩⟩
    · exact hstop.ends

/-- All there is to know of a state that is reached. -/
structure Good (s : System) : Prop where
  inv : Inv s
  alive : Alive s
  ends : Ends s

theorem good_init (stack : Ch → FileInfo × FileInfo × StorageReadCmd) : Good (init stack) :=
  ⟨inv_init stack, fun _ => rfl, fun hexit => by simp [init] at hexit⟩

theorem Good.step (h : Good s) (hstep : step s op = some t) : Good t := by
  have hinv := h.inv.step hstep
  rcases step_cases h.inv hstep with ⟨cmd, preview, hidle, hexit, -, rfl⟩ |
    ⟨ch, m, queue, hsta, hexit, -, hq, rfl⟩ | ⟨k, ch, -, hturn, hctl, -⟩
  · obtain ⟨halive, hends⟩ := ends_playerCommand ⟨h.alive, hexit⟩ hidle preview cmd
    exact ⟨hinv, halive, hends⟩
  · obtain ⟨halive, hends⟩ := ends_playerAnswer (s := { s with playerQ := queue }) ch m
      ⟨h.alive, hexit⟩
    exact ⟨hinv, halive, hends⟩
  · refine ⟨hinv, hturn.alive h.alive, ?_⟩
    rw [Ends, hctl]
    exact h.ends

theorem good_run {stack : Ch → FileInfo × FileInfo × StorageReadCmd} {ops : List Op}
    (hrun : Run (fun s op t => Control.step s op = some t) (init stack) ops s) : Good s := by
  induction hrun with
  | nil => exact good_init stack
  | snoc _ hstep ih => exact ih.step hstep

/-- A channel that is told to stop has not come to rest. -/
theorem Fits.stopping {f : Face} (h : Fits ch f k tok)
    (htok : tok = .standby ∨ tok = .standbyAlready) : f.standby = false := by
  rcases htok with rfl | rfl <;> cases k <;> simp [Fits, Stopping] at h
  all_goals simp [h]

/-- The player still runs as long as it waits. -/
theorem Good.runs (h : Good s) (hwait : s.ctl.waitReturn ch = true) :
    s.ctl.playerThrSta ≠ .idle ∧ s.ctl.exit = false := by
  have hsta : s.ctl.playerThrSta ≠ .idle := by
    intro hidle
    rw [h.inv.idle.1 hidle ch] at hwait
    cases hwait
  refine ⟨hsta, Bool.eq_false_iff.2 fun hexit => ?_⟩
  obtain ⟨hall, hidle | hexit⟩ := h.ends hexit
  · exact hsta hidle
  · obtain ⟨k, tok, i, -, hfits, haccepts⟩ := (h.inv.lane ch).under hwait
    have hstd : (face s ch).standby = true := hall ch
    rw [show (face s ch).sta = .exit from hexit] at haccepts
    have hnot : (face s ch).standby = false := by
      cases tok with
      | standby | standbyAlready => exact hfits.stopping (by simp)
      | workOn | workOnAlready | request r | answer r => exact haccepts.elim
    rw [hstd] at hnot
    cases hnot

/-! ## A token moves -/

/-- The player waits for the channel, and this is how far its token is. -/
def Waits (ch : Ch) (s : System) (k : Thr) (r : ℕ × ℕ) : Prop :=
  s.ctl.waitReturn ch = true ∧ ∃ tok i, TokenAt (mail s) ch k tok i ∧ r = (stage k tok, i)

/-- Fewer threads to pass, or fewer messages in front. -/
abbrev Nearer : ℕ × ℕ → ℕ × ℕ → Prop := Prod.Lex (· < ·) (· < ·)

/-- What a step does for a channel that is waited for. -/
def Moves (ch : Ch) (t : System) (k : Thr) (r : ℕ × ℕ) (others : Prop) : Prop :=
  t.ctl.waitReturn ch = false ∨ (∃ k' r', Waits ch t k' r' ∧ Nearer r' r) ∨ (Waits ch t k r ∧ others)

/-- The token stays in its queue. -/
theorem moves_keeps {i : ℕ} {others : Prop} {m : Thr → List (Option (Ch × Tok))}
    (hwait : t.ctl.waitReturn ch = true) (hat : TokenAt m ch k tok i) (hkeeps : Keeps ch m (mail t))
    (hothers : others) : Moves ch t k (stage k tok, i) others := by
  obtain ⟨i', hle, hat'⟩ := hkeeps.2 k tok i hat
  rcases Nat.lt_or_ge i' i with hlt | hge
  · exact .inr (.inl ⟨k, _, ⟨hwait, tok, i', hat', rfl⟩, .right _ hlt⟩)
  · obtain rfl : i' = i := by omega
    exact .inr (.inr ⟨⟨hwait, tok, i', hat', rfl⟩, hothers⟩)

/-- Another message is taken, from the queue the token is in or from another. -/
theorem moves_takes {i : ℕ} {m : Thr → List (Option (Ch × Tok))} {x : Option (Ch × Tok)}
    {j : Thr} (hwait : t.ctl.waitReturn ch = true) (hat : TokenAt (mail s) ch k tok i)
    (htakes : Takes (mail s) m j x) (hx : ∀ tok, x ≠ some (ch, tok)) (hkeeps : Keeps ch m (mail t)) :
    Moves ch t k (stage k tok, i) (j ≠ k) := by
  by_cases hj : j = k
  · subst hj
    rcases hat.takes htakes with ⟨heq, -⟩ | ⟨-, i', hlt, hat'⟩
    · exact absurd heq (hx tok)
    · obtain ⟨i'', hle, hat''⟩ := hkeeps.2 j tok i' hat'
      exact .inr (.inl ⟨j, _, ⟨hwait, tok, i'', hat'', rfl⟩, .right _ (by omega)⟩)
  · exact moves_keeps hwait (hat.takes_other htakes hj) hkeeps hj

theorem tok_ne {c : Ch} {tok' : Tok} (hc : c ≠ ch) (tok : Tok) : some (c, tok') ≠ some (ch, tok) :=
  fun heq => hc (Prod.mk.inj (Option.some.inj heq)).1

/-- A turn does not change what the player waits for. -/
theorem Turn.wait {c : Ch} (h : Turn s t k c) (d : Ch) :
    t.ctl.waitReturn d = s.ctl.waitReturn d := by
  by_cases hd : d = c
  · subst hd
    rcases h.what with ⟨hcalm, -⟩ | ⟨_, _, _, _, -, -, -, -, -, -, -, hwait, -⟩
    · exact hcalm.wait
    · exact hwait
  · exact congrArg Face.wait (h.others d hd)

theorem turn_moves {i : ℕ} {j : Thr} {c : Ch} (hturn : Turn s t j c)
    (hwait : s.ctl.waitReturn ch = true) (hat : TokenAt (mail s) ch k tok i) :
    Moves ch t k (stage k tok, i) (j ≠ k) := by
  have hwait' : t.ctl.waitReturn ch = true := (hturn.wait ch).trans hwait
  rcases hturn.what with ⟨-, ⟨hempty, hkeeps⟩ | ⟨m, htakes, hkeeps⟩⟩ |
    ⟨m, tok₀, k', tok', htakes, hothers, hnext, -, hstage, -⟩
  · refine moves_keeps hwait' hat (hkeeps ch) ?_
    rintro rfl
    exact hat.nonempty hempty
  · exact moves_takes hwait' hat htakes (by simp) (hkeeps ch)
  · by_cases hc : c = ch
    · subst hc
      obtain rfl := hat.holder htakes rfl
      rcases hat.takes htakes with ⟨heq, hnone⟩ | ⟨hne, -⟩
      · obtain rfl : tok₀ = tok := (Prod.mk.inj (Option.some.inj heq)).2
        obtain ⟨i', hat'⟩ := hnext hnone
        exact .inr (.inl ⟨k', _, ⟨hwait', tok', i', hat', rfl⟩, .left _ _ hstage⟩)
      · exact absurd rfl (hne tok₀)
    · exact moves_takes hwait' hat htakes (tok_ne hc) (hothers ch (Ne.symm hc))

/-! ## The player's answers -/

/-- The channel has answered. -/
def Answered (s t : System) (c : Ch) : Prop :=
  mail t = mail s ∧ t.ctl.waitReturn = Function.update s.ctl.waitReturn c false

/-- It is asked for something else instead, in answer to the choice of a file. -/
def AsksOn (s t : System) (c : Ch) (m : PlayerMsg) : Prop :=
  m.tok = .answer .chooseFile ∧ t.ctl.waitReturn = s.ctl.waitReturn ∧
    ∃ tok, stage (.stream c) tok < stage .player m.tok ∧
      Sends (mail s) (mail t) (single (.stream c) (some (c, tok)))

theorem answered_answered (s : System) (c : Ch) : Answered s (answered s c) c := by
  refine ⟨mail_answered s c, funext fun d => ?_⟩
  rw [wait_answered, Function.update_apply]

theorem answered_playerProStopAlreadyCmd (s : System) (c : Ch) :
    Answered s (playerProStopAlreadyCmd s c) c := by
  obtain ⟨hmail, hwait⟩ := answered_answered { s with ctl := { s.ctl with
    strStandbyAlready := Function.update s.ctl.strStandbyAlready c true } } c
  exact ⟨hmail.trans (mail_ctl s _), hwait⟩

theorem answered_playerProGetStaAlreadyCmd (s : System) (c : Ch) (queryNum : UInt8) :
    Answered s (playerProGetStaAlreadyCmd s c queryNum) c := by
  unfold playerProGetStaAlreadyCmd
  simp only
  split
  · exact ⟨by funext k; cases k <;> rfl, rfl⟩
  · exact ⟨mail_ctl s _, rfl⟩

theorem asksOn_chooseFileAlready (hpause : s.ctl.strPauseAlready ch = true →
      s.ctl.recordEn ch = true) :
    Answered s (playerProChooseFileAlreadyCmd s ch .chooseFileAlready) ch ∨
      AsksOn s (playerProChooseFileAlreadyCmd s ch .chooseFileAlready) ch .chooseFileAlready := by
  simp only [playerProChooseFileAlreadyCmd]
  split
  · next hstd =>
      rw [playerSetChPlay, if_pos hstd]
      refine .inr ⟨rfl, rfl, .workOn, by show 12 < 13; decide, ?_⟩
      exact sends_setStatus s _ ch .paly _
  · split
    · next hp =>
        have hrec := hpause hp
        rw [playerSetChPause_ends hrec hp]
        refine .inr ⟨rfl, rfl, .request .pause, by show 4 < 13; decide, ?_⟩
        exact sends_setStatus s _ ch .paly (.pause false)
    · exact .inl (answered_answered s ch)

/-- What the player does with a message: what it does not ask for changes nothing. -/
theorem playerAnswer_cases (msg : PlayerMsg)
    (hpause : s.ctl.strPauseAlready ch = true → s.ctl.recordEn ch = true) :
    (¬Accepts s.ctl.playerThrSta msg.tok ∧ playerAnswer s ch msg = s) ∨
      Answered s (playerAnswer s ch msg) ch ∨ AsksOn s (playerAnswer s ch msg) ch msg := by
  unfold playerAnswer
  split
  · next m _ _ hsta =>
      rw [hsta]
      cases m with
      | chooseFileAlready => exact .inr (asksOn_chooseFileAlready hpause)
      | workAlready | pauseAlready => exact .inr (.inl (answered_answered s ch))
      | standbyAlready => exact .inr (.inl (answered_playerProStopAlreadyCmd s ch))
      | setRateAlready | queryPlayTimeAlready => exact .inl ⟨id, rfl⟩
  · exact .inr (.inl (answered_answered s ch))
  · exact .inr (.inl (answered_playerProStopAlreadyCmd s ch))
  · exact .inr (.inl (answered_answered s ch))
  · exact .inr (.inl (answered_answered s ch))
  · exact .inr (.inl (answered_playerProGetStaAlreadyCmd s ch _))
  · exact .inr (.inl (answered_playerProStopAlreadyCmd s ch))
  · obtain ⟨hmail, hwait⟩ := answered_playerProStopAlreadyCmd s ch
    refine .inr (.inl ?_)
    unfold playerProExitAlreadyCmd
    split
    · exact ⟨(mail_ctl _ _).trans hmail, hwait⟩
    · exact ⟨hmail, hwait⟩
  · next m _ _ _ _ _ _ _ _ _ _ =>
      refine .inl ⟨?_, rfl⟩
      cases hs : s.ctl.playerThrSta <;> cases m <;> simp_all [Accepts, PlayerMsg.tok]

theorem wait_playerAnswer {m : PlayerMsg}
    (hpause : s.ctl.strPauseAlready d = true → s.ctl.recordEn d = true) :
    (playerAnswer s d m).ctl.waitReturn = s.ctl.waitReturn ∨
      (playerAnswer s d m).ctl.waitReturn = Function.update s.ctl.waitReturn d false := by
  rcases playerAnswer_cases m hpause with ⟨-, heq⟩ | ⟨-, hwait⟩ | ⟨-, hwait, -⟩
  · exact .inl (by rw [heq])
  · exact .inr hwait
  · exact .inl hwait

theorem keeps_playerAnswer {m : PlayerMsg}
    (hpause : s.ctl.strPauseAlready d = true → s.ctl.recordEn d = true) (hd : ch ≠ d) :
    Keeps ch (mail s) (mail (playerAnswer s d m)) := by
  rcases playerAnswer_cases m hpause with ⟨-, heq⟩ | ⟨hmail, -⟩ | ⟨-, -, tok, -, hsend⟩
  · exact Keeps.of_eq (by rw [heq])
  · exact Keeps.of_eq hmail
  · exact Keeps.sends_other hsend hd

theorem answer_moves {i : ℕ} {m : PlayerMsg} {queue : List (Ch × PlayerMsg)} (h : Inv s)
    (hq : s.playerQ = (d, m) :: queue) (hwait : s.ctl.waitReturn ch = true)
    (hat : TokenAt (mail s) ch k tok i) :
    Moves ch (playerAnswer { s with playerQ := queue } d m) k (stage k tok, i) (.player ≠ k) := by
  have htakes := takes_player hq
  have hpause : s.ctl.strPauseAlready d = true → s.ctl.recordEn d = true :=
    fun hp => ((h.lane d).pause hp).1
  by_cases hd : d = ch
  · subst hd
    obtain ⟨-, -, haccepts, -⟩ := h.taken htakes
    obtain rfl := hat.holder htakes rfl
    rcases hat.takes htakes with ⟨heq, hnone⟩ | ⟨hne, -⟩
    · obtain rfl := (Prod.mk.inj (Option.some.inj heq)).2
      rcases playerAnswer_cases (s := { s with playerQ := queue }) m hpause with
        ⟨hnot, -⟩ | ⟨-, hw⟩ | ⟨-, hw, tok', hstage, hsend⟩
      · exact absurd haccepts hnot
      · refine .inl ?_
        rw [hw, Function.update_self]
      · refine .inr (.inl ⟨_, _, ⟨?_, tok', _, hnone.sends_token hsend, rfl⟩, .left _ _ hstage⟩)
        rw [hw]
        exact hwait
    · exact absurd rfl (hne _)
  · refine moves_takes ?_ hat htakes (tok_ne hd) (keeps_playerAnswer hpause (Ne.symm hd))
    rcases wait_playerAnswer (s := { s with playerQ := queue }) (m := m) hpause with hw | hw
    · rw [hw]
      exact hwait
    · rw [hw, Function.update_of_ne (Ne.symm hd)]
      exact hwait

theorem step_moves {i : ℕ} (h : Inv s) (hstep : step s op = some t)
    (hwait : s.ctl.waitReturn ch = true) (hat : TokenAt (mail s) ch k tok i) :
    Moves ch t k (stage k tok, i) (op.thread ≠ some k) := by
  rcases step_cases h hstep with ⟨cmd, preview, hidle, -, -, -⟩ | ⟨c, m, queue, -, -, hop, hq, rfl⟩ |
    ⟨j, c, hop, hturn, -⟩
  · rw [h.idle.1 hidle ch] at hwait
    cases hwait
  · rw [hop, ne_eq, Option.some.injEq]
    exact answer_moves h hq hwait hat
  · rw [hop, ne_eq, Option.some.injEq]
    exact turn_moves hturn hwait hat

/-- While the player is not idle it does not begin to wait for anything. -/
theorem wait_step (h : Inv s) (hstep : step s op = some t) (hsta : s.ctl.playerThrSta ≠ .idle)
    (hwait : s.ctl.waitReturn ch = false) : t.ctl.waitReturn ch = false := by
  rcases step_cases h hstep with ⟨cmd, preview, hidle, -, -, -⟩ | ⟨c, m, queue, -, -, -, -, rfl⟩ |
    ⟨j, c, -, hturn, -⟩
  · exact absurd hidle hsta
  · have hpause : s.ctl.strPauseAlready c = true → s.ctl.recordEn c = true :=
      fun hp => ((h.lane c).pause hp).1
    rcases wait_playerAnswer (s := { s with playerQ := queue }) (m := m) hpause with hw | hw
    · rw [hw]
      exact hwait
    · rw [hw, Function.update_apply]
      split
      · rfl
      · exact hwait
  · rw [hturn.wait]
    exact hwait

/-! ## No command is lost -/

/-- The state in which a stream thread does not drop the command. -/
def StreamMsg.Heeded (sta : StreamSta) : StreamMsg → Prop
  | .connect _ | .workOnAlready _ | .standbyAlready => sta = .standby
  | .pause _ => sta ≠ .standby
  | _ => True

theorem heeded_of_taken {m : StreamMsg} {queue : List StreamMsg} (h : Inv s)
    (hq : (s.lanes ch).streamQ = m :: queue) : m.Heeded (s.lanes ch).str.strThrSta := by
  have htakes := takes_stream (s.lanes ch).str hq
  cases m with
  | connect record => exact (h.taken htakes).2.1.2.2.1
  | workOnAlready record => exact (h.taken htakes).2.1.2.2
  | standbyAlready => exact (h.taken htakes).2.1.2.2.1
  | pause on => exact (h.taken htakes).2.1.2.2
  | standby | queryPlayTime | setRate | chooseFile | singleFrame | setAudio => trivial

theorem heeded_of_workerTaken {w : Worker} {c : Ctl} {queue : List WorkerMsg} (h : Inv s)
    (hq : (s.lanes ch).workerQ w = .ctl c :: queue) :
    (workerCtl ((s.lanes ch).thrSta w) c).2 ≠ none := by
  have htakes := takes_worker ((s.lanes ch).thrSta w) hq
  cases c with
  | standby => simp [workerCtl]
  | workOn record =>
      have hstd : (s.lanes ch).thrSta w = .standby := (h.taken htakes).2.1.2.2.2 w
      simp [workerCtl, hstd]
  | workOnAlready record =>
      have hstd : (s.lanes ch).thrSta w = .standby := (h.taken htakes).2.1.2.2.2 w (Nat.le_refl _)
      simp [workerCtl, hstd]
  | standbyAlready =>
      have hstd : (s.lanes ch).thrSta w = .standby := (h.taken htakes).2.1.2.2.2 w
      simp [workerCtl, hstd]

/-- The player waits unless it is idle, and for each channel it waits for exactly one message is under
way, for the others none. No thread that gets one is in a state in which it drops it. -/
theorem one_command_under_way {stack : Ch → FileInfo × FileInfo × StorageReadCmd} {ops : List Op}
    (hrun : Run (fun s op t => step s op = some t) (init stack) ops s) :
    (s.ctl.playerThrSta = .idle ↔ ∀ ch, s.ctl.waitReturn ch = false) ∧
    (∀ ch, s.ctl.waitReturn ch = false → NoToken (mail s) ch) ∧
    (∀ ch, s.ctl.waitReturn ch = true → ∃ k tok i, TokenAt (mail s) ch k tok i) ∧
    (∀ ch m queue, s.playerQ = (ch, m) :: queue → s.ctl.waitReturn ch = true ∧
      (Answered { s with playerQ := queue } (playerAnswer { s with playerQ := queue } ch m) ch ∨
        AsksOn { s with playerQ := queue } (playerAnswer { s with playerQ := queue } ch m) ch m)) ∧
    (∀ ch m queue, (s.lanes ch).streamQ = m :: queue → m.Heeded (s.lanes ch).str.strThrSta) ∧
    (∀ w ch c queue, (s.lanes ch).workerQ w = .ctl c :: queue →
      (workerCtl ((s.lanes ch).thrSta w) c).2 ≠ none) := by
  have h := (good_run hrun).inv
  refine ⟨h.idle, fun ch hwait => ((h.lane ch).quiet hwait).1, fun ch hwait => ?_,
    fun ch m queue hq => ?_, fun _ _ _ => heeded_of_taken h, fun _ _ _ _ => heeded_of_workerTaken h⟩
  · obtain ⟨k, tok, i, hat, -⟩ := (h.lane ch).under hwait
    exact ⟨k, tok, i, hat⟩
  · obtain ⟨hwait, -, haccepts, -⟩ := h.taken (takes_player hq)
    refine ⟨hwait, ?_⟩
    rcases playerAnswer_cases (s := { s with playerQ := queue }) m
      (fun hp => ((h.lane ch).pause hp).1) with ⟨hnot, -⟩ | hdone
    · exact absurd haccepts hnot
    · exact hdone

def cleanStack (_ : Ch) : FileInfo × FileInfo × StorageReadCmd := (default, default, .normal)

/-- Channel 0 is put to work, and its command has come as far as the copy thread. -/
def playToCopy : List Op :=
  [.command (.play (some 0)) fun _ => false,
    .stream 0 ⟨⟨.ok, true⟩, .noBuffer, .done, false, []⟩,
    .worker .decode 0 ⟨false, false, false, false⟩,
    .worker .fluency 0 ⟨false, false, false, false⟩]

theorem playToCopy_runs : (playToCopy.foldlM step (init cleanStack)).isSome := by decide

theorem one_command_under_way_playToCopy : ∃ s, playToCopy.foldlM step (init cleanStack) = some s ∧
    s.ctl.playerThrSta = .play ∧ ∃ k tok i, TokenAt (mail s) 0 k tok i := by
  have hrun := Run.of_foldlM (fun h => h) (Option.some_get playToCopy_runs).symm
  exact ⟨_, (Option.some_get playToCopy_runs).symm, by decide,
    (one_command_under_way hrun).2.2.1 0 (by decide)⟩

/-! ## The holder of a token can take a turn -/

theorem enabled_stream (h : Alive s) (hq : (s.lanes ch).streamQ ≠ []) :
    Enabled step Op.thread (.stream ch) s := by
  obtain ⟨m, queue, hq⟩ := List.exists_cons_of_ne_nil hq
  -- no data go along, and no buffer is empty
  let io : StreamIo := ⟨⟨.ok, true⟩, .noBuffer, .done, true, []⟩
  have hstep : ∃ str, (s.lanes ch).str.step (m.cmd io) = some str := by
    have hexit := h ch
    cases m with
    | singleFrame down =>
        simp only [StreamMsg.cmd, StreamCtl.step, hexit, Bool.false_eq_true, if_false,
          StreamCtl.singleFrame]
        split
        · exact ⟨_, rfl⟩
        · split
          · exact ⟨_, rfl⟩
          · exact ⟨_, rfl⟩
    | standby | connect | pause | queryPlayTime | setRate | chooseFile | setAudio | workOnAlready
    | standbyAlready =>
        simp only [StreamMsg.cmd, StreamCtl.step, hexit, Bool.false_eq_true, if_false]
        exact ⟨_, rfl⟩
  obtain ⟨str, hstr⟩ := hstep
  have hturn : (streamTurn s ch io).isSome := by
    simp only [streamTurn, hq]
    rw [if_pos (by simp [StreamIo.passes, io]), hstr]
    rfl
  obtain ⟨t, hturn⟩ := Option.isSome_iff_exists.1 hturn
  exact ⟨.stream ch io, t, rfl, hturn⟩

theorem enabled_worker {w : Worker} (hq : (s.lanes ch).workerQ w ≠ []) :
    Enabled step Op.thread (.worker w ch) s := by
  obtain ⟨m, queue, hq⟩ := List.exists_cons_of_ne_nil hq
  have hturn : ∃ t, workerTurn s w ch ⟨false, false, false, false⟩ = some t := by
    simp only [workerTurn, hq]
    cases m with
    | ctl c =>
        simp only
        split <;> exact ⟨_, rfl⟩
    | newData | ignoreData | black | frameSync | putBackBuf => exact ⟨_, rfl⟩
  obtain ⟨t, hturn⟩ := hturn
  exact ⟨.worker w ch ⟨false, false, false, false⟩, t, rfl, hturn⟩

theorem enabled_display (hq : s.disQ ≠ []) : Enabled step Op.thread .display s := by
  obtain ⟨m, queue, hq⟩ := List.exists_cons_of_ne_nil hq
  have hturn : ∃ t, displayTurn s false false = some t := by
    simp only [displayTurn, hq]
    cases m <;> exact ⟨_, rfl⟩
  obtain ⟨t, hturn⟩ := hturn
  exact ⟨.display false false, t, rfl, hturn⟩

theorem Good.enabled {i : ℕ} (h : Good s) (hwait : s.ctl.waitReturn ch = true)
    (hat : TokenAt (mail s) ch k tok i) : Enabled Control.step Op.thread k s := by
  have hmail := hat.nonempty
  cases k with
  | player =>
      have hq : s.playerQ ≠ [] := by simpa [mail] using hmail
      obtain ⟨⟨c, m⟩, queue, hq⟩ := List.exists_cons_of_ne_nil hq
      refine ⟨.answer, playerAnswer { s with playerQ := queue } c m, rfl, ?_⟩
      simp only [Control.step]
      rw [if_pos (h.runs hwait), hq]
  | stream c => exact enabled_stream h.alive (by simpa [mail] using hmail)
  | worker w c => exact enabled_worker (by simpa [mail] using hmail)
  | display => exact enabled_display (by simpa [mail] using hmail)

/-! ## The player becomes idle -/

theorem ranking (ch : Ch) : Ranking Nearer step Op.thread Good (Waits ch)
    (fun s => s.ctl.waitReturn ch = false) where
  wf := WellFounded.prod_lex Nat.lt_wfRel.wf Nat.lt_wfRel.wf
  enabled := by
    rintro s k r hgood ⟨hwait, tok, i, hat, -⟩
    exact hgood.enabled hwait hat
  moves := by
    rintro s k r op t hgood ⟨hwait, tok, i, hat, rfl⟩ hstep
    exact step_moves hgood.inv hstep hwait hat

/-- Whatever the user asks for and whatever comes of it, the player is idle again, as long as each
thread gets its turn. -/
theorem player_idle_again (stack : Ch → FileInfo × FileInfo × StorageReadCmd) {σ : ℕ → System}
    {ops : ℕ → Option Op} (h0 : σ 0 = init stack) (hrun : IsRun step σ ops)
    (hfair : ∀ k, WeaklyFair step Op.thread k σ ops) (n : ℕ) :
    ∃ m, n ≤ m ∧ (σ m).ctl.playerThrSta = .idle := by
  have hgood : ∀ m, Good (σ m) :=
    hrun.invariant (fun h hstep => h.step hstep) (h0 ▸ good_init stack)
  by_contra hnever
  have hsta : ∀ m, n ≤ m → (σ m).ctl.playerThrSta ≠ .idle := fun m hm hidle =>
    hnever ⟨m, hm, hidle⟩
  have hanswer : ∀ ch, ∃ m, n ≤ m ∧ (σ m).ctl.waitReturn ch = false := by
    intro ch
    by_cases hwait : (σ n).ctl.waitReturn ch = true
    · obtain ⟨k, tok, i, hat, -⟩ := ((hgood n).inv.lane ch).under hwait
      exact (ranking ch).reaches hrun hfair hgood ⟨hwait, tok, i, hat, rfl⟩
    · exact ⟨n, Nat.le_refl n, Bool.eq_false_iff.2 hwait⟩
  have hquiet : ∀ ch m, n ≤ m → (σ m).ctl.waitReturn ch = false →
      ∀ d, (σ (m + d)).ctl.waitReturn ch = false := by
    intro ch m hm hwait d
    induction d with
    | zero => exact hwait
    | succ d ih =>
        cases hop : ops (m + d) with
        | none => exact (congrArg (fun s => s.ctl.waitReturn ch) (hrun.stutters _ hop)).trans ih
        | some a =>
            exact wait_step (hgood _).inv (hrun.steps _ a hop) (hsta _ (Nat.le_add_right_of_le hm)) ih
  choose m hm hwait using hanswer
  -- after the last answer the player waits for none
  have hlast : ∀ ch, m ch ≤ Finset.univ.sup m := fun ch => Finset.le_sup (Finset.mem_univ ch)
  refine hsta (Finset.univ.sup m) ((hm 0).trans (hlast 0)) ((hgood _).inv.idle.2 fun ch => ?_)
  obtain ⟨d, hd⟩ := Nat.exists_eq_add_of_le (hlast ch)
  rw [hd]
  exact hquiet ch (m ch) (hm ch) (hwait ch) d

/-- Channel 0 is put to work, and then its camera cannot be connected to. -/
def playChannel0 : ℕ → Option Op
  | 0 => some (.command (.play (some 0)) fun _ => false)
  | 2 => some (.worker .decode 0 ⟨false, false, false, false⟩)
  | 3 => some (.worker .fluency 0 ⟨false, false, false, false⟩)
  | 4 => some (.worker .copy 0 ⟨false, false, false, false⟩)
  | 5 => some (.display false false)
  | 6 => some (.worker .copy 0 ⟨false, false, false, false⟩)
  | 7 => some (.worker .fluency 0 ⟨false, false, false, false⟩)
  | 8 => some (.worker .decode 0 ⟨false, false, false, false⟩)
  | 10 => some .answer
  | _ => some (.stream 0 ⟨⟨.ok, true⟩, .noBuffer, .done, false, []⟩)

abbrev channel0 : ℕ → System := follow step playChannel0 (init cleanStack)

theorem playChannel0_late {n : ℕ} (hn : 11 ≤ n) :
    playChannel0 n = some (.stream 0 ⟨⟨.ok, true⟩, .noBuffer, .done, false, []⟩) := by
  unfold playChannel0
  split <;> first | omega | rfl

/-- The stream thread tries again and again. -/
theorem streamTurn_connectRepeat (s : System) (ch : Ch) (hq : (s.lanes ch).streamQ = [])
    (hsta : (s.lanes ch).str.strThrSta = .connectRepeat) (hexit : (s.lanes ch).str.exit = false) :
    streamTurn s ch ⟨⟨.ok, true⟩, .noBuffer, .done, false, []⟩ = some s := by
  have hself : (⟨(s.lanes ch).str, [], (s.lanes ch).thrSta, (s.lanes ch).workerQ⟩ : Lane) =
      s.lanes ch := by
    rw [← hq]
  simp [streamTurn, hq, hsta, hexit, StreamIo.passes, StreamCtl.step, StreamCtl.noMessage, putData,
    setLane, hself]

theorem channel0_stays : step (channel0 11) (.stream 0 ⟨⟨.ok, true⟩, .noBuffer, .done, false, []⟩) =
    some (channel0 11) :=
  streamTurn_connectRepeat (channel0 11) 0 rfl (by decide) (by decide)

theorem channel0_late {n : ℕ} (hn : 11 ≤ n) : channel0 n = channel0 11 :=
  follow_stays (fun _ hm => playChannel0_late hm) channel0_stays n hn

theorem isRun_channel0 : IsRun step channel0 playChannel0 := by
  refine isRun_follow fun n a hop => ?_
  rcases Nat.lt_or_ge n 11 with hn | hn
  · have hearly : ∀ n : Fin 11, (playChannel0 n).all fun a => (step (channel0 n) a).isSome := by decide
    have hn := hearly ⟨n, hn⟩
    rw [hop] at hn
    exact hn
  · obtain rfl := Option.some.inj ((playChannel0_late hn).symm.trans hop)
    change (step (channel0 n) _).isSome
    rw [channel0_late hn, channel0_stays]
    rfl

theorem fair_channel0 (k : Thr) : WeaklyFair step Op.thread k channel0 playChannel0 := by
  refine weaklyFair_of_stays (k := .stream 0) (fun _ hm => playChannel0_late hm) rfl ?_
    fun _ hm => channel0_late hm
  rintro hk ⟨op, t, hop, hstep⟩
  cases op with
  | command => cases hop
  | answer =>
      have hsta : (channel0 11).ctl.playerThrSta = .idle := by decide
      simp [step, hsta] at hstep
  | stream ch io =>
      have hch : ch ≠ 0 := by
        rintro rfl
        exact hk (Option.some.inj hop).symm
      have hrest : ∀ ch : Ch, ch ≠ 0 → ((channel0 11).lanes ch).streamQ.isEmpty ∧
          ((channel0 11).lanes ch).str.strThrSta = .standby := by decide
      obtain ⟨hq, hsta⟩ := hrest ch hch
      simp [step, streamTurn, List.isEmpty_iff.1 hq, hsta] at hstep
  | worker w ch io =>
      have hempty : ∀ ch : Ch, ((channel0 11).lanes ch).workerQ w |>.isEmpty := by
        cases w <;> decide
      simp [step, workerTurn, List.isEmpty_iff.1 (hempty ch)] at hstep
  | display fails publishes =>
      have hempty : (channel0 11).disQ = [] := by rfl
      simp [step, displayTurn, hempty] at hstep

theorem player_idle_again_channel0 : (channel0 5).ctl.playerThrSta = .play ∧
    ∃ m, 5 ≤ m ∧ (channel0 m).ctl.playerThrSta = .idle :=
  ⟨by decide, player_idle_again cleanStack rfl isRun_channel0 fair_channel0 5⟩

end

end Nvr.Player.Control
