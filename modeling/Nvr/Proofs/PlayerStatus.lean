import Nvr.Proofs.PlayerRuns

/-!
# The answers to questions for the status

`PLAYER_CMD_GET_PLAYER_STATUS` is answered at once where no channel replays, and otherwise when the
last of the channels asked has answered. A question for one channel that does not replay, while
another does, is not answered.
-/

namespace Nvr.Player.Control

open Nvr.Storage Slot

section

variable {s t u : System} {ch : Ch} {op : Op}

def UiMsg.isRetStatus : UiMsg → Bool
  | .retStatus _ => true
  | _ => false

/-- How often the status has been sent to the user interface. -/
def statusSent (s : System) : ℕ := s.ui.countP UiMsg.isRetStatus

/-- One question is waiting for the channels. -/
def statusPending (s : System) : ℕ := if s.ctl.playerThrSta = .getPlayerStatus then 1 else 0

/-- A question that is answered. -/
def answersStatus (s : System) : Op → Bool
  | .command (.getPlayerStatus channel _) _ =>
      decide (∀ ch, s.ctl.recordEn ch = false) || (channels channel).any s.ctl.recordEn
  | _ => false

/-- How many questions that are answered are asked in a run. -/
def statusAsked (s : System) : List Op → ℕ
  | [] => 0
  | op :: ops =>
      (if answersStatus s op then 1 else 0) +
        match step s op with
        | some t => statusAsked t ops
        | none => 0

/-! ## Commands -/

/-- A channel is asked for its play time if it replays. -/
def queryChannel (s : System) (ch : Ch) : System :=
  if s.ctl.recordEn ch = true then
    streamPutMsg (playerSetSta (setWait s ch true) .getPlayerStatus) ch .queryPlayTime
  else noReplay s ch

theorem queryChannel_fields (s : System) (ch : Ch) :
    (queryChannel s ch).ui = s.ui ∧ (queryChannel s ch).ctl.recordEn = s.ctl.recordEn ∧
      (queryChannel s ch).ctl.playerThrSta =
        if s.ctl.recordEn ch = true then .getPlayerStatus else s.ctl.playerThrSta := by
  unfold queryChannel
  split <;> exact ⟨rfl, rfl, rfl⟩

theorem queryChannels_fields (l : List Ch) (s : System) :
    (l.foldl queryChannel s).ui = s.ui ∧
      (l.foldl queryChannel s).ctl.recordEn = s.ctl.recordEn ∧
      (l.foldl queryChannel s).ctl.playerThrSta =
        if l.any s.ctl.recordEn then .getPlayerStatus else s.ctl.playerThrSta := by
  induction l generalizing s with
  | nil => exact ⟨rfl, rfl, rfl⟩
  | cons ch l ih =>
      obtain ⟨hui, hrec, hsta⟩ := queryChannel_fields s ch
      obtain ⟨hui', hrec', hsta'⟩ := ih (queryChannel s ch)
      refine ⟨hui'.trans hui, hrec'.trans hrec, ?_⟩
      rw [List.foldl_cons, hsta', hrec, hsta, List.any_cons]
      cases s.ctl.recordEn ch <;> simp

theorem status_playerProGetStaCmd (hidle : s.ctl.playerThrSta = .idle) (channel : Option Ch)
    (runStatus : Ch → PlayerStatus) (preview : Ch → Bool) :
    statusSent (playerProGetStaCmd s channel runStatus) +
        statusPending (playerProGetStaCmd s channel runStatus) =
      statusSent s +
        if answersStatus s (.command (.getPlayerStatus channel runStatus) preview) then 1 else 0 := by
  obtain ⟨hui, hrec, hsta⟩ := queryChannels_fields (channels channel) s
  have hloop : playerProGetStaCmd s channel runStatus =
      if ∀ ch, ((channels channel).foldl queryChannel s).ctl.recordEn ch = false then
        playerSendMsgToUi ((channels channel).foldl queryChannel s) (.retStatus runStatus)
      else (channels channel).foldl queryChannel s := rfl
  rw [hloop]
  by_cases hnone : ∀ ch, s.ctl.recordEn ch = false
  · have hany : (channels channel).any s.ctl.recordEn = false := by
      simp [hnone]
    rw [hany, hidle] at hsta
    rw [if_pos (by rwa [hrec])]
    simp only [statusSent, statusPending, playerSendMsgToUi, hui, hsta, answersStatus, hany, hnone]
    simp [UiMsg.isRetStatus]
  · rw [if_neg (by rwa [hrec])]
    simp only [statusSent, statusPending, hui, hsta, hidle, answersStatus, hnone]
    cases (channels channel).any s.ctl.recordEn <;> simp

/-- Nothing is sent to the user interface. -/
theorem ui_parts {T : PlayerSta} (h : Parts T s t) : t.ui = s.ui := by
  refine h.keeps (P := fun u => u.ui = s.ui) (fun {u v} hu hpart => ?_) rfl
  cases hpart with
  | none => exact hu
  | set => exact hu
  | send => exact hu

theorem sta_parts {T : PlayerSta} (h : Parts T s t) :
    t.ctl.playerThrSta = s.ctl.playerThrSta ∨ t.ctl.playerThrSta = T := by
  refine h.keeps (P := fun u => u.ctl.playerThrSta = s.ctl.playerThrSta ∨ u.ctl.playerThrSta = T)
    (fun {u v} hu hpart => ?_) (.inl rfl)
  cases hpart with
  | none => exact hu
  | set _ hsta => exact hsta.elim (fun heq => heq ▸ hu) .inr
  | send _ hsta => exact hsta.elim (fun heq => heq ▸ hu) .inr

/-- Nothing has to do with a question. -/
theorem status_same {T : PlayerSta} (h : Parts T s t) (hsta : s.ctl.playerThrSta ≠ .getPlayerStatus)
    (hT : T ≠ .getPlayerStatus) :
    statusSent t + statusPending t = statusSent s + statusPending s := by
  have ht : t.ctl.playerThrSta ≠ .getPlayerStatus := by
    rcases sta_parts h with heq | heq <;> rw [heq] <;> assumption
  simp only [statusSent, statusPending, ui_parts h, if_neg hsta, if_neg ht]

theorem leadsTo_ne {T : PlayerSta} {cmd : ProCmd} (hT : cmd.leadsTo = some T) :
    T ≠ .getPlayerStatus ∧ ∀ preview, answersStatus s (.command cmd preview) = false := by
  cases cmd <;> simp only [ProCmd.leadsTo, Option.some.injEq, reduceCtorEq] at hT <;> subst hT <;>
    exact ⟨by simp, fun _ => rfl⟩

theorem status_playerCommand (hidle : s.ctl.playerThrSta = .idle) (preview : Ch → Bool)
    (cmd : ProCmd) :
    statusSent (playerCommand s preview cmd) + statusPending (playerCommand s preview cmd) =
      statusSent s + statusPending s +
        if answersStatus s (.command cmd preview) then 1 else 0 := by
  have hnot : s.ctl.playerThrSta ≠ .getPlayerStatus := by simp [hidle]
  have hnone : statusPending s = 0 := if_neg hnot
  cases hT : cmd.leadsTo with
  | some T =>
      obtain ⟨hne, hno⟩ := leadsTo_ne (s := s) hT
      rw [hno preview, status_same (parts_playerCommand hT s preview) hnot hne]
      rfl
  | none =>
      cases cmd with
      | getPlayerStatus channel runStatus =>
          rw [hnone]
          exact status_playerProGetStaCmd hidle channel runStatus preview
      | singalDisplay channel singleEn =>
          have hfields : (playerProDisModCmd s channel singleEn preview).ui = s.ui ∧
              (playerProDisModCmd s channel singleEn preview).ctl.playerThrSta =
                s.ctl.playerThrSta :=
            iteInduction (motive := fun t : System => t.ui = s.ui ∧
              t.ctl.playerThrSta = s.ctl.playerThrSta) (fun _ => ⟨rfl, rfl⟩) fun _ => ⟨rfl, rfl⟩
          simp only [playerCommand, statusSent, statusPending, hfields, answersStatus]
          rfl
      | allExit =>
          refine iteInduction (motive := fun t : System =>
            statusSent t + statusPending t = statusSent s + statusPending s) (fun _ => rfl) fun _ => ?_
          exact status_same (parts_eachChannel (fun u ch => part_stop_same .exit u ch false) s none)
            hnot (by simp)
      | getDisplayMode =>
          simp [playerCommand, statusSent, statusPending, playerSendMsgToUi, answersStatus,
            UiMsg.isRetStatus, hnot]
      | getPreviewStatus channel =>
          simp [playerCommand, playerProGetPreviewStaCmd, statusSent, statusPending,
            playerSendMsgToUi, answersStatus, UiMsg.isRetStatus, hnot]
      | play | stop | setRate | realPlay | recordPlay | chooseFile | pause | upFrame | downFrame
      | setAudio => cases hT

theorem status_playerAnswer (s : System) (ch : Ch) (m : PlayerMsg) :
    statusSent (playerAnswer s ch m) + statusPending (playerAnswer s ch m) =
      statusSent s + statusPending s := by
  rcases playerAnswer_forms s ch m with ⟨hnot, hpart⟩ | ⟨hget, heq | ⟨queryNum, heq⟩⟩ | ⟨hexit, heq⟩
  · exact status_same (.single hpart) hnot (by simp)
  · rw [heq]
  · rw [heq]
    by_cases hall : ∀ d, (setWait s ch false).ctl.waitReturn d = false
    · rw [playerProGetStaAlreadyCmd_last queryNum hall]
      simp [statusSent, statusPending, playerSetSta, playerSendMsgToUi, setWait, noteQueryNum,
        UiMsg.isRetStatus, hget]
    · rw [playerProGetStaAlreadyCmd_more queryNum hall]
      rfl
  · have hstop := status_same (.single (part_playerProStopAlreadyCmd s ch)) (by simp [hexit])
      (by simp)
    rw [heq]
    exact iteInduction (motive := fun t : System =>
      statusSent t + statusPending t = statusSent s + statusPending s) (fun _ => hstop) fun _ => hstop

theorem status_samePlayer (h : SamePlayer s t) :
    statusSent t + statusPending t = statusSent s + statusPending s := by
  simp only [statusSent, statusPending, h.1, h.2]

theorem status_step (hstep : step s op = some t) :
    statusSent t + statusPending t =
      statusSent s + statusPending s + if answersStatus s op then 1 else 0 := by
  cases op with
  | command cmd preview =>
      simp only [step] at hstep
      obtain ⟨⟨hidle, -⟩, ht⟩ := Option.ite_none_right_eq_some.1 hstep
      obtain rfl := Option.some.inj ht
      exact status_playerCommand hidle preview cmd
  | answer =>
      simp only [step] at hstep
      obtain ⟨-, ht⟩ := Option.ite_none_right_eq_some.1 hstep
      split at ht
      · next ch m queue hq =>
          obtain rfl := Option.some.inj ht
          exact status_playerAnswer { s with playerQ := queue } ch m
      · cases ht
  | stream ch io => exact status_samePlayer (samePlayer_streamTurn hstep)
  | worker w ch io => exact status_samePlayer (samePlayer_workerTurn hstep)
  | display fails publishes => exact status_samePlayer (samePlayer_displayTurn hstep)

theorem status_run {ops : List Op} : ∀ {s t : System}, ops.foldlM step s = some t →
    statusSent t + statusPending t = statusSent s + statusPending s + statusAsked s ops := by
  induction ops with
  | nil =>
      intro s t hrun
      obtain rfl := Option.some.inj hrun
      rfl
  | cons op ops ih =>
      intro s t hrun
      rw [List.foldlM_cons] at hrun
      obtain ⟨u, hstep, hrest⟩ := Option.bind_eq_some_iff.1 hrun
      rw [ih hrest, status_step hstep, statusAsked, hstep]
      exact Nat.add_assoc _ _ _

/-- Every question is answered once, but for those that are not answered at all; the last one may
still be waiting for a channel. -/
theorem status_answered_once {stack : Ch → FileInfo × FileInfo × StorageReadCmd} {ops : List Op}
    (hrun : ops.foldlM step (init stack) = some s) :
    statusSent s + statusPending s = statusAsked (init stack) ops := by
  rw [status_run hrun]
  simp [statusSent, statusPending, init]

/-- Channel 0 is to replay, and its status is asked for; the status of channel 1 is not answered. -/
def askStatus : List Op :=
  let ask (ch : Ch) : Op :=
    .command (.getPlayerStatus (some ch) fun _ => ⟨0, false, .paly⟩) fun _ => false
  [.command (.recordPlay (some 0)) fun _ => false, ask 0,
    .stream 0 ⟨⟨.ok, true⟩, .noBuffer, .done, false, []⟩, .answer, ask 1]

theorem askStatus_runs : (askStatus.foldlM step (init cleanStack)).isSome := by decide

theorem status_answered_once_askStatus : ∃ s, askStatus.foldlM step (init cleanStack) = some s ∧
    statusSent s + statusPending s = 1 := by
  have hrun := (Option.some_get askStatus_runs).symm
  have hasked : statusAsked (init cleanStack) askStatus = 1 := by decide
  exact ⟨_, hrun, (status_answered_once hrun).trans hasked⟩

end

end Nvr.Player.Control
