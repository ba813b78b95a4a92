import Nvr.Lib.Marker
import Nvr.Proofs.PlayerRuns

/-!
# A channel at rest

The command to stand by goes behind the last frame of the stream thread, and every thread passes on
what is in front of it or drops it. When the player hears that the channel stands by, nothing of what
was played is left in the queues of its threads, so that the buffers can be cleared. Nothing comes
after it either, until the channel is put to work.
-/

namespace Nvr.Player.Control

open Marker Mailbox Nvr.Storage Slot

section

variable {s t u : System} {ch d : Ch} {w : Worker} {op : Op}

/-- Frames, pictures and black screens. -/
def WorkerMsg.Clean : WorkerMsg → Prop
  | .newData | .ignoreData | .black => False
  | _ => True

def WorkerMsg.Mark (m : WorkerMsg) : Prop := m = .ctl .standby

/-- What is between the stream thread and the display, the oldest first. -/
def pipe (s : System) (ch : Ch) : List WorkerMsg :=
  (s.lanes ch).workerQ .copy ++ ((s.lanes ch).workerQ .fluency ++ (s.lanes ch).workerQ .decode)

abbrev Drains (s : System) (ch : Ch) : Prop := Settled WorkerMsg.Clean WorkerMsg.Mark (pipe s ch)

/-- Behind the data of a stream thread that stands by comes the command to stand by. -/
def Drained (s : System) : Prop := ∀ ch, (s.lanes ch).str.strThrSta = .standby → Drains s ch

/-! ## Sending -/

theorem pipe_workerPutMsg_other (hd : d ≠ ch) (s : System) (w : Worker) (m : WorkerMsg) :
    pipe (workerPutMsg s w ch m) d = pipe s d := by
  simp [pipe, workerPutMsg, setLane, hd]

theorem drains_workerPutMsg {m : WorkerMsg} (h : Drains s d) (hm : m.Clean) (w : Worker) (ch : Ch) :
    Drains (workerPutMsg s w ch m) d := by
  by_cases hd : d = ch
  · subst hd
    unfold Drains pipe at h ⊢
    have hclean : ∀ x ∈ [m], x.Clean := by simpa using hm
    cases w with
    | decode =>
        simp only [workerPutMsg, setLane, Function.update_self, ne_eq, reduceCtorEq,
          not_false_eq_true, Function.update_of_ne]
        rw [← List.append_assoc, ← List.append_assoc]
        rw [← List.append_assoc, ← List.append_nil (_ ++ _)] at h
        simpa using h.insert hclean
    | fluency =>
        simp only [workerPutMsg, setLane, Function.update_self, ne_eq, reduceCtorEq,
          not_false_eq_true, Function.update_of_ne]
        rw [← List.append_assoc] at h
        simpa using h.insert hclean
    | copy =>
        simp only [workerPutMsg, setLane, Function.update_self, ne_eq, reduceCtorEq,
          not_false_eq_true, Function.update_of_ne]
        simpa using h.insert hclean
  · unfold Drains
    rw [pipe_workerPutMsg_other hd]
    exact h

theorem pipe_streamPutMsg (s : System) (ch d : Ch) (m : StreamMsg) :
    pipe (streamPutMsg s ch m) d = pipe s d := by
  by_cases hd : d = ch
  · subst hd
    simp [pipe, streamPutMsg, setLane]
  · simp [pipe, streamPutMsg, setLane, hd]

theorem drains_putPrev (h : Drains s d) (w : Worker) (ch : Ch) (c : Ctl) :
    Drains (putPrev s w ch c) d := by
  unfold putPrev
  split
  · unfold Drains
    rw [pipe_streamPutMsg]
    exact h
  · unfold Drains
    rw [pipe_streamPutMsg]
    exact h
  · exact h
  · exact drains_workerPutMsg (m := .ctl c) h trivial .decode ch
  · exact drains_workerPutMsg (m := .ctl c) h trivial .fluency ch

theorem drains_putData {data : List StreamData} (hdata : ∀ x ∈ data, x = .frameSync)
    (h : Drains s d) (ch : Ch) : Drains (putData s ch data) d := by
  unfold putData
  induction data generalizing s with
  | nil => exact h
  | cons x data ih =>
      obtain rfl := hdata x List.mem_cons_self
      exact ih (fun y hy => hdata y (List.mem_cons_of_mem _ hy))
        (drains_workerPutMsg (m := .frameSync) h trivial .decode ch)

/-- The command to stand by settles what is in front of it. -/
theorem drains_standby (s : System) (ch : Ch) :
    Drains (workerPutMsg s .decode ch (.ctl .standby)) ch := by
  have h : Settled WorkerMsg.Clean WorkerMsg.Mark (pipe s ch ++ [.ctl .standby]) :=
    @settled_mark _ WorkerMsg.Clean WorkerMsg.Mark (.ctl .standby) rfl trivial (pipe s ch)
  simpa [Drains, pipe, workerPutMsg, setLane] using h

/-! ## The workers -/

theorem workerQ_putAll (w : Worker) (ch : Ch) (out : List WorkerMsg) (s : System) :
    ((out.foldl (fun s m => workerPutMsg s w ch m) s).lanes ch).workerQ =
      Function.update (s.lanes ch).workerQ w ((s.lanes ch).workerQ w ++ out) := by
  induction out generalizing s with
  | nil => simp
  | cons x out ih =>
      rw [List.foldl_cons, ih]
      simp [workerPutMsg, setLane]

theorem workerQ_workerTake (s : System) (w : Worker) (ch : Ch) (queue : List WorkerMsg)
    (sta : ThrSta) : ((workerTake s w ch queue sta).lanes ch).workerQ =
      Function.update (s.lanes ch).workerQ w queue := by
  simp [workerTake, setLane]

theorem drains_copyTake {m : WorkerMsg} {queue : List WorkerMsg} (h : Drains s ch)
    (hq : (s.lanes ch).workerQ .copy = m :: queue) (sta : ThrSta) :
    Drains (workerTake s .copy ch queue sta) ch := by
  unfold Drains pipe at h ⊢
  rw [hq] at h
  rw [workerQ_workerTake]
  simpa using h.2

theorem lanes_putNext_copy (out : List WorkerMsg) (s : System) (ch : Ch) :
    (out.foldl (fun s m => putNext s .copy ch m) s).lanes = s.lanes := by
  induction out generalizing s with
  | nil => rfl
  | cons x out ih =>
      rw [List.foldl_cons, ih]
      cases x with
      | ctl c => cases c <;> rfl
      | newData | ignoreData | black | frameSync | putBackBuf => rfl

/-- A worker passes on what comes of the oldest message. -/
theorem drains_putNext {m : WorkerMsg} {queue : List WorkerMsg} (out : List WorkerMsg)
    (h : Drains s ch) (hq : (s.lanes ch).workerQ w = m :: queue) (hmark : m.Mark → m ∈ out)
    (hclean : w ≠ .copy → m.Clean → ∀ x ∈ out, x.Clean) (sta : ThrSta) :
    Drains (out.foldl (fun s m => putNext s w ch m) (workerTake s w ch queue sta)) ch := by
  cases w with
  | decode =>
      change Drains (out.foldl (fun s m => workerPutMsg s .fluency ch m) _) ch
      unfold Drains pipe at h ⊢
      rw [hq, ← List.append_assoc] at h
      rw [workerQ_putAll, workerQ_workerTake]
      simpa using h.replace hmark (hclean (by simp))
  | fluency =>
      change Drains (out.foldl (fun s m => workerPutMsg s .copy ch m) _) ch
      unfold Drains pipe at h ⊢
      rw [hq] at h
      rw [workerQ_putAll, workerQ_workerTake]
      simpa using h.replace hmark (hclean (by simp))
  | copy =>
      unfold Drains pipe
      rw [lanes_putNext_copy]
      exact drains_copyTake h hq sta

theorem workerData_clean (w : Worker) (sta : ThrSta) (io : WorkerIo) {m : WorkerMsg}
    (hm : m.Clean) (hw : w ≠ .copy) : ∀ x ∈ (workerData w sta io m).2, x.Clean := by
  intro x hx
  cases w with
  | copy => exact absurd rfl hw
  | decode => cases m <;> simp_all [workerData, decodeData, WorkerMsg.Clean]
  | fluency => cases m <;> simp_all [workerData, fluencyData, WorkerMsg.Clean]

/-- The lanes of the other channels are left alone. -/
theorem lanes_putNext (s : System) (w : Worker) (m : WorkerMsg) (hd : d ≠ ch) :
    (putNext s w ch m).lanes d = s.lanes d := by
  unfold putNext
  split <;> simp [workerPutMsg, disPutMsg, setLane, hd]

theorem lanes_putPrev (s : System) (w : Worker) (c : Ctl) (hd : d ≠ ch) :
    (putPrev s w ch c).lanes d = s.lanes d := by
  unfold putPrev
  split <;> simp [workerPutMsg, streamPutMsg, setLane, hd]

theorem lanes_workerTurn {io : WorkerIo} (hturn : workerTurn s w ch io = some t) (hd : d ≠ ch) :
    t.lanes d = s.lanes d := by
  have htake : ∀ queue sta, (workerTake s w ch queue sta).lanes d = s.lanes d := by
    intro queue sta
    simp [workerTake, setLane, hd]
  have hfold : ∀ (out : List WorkerMsg) (u : System),
      (out.foldl (fun s m => putNext s w ch m) u).lanes d = u.lanes d := by
    intro out
    induction out with
    | nil => exact fun _ => rfl
    | cons x out ih => exact fun u => (ih _).trans (lanes_putNext u w x hd)
  unfold workerTurn at hturn
  simp only at hturn
  split at hturn
  · cases hturn
  · split at hturn <;> obtain rfl := Option.some.inj hturn
    · exact (lanes_putNext _ w _ hd).trans (htake _ _)
    · exact (lanes_putPrev _ w _ hd).trans (htake _ _)
    · exact htake _ _
  · obtain rfl := Option.some.inj hturn
    exact (hfold _ _).trans (htake _ _)

theorem str_workerTurn {io : WorkerIo} (hturn : workerTurn s w ch io = some t) :
    (t.lanes ch).str = (s.lanes ch).str := by
  have hnext : ∀ (u : System) m, ((putNext u w ch m).lanes ch).str = (u.lanes ch).str := by
    intro u m
    unfold putNext
    split <;> simp [workerPutMsg, disPutMsg, setLane]
  have hprev : ∀ (u : System) c, ((putPrev u w ch c).lanes ch).str = (u.lanes ch).str := by
    intro u c
    unfold putPrev
    split <;> simp [workerPutMsg, streamPutMsg, setLane]
  have htake : ∀ queue sta, ((workerTake s w ch queue sta).lanes ch).str = (s.lanes ch).str := by
    intro queue sta
    simp [workerTake, setLane]
  have hfold : ∀ (out : List WorkerMsg) (u : System),
      ((out.foldl (fun s m => putNext s w ch m) u).lanes ch).str = (u.lanes ch).str := by
    intro out
    induction out with
    | nil => exact fun _ => rfl
    | cons x out ih => exact fun u => (ih _).trans (hnext u x)
  unfold workerTurn at hturn
  simp only at hturn
  split at hturn
  · cases hturn
  · split at hturn <;> obtain rfl := Option.some.inj hturn
    · exact (hnext _ _).trans (htake _ _)
    · exact (hprev _ _).trans (htake _ _)
    · exact htake _ _
  · obtain rfl := Option.some.inj hturn
    exact (hfold _ _).trans (htake _ _)

theorem drains_workerTurn {io : WorkerIo} (h : Drains s ch) (hturn : workerTurn s w ch io = some t) :
    Drains t ch := by
  unfold workerTurn at hturn
  simp only at hturn
  split at hturn
  · cases hturn
  · next c queue hq =>
      have hnext := drains_putNext [.ctl c] h hq (fun _ => List.mem_singleton_self _)
        (fun _ _ => by simp [WorkerMsg.Clean])
      have htake : c ≠ .standby → ∀ sta, Drains (workerTake s w ch queue sta) ch := by
        intro hc
        refine drains_putNext [] h hq (fun hm => ?_) (fun _ _ => by simp)
        exact absurd (WorkerMsg.ctl.inj hm) hc
      cases c with
      | standby =>
          obtain rfl := Option.some.inj hturn
          exact hnext _
      | workOn | workOnAlready | standbyAlready =>
          split at hturn <;> obtain rfl := Option.some.inj hturn
          · exact hnext _
          · exact drains_putPrev (htake (by simp) _) w ch _
          · exact htake (by simp) _
  · next m queue hctl hq =>
      obtain rfl := Option.some.inj hturn
      exact drains_putNext _ h hq (fun hm => absurd hm (hctl .standby))
        (fun hw hm => workerData_clean w _ io hm hw) _

/-! ## The other threads -/

/-- What may be sent on by a stream thread that stands by and goes on standing by. -/
theorem frameSync_of_maySend {m : StreamMsg} {data : List StreamData}
    (hdata : data.all (maySend .standby m) = true) (hm : ∀ record, m ≠ .workOnAlready record) :
    ∀ x ∈ data, x = .frameSync := by
  intro x hx
  have hmay := List.all_eq_true.1 hdata x hx
  cases m with
  | workOnAlready record => exact absurd rfl (hm record)
  | standby | connect | pause | queryPlayTime | setRate | chooseFile | singleFrame | setAudio
  | standbyAlready => cases x <;> simp [maySend] at hmay ⊢

theorem lanes_putData (s : System) (data : List StreamData) (hd : d ≠ ch) :
    (putData s ch data).lanes d = s.lanes d := by
  unfold putData
  induction data generalizing s with
  | nil => rfl
  | cons x data ih => exact (ih _).trans (by simp [workerPutMsg, setLane, hd])

theorem lanes_streamTurn {io : StreamIo} (hturn : streamTurn s ch io = some t) (hd : d ≠ ch) :
    t.lanes d = s.lanes d := by
  unfold streamTurn at hturn
  simp only at hturn
  split at hturn
  · next m queue hq =>
      obtain ⟨-, hturn⟩ := Option.ite_none_right_eq_some.1 hturn
      obtain ⟨str, -, rfl⟩ := Option.map_eq_some_iff.1 hturn
      have hanswer : ∀ (u : System) sta, (streamAnswer u ch sta m).lanes d = u.lanes d := by
        intro u sta
        unfold streamAnswer
        split <;> (try split) <;> simp [workerPutMsg, playerPutMsg, setLane, hd]
      rw [hanswer, lanes_putData _ _ hd]
      simp [setLane, hd]
  · obtain ⟨-, hturn⟩ := Option.ite_none_right_eq_some.1 hturn
    obtain ⟨str, -, rfl⟩ := Option.map_eq_some_iff.1 hturn
    rw [lanes_putData _ _ hd]
    simp [setLane, hd]

/-- What a command sends on, apart from the command to stand by. -/
theorem drains_streamAnswer {sta : StreamSta} {m : StreamMsg} (h : Drains s ch) :
    Drains (streamAnswer s ch sta m) ch := by
  unfold streamAnswer
  split <;> (try split) <;> first
    | exact h
    | exact drains_workerPutMsg (m := .ctl _) h trivial .decode ch

theorem drains_streamTurn {io : StreamIo} (h : (s.lanes ch).str.strThrSta = .standby → Drains s ch)
    (hturn : streamTurn s ch io = some t) (hstd : (t.lanes ch).str.strThrSta = .standby) :
    Drains t ch := by
  have hface : ∀ (str : StreamCtl) queue data,
      ((putData (withStream s ch str queue) ch data).lanes ch).str.strThrSta = str.strThrSta := by
    intro str queue data
    have := congrArg Face.str (face_putData (withStream s ch str queue) ch ch data)
    rw [face_withStream] at this
    exact this
  have hanswer : ∀ (u : System) sta m,
      ((streamAnswer u ch sta m).lanes ch).str.strThrSta = (u.lanes ch).str.strThrSta := by
    intro u sta m
    unfold streamAnswer
    split <;> (try split) <;> simp [workerPutMsg, playerPutMsg, setLane]
  have hpipe : ∀ str queue, pipe (withStream s ch str queue) ch = pipe s ch := by
    intro str queue
    simp [pipe, withStream, setLane]
  unfold streamTurn at hturn
  simp only at hturn
  split at hturn
  · next m queue hq =>
      obtain ⟨hguard, hturn⟩ := Option.ite_none_right_eq_some.1 hturn
      obtain ⟨hio, hdata⟩ := Bool.and_eq_true_iff.1 hguard
      obtain ⟨str, hstep, rfl⟩ := Option.map_eq_some_iff.1 hturn
      obtain ⟨-, hcmd⟩ := step_cmd hio hstep
      change ((streamAnswer (putData (withStream s ch str queue) ch io.data) ch _ m).lanes ch).str.strThrSta
        = _ at hstd
      rw [hanswer, hface] at hstd
      change Drains (streamAnswer (putData (withStream s ch str queue) ch io.data) ch _ m) ch
      by_cases hm : ∃ black, m = .standby black
      · obtain ⟨black, rfl⟩ := hm
        exact drains_standby _ ch
      · have hsame : (s.lanes ch).str.strThrSta = .standby ∧ ∀ record, m ≠ .workOnAlready record := by
          cases m with
          | standby black => exact absurd ⟨black, rfl⟩ hm
          | workOnAlready record => exact absurd hstd hcmd
          | connect | pause | queryPlayTime | setRate | chooseFile | singleFrame | setAudio
          | standbyAlready => exact ⟨hcmd.rest.1 hstd, fun _ => by simp⟩
        rw [hsame.1] at hdata
        refine drains_streamAnswer (drains_putData (frameSync_of_maySend hdata hsame.2) ?_ ch)
        unfold Drains
        rw [hpipe]
        exact h hsame.1
  · next hq =>
      obtain ⟨hguard, hturn⟩ := Option.ite_none_right_eq_some.1 hturn
      obtain ⟨hio, hsta⟩ := Bool.and_eq_true_iff.1 hguard
      obtain ⟨str, hstep, rfl⟩ := Option.map_eq_some_iff.1 hturn
      have hsame := step_noMessage hio hstep
      change ((putData (withStream s ch str (s.lanes ch).streamQ) ch io.data).lanes ch).str.strThrSta
        = _ at hstd
      rw [hface] at hstd
      simp [hsame.rest.1 hstd] at hsta

theorem drained_displayTurn {fails publishes : Bool} (h : Drained s)
    (hturn : displayTurn s fails publishes = some t) : Drained t := by
  have hput : ∀ {u : System} {ch : Ch} {m : WorkerMsg}, Drained u → m.Clean →
      Drained (workerPutMsg u .copy ch m) := by
    intro u ch m hu hm d hstd
    refine drains_workerPutMsg (hu d ?_) hm .copy ch
    have := congrArg Face.str (face_workerPutMsg u .copy ch d m)
    exact this.symm.trans hstd
  unfold displayTurn at hturn
  split at hturn
  · cases hturn
  all_goals
    simp only [Option.some.injEq] at hturn
    subst hturn
  · cases fails <;> cases publishes <;> split <;> exact h
  · exact hput (m := .ctl _) h trivial
  · exact hput (m := .ctl _) h trivial
  · exact h
  · split
    · exact hput (m := .putBackBuf) h trivial
    · exact h

/-! ## The player -/

/-- The workers' queues and the stream threads are as they were. -/
def SameWork (s t : System) : Prop :=
  ∀ ch, (t.lanes ch).workerQ = (s.lanes ch).workerQ ∧ (t.lanes ch).str = (s.lanes ch).str

theorem SameWork.refl (s : System) : SameWork s s := fun _ => ⟨rfl, rfl⟩

theorem SameWork.trans (h : SameWork s t) (h' : SameWork t u) : SameWork s u :=
  fun ch => ⟨(h' ch).1.trans (h ch).1, (h' ch).2.trans (h ch).2⟩

theorem SameWork.drained (h : SameWork s t) (hdrained : Drained s) : Drained t := by
  intro ch hstd
  obtain ⟨hq, hstr⟩ := h ch
  unfold Drains pipe
  rw [hq]
  exact hdrained ch (hstr ▸ hstd)

theorem SameWork.parts {T : PlayerSta} (h : Parts T s t) : SameWork s t := by
  refine h.keeps (fun {u v} hu hpart => hu.trans ?_) (.refl s)
  cases hpart with
  | none => exact .refl u
  | set => exact .refl u
  | @send c ch m =>
      intro d
      by_cases hd : d = ch
      · subst hd
        simp [streamPutMsg, setLane]
      · simp [streamPutMsg, setLane, hd]

/-- The player leaves the workers alone, but for a black screen where the channel is at work. -/
theorem drained_playerCommand (h : Inv s) (hidle : s.ctl.playerThrSta = .idle)
    (hdrained : Drained s) (preview : Ch → Bool) (cmd : ProCmd) :
    Drained (playerCommand s preview cmd) := by
  cases hT : cmd.leadsTo with
  | some T => exact (SameWork.parts (parts_playerCommand hT s preview)).drained hdrained
  | none =>
      cases cmd with
      | getPlayerStatus channel runStatus =>
          have hloop := SameWork.parts (parts_queryPlayTime s channel)
          refine iteInduction (motive := Drained) (fun _ => ?_) fun _ => hloop.drained hdrained
          exact hloop.drained hdrained
      | singalDisplay channel singleEn =>
          refine iteInduction (motive := Drained) (fun hwork => ?_) fun _ => hdrained
          intro d hstd
          by_cases hd : d = channel
          · subst hd
            have hface := congrArg Face.str (face_workerPutMsg (disPutMsg
              { s with ctl := { s.ctl with singleEn := singleEn } }
              (if singleEn then .tempFullscreen d else .tempSlipscreen)) .decode d d .black)
            have hrest := ((h.lane d).quiet (h.idle.1 hidle d)).2
            exact absurd (hface.symm.trans hstd) (hrest.2 hwork.2.2)
          · have hlane : (workerPutMsg (disPutMsg { s with ctl := { s.ctl with singleEn := singleEn } }
              (if singleEn then .tempFullscreen channel else .tempSlipscreen)) .decode channel
              .black).lanes d = s.lanes d := by
              simp [workerPutMsg, disPutMsg, setLane, hd]
            change Drains (workerPutMsg (disPutMsg { s with ctl := { s.ctl with singleEn := singleEn } }
              (if singleEn then .tempFullscreen channel else .tempSlipscreen)) .decode channel .black) d
            unfold Drains
            rw [pipe_workerPutMsg_other hd]
            refine hdrained d ?_
            rw [← hlane]
            exact hstd
      | allExit =>
          refine iteInduction (motive := Drained) (fun _ => hdrained) fun _ => ?_
          exact (SameWork.parts (parts_eachChannel (fun u ch => part_stop_same .exit u ch false) s
            none)).drained hdrained
      | getDisplayMode | getPreviewStatus => exact hdrained
      | play | stop | setRate | realPlay | recordPlay | chooseFile | pause | upFrame | downFrame
      | setAudio => cases hT

theorem sameWork_playerAnswer (s : System) (ch : Ch) (m : PlayerMsg) :
    SameWork s (playerAnswer s ch m) := by
  rcases playerAnswer_forms s ch m with ⟨-, hpart⟩ | ⟨-, heq | ⟨queryNum, heq⟩⟩ | ⟨-, heq⟩
  · exact SameWork.parts (.single hpart)
  · exact heq.symm ▸ .refl s
  · rw [heq]
    exact iteInduction (motive := SameWork s) (fun _ => .refl s) fun _ => .refl s
  · have hstop := SameWork.parts (.single (part_playerProStopAlreadyCmd s ch))
    rw [heq]
    exact iteInduction (motive := SameWork s) (fun _ => hstop) fun _ => hstop

theorem Drained.step (h : Inv s) (hdrained : Drained s) (hstep : step s op = some t) :
    Drained t := by
  cases op with
  | command cmd preview =>
      simp only [Control.step] at hstep
      obtain ⟨⟨hidle, -⟩, ht⟩ := Option.ite_none_right_eq_some.1 hstep
      obtain rfl := Option.some.inj ht
      exact drained_playerCommand h hidle hdrained preview cmd
  | answer =>
      simp only [Control.step] at hstep
      obtain ⟨-, ht⟩ := Option.ite_none_right_eq_some.1 hstep
      split at ht
      · next ch m queue hq =>
          obtain rfl := Option.some.inj ht
          exact (sameWork_playerAnswer { s with playerQ := queue } ch m).drained hdrained
      · cases ht
  | stream ch io =>
      intro d hstd
      by_cases hd : d = ch
      · subst hd
        exact drains_streamTurn (hdrained d) hstep hstd
      · have hlane := lanes_streamTurn hstep hd
        rw [hlane] at hstd
        unfold Drains pipe
        rw [hlane]
        exact hdrained d hstd
  | worker w ch io =>
      intro d hstd
      by_cases hd : d = ch
      · subst hd
        exact drains_workerTurn (hdrained d (str_workerTurn hstep ▸ hstd)) hstep
      · have hlane := lanes_workerTurn hstep hd
        rw [hlane] at hstd
        unfold Drains pipe
        rw [hlane]
        exact hdrained d hstd
  | display fails publishes => exact drained_displayTurn hdrained hstep

/-! ## A stopped channel -/

theorem drained_run {stack : Ch → FileInfo × FileInfo × StorageReadCmd} {ops : List Op}
    (hrun : Run (fun s op t => step s op = some t) (init stack) ops s) : Drained s := by
  induction hrun with
  | nil => exact fun ch _ => by simp [Drains, pipe, init, Settled]
  | snoc hrun hstep ih => exact ih.step (good_run hrun).inv hstep

/-- Where the token of the channel is another than the command to stand by, its queues are clean. -/
theorem Drained.clean {m : WorkerMsg} (h : Drained s) (hstd : (s.lanes ch).str.strThrSta = .standby)
    (hnone : ∀ k, some (ch, .standby) ∉ mail s k) (w : Worker)
    (hm : m ∈ (s.lanes ch).workerQ w) : m.Clean := by
  refine (h ch hstd).all_clean (fun x hx hmark => ?_) m ?_
  · obtain rfl : x = .ctl .standby := hmark
    have hmail : ∀ w, .ctl .standby ∈ (s.lanes ch).workerQ w →
        some (ch, Tok.standby) ∈ mail s (.worker w ch) := fun w hw =>
      List.mem_map.2 ⟨_, hw, rfl⟩
    rcases List.mem_append.1 hx with hx | hx
    · exact hnone _ (hmail .copy hx)
    · rcases List.mem_append.1 hx with hx | hx
      · exact hnone _ (hmail .fluency hx)
      · exact hnone _ (hmail .decode hx)
  · cases w <;> simp [pipe, hm]

/-- The token of a channel at rest is no command. -/
theorem LaneInv.rests {f : Face} {m : Thr → List (Option (Ch × Tok))} (h : LaneInv ch f m)
    (hstd : f.standby = true) : AllStandby f ∧ ∀ k, some (ch, .standby) ∉ m k := by
  cases hwait : f.wait with
  | false =>
      obtain ⟨hnone, hrest⟩ := h.quiet hwait
      exact ⟨hrest.1 hstd, fun k => hnone k .standby⟩
  | true =>
      obtain ⟨k, tok, i, hat, hfits, -⟩ := h.under hwait
      refine ⟨?_, fun j hj => ?_⟩
      · cases tok with
        | request r => cases k <;> cases r <;> simp_all [Fits, Rest]
        | answer r => cases k <;> cases r <;> simp_all [Fits, Rest]
        | workOn | workOnAlready | standby | standbyAlready =>
            cases k <;> simp_all [Fits, Stopping]
      · obtain rfl := hat.unique hj
        have hnot := hfits.stopping (.inl rfl)
        rw [hstd] at hnot
        cases hnot

/-- A channel that the player takes to be at rest is at rest: its threads stand by, and nothing of
what was played is left in their queues. -/
theorem stopped_channel_drained {stack : Ch → FileInfo × FileInfo × StorageReadCmd} {ops : List Op}
    (hrun : Run (fun s op t => step s op = some t) (init stack) ops s) (ch : Ch)
    (hstop : s.ctl.strStandbyAlready ch = true) :
    (s.lanes ch).str.strThrSta = .standby ∧
      ∀ w, (s.lanes ch).thrSta w = .standby ∧
        ∀ m ∈ (s.lanes ch).workerQ w, m ≠ .newData ∧ m ≠ .ignoreData ∧ m ≠ .black := by
  obtain ⟨⟨hstr, hall⟩, hnone⟩ := ((good_run hrun).inv.lane ch).rests hstop
  refine ⟨hstr, fun w => ⟨hall w, fun m hm => ?_⟩⟩
  have hclean := (drained_run hrun).clean hstr hnone w hm
  cases m with
  | newData | ignoreData | black => exact hclean.elim
  | ctl | frameSync | putBackBuf => simp

/-- Channel 0 is put to work, sends two frames and is stopped; the workers get to the frames late. -/
def playAndStop : List Op :=
  let idle : StreamIo := ⟨⟨.ok, true⟩, .noBuffer, .done, true, []⟩
  let work : WorkerIo := ⟨false, true, false, true⟩
  [.command (.play (some 0)) fun _ => false, .stream 0 idle, .worker .decode 0 work,
    .worker .fluency 0 work, .worker .copy 0 work, .display false false, .worker .copy 0 work,
    .worker .fluency 0 work, .worker .decode 0 work, .stream 0 idle, .answer,
    .stream 0 { idle with data := [.newData] }, .stream 0 { idle with data := [.newData] },
    .command (.stop (some 0)) fun _ => false, .stream 0 { idle with data := [.black] },
    .worker .decode 0 work, .worker .decode 0 work, .worker .decode 0 work, .worker .decode 0 work,
    .worker .fluency 0 work, .worker .fluency 0 work, .worker .fluency 0 work,
    .worker .fluency 0 work, .worker .copy 0 work, .worker .copy 0 work, .worker .copy 0 work,
    .worker .copy 0 work, .display false false, .display false false, .display false false,
    .display false false,
    .worker .copy 0 work, .worker .fluency 0 work, .worker .decode 0 work, .stream 0 idle, .answer]

theorem playAndStop_runs : (playAndStop.foldlM step (init cleanStack)).isSome := by decide

theorem stopped_channel_drained_playAndStop : ∃ s, playAndStop.foldlM step (init cleanStack) = some s ∧
    ∀ w, ∀ m ∈ (s.lanes 0).workerQ w, m ≠ .newData ∧ m ≠ .ignoreData ∧ m ≠ .black := by
  have hrun := Run.of_foldlM (fun h => h) (Option.some_get playAndStop_runs).symm
  exact ⟨_, (Option.some_get playAndStop_runs).symm, fun w =>
    ((stopped_channel_drained hrun 0 (by decide)).2 w).2⟩

end

end Nvr.Player.Control
