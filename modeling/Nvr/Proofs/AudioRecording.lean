import Nvr.Lib.Run
import Nvr.Player.AudioRecord

/-!
# Talk-back recording and its users

The two tests of the state in `audio_record_thr_main` assign it. With one user at a time that
does no harm, since the first start and the last stop put the state right again. A start that
is taken while somebody records leaves the thread stopped with two users, and that is the only
command that does. The numbers of the frames of a session wrap when 2^32 of them have been
written.
-/

namespace Nvr.Player

/-! ## The law -/

/-- What the thread has done, session by session: the device and the pool are opened, frames
are numbered from 1 on, and both are closed again. The state at the end is the number of frames
of the session that is open. -/
inductive Sessions : List RecordEffect → Option Nat → Prop
  | nil : Sessions [] none
  | opened {log : List RecordEffect} :
      Sessions log none → Sessions ((log ++ [.deviceInit]) ++ [.startWrite]) (some 0)
  | frame {log : List RecordEffect} {n : Nat} {no : UInt32} :
      Sessions log (some n) → no.toNat = n + 1 → Sessions (log ++ [.frame no]) (some (n + 1))
  | closed {log : List RecordEffect} {n : Nat} :
      Sessions log (some n) → Sessions ((log ++ [.deviceExit]) ++ [.stopWrite]) none

/-- The thread records, with an open writer, if and only if more starts than stops have been
taken; and what it has done are sessions. -/
def RecordLaw (u : RecordUsers) : Prop :=
  ((u.thread.record_sta = .running ∧ u.thread.av_audio_hdl = true) ↔ u.stops < u.starts) ∧
    ∃ open?, Sessions u.thread.log open?

/-- How many frames have been written since the writer was opened. -/
def framesSince (log : List RecordEffect) : Nat :=
  (log.reverse.takeWhile fun | .frame _ => true | _ => false).length

/-- No start is taken while somebody records, and no session gets to 2^32 frames. -/
def OneUser (u : RecordUsers) : RecordEvent → Prop
  | .start => True
  | .stop => True
  | .poll io =>
      (u.thread.audio_record = audioRecordStartCmd → u.starts ≤ u.stops) ∧
        (u.thread.audio_record = 0 → io.stream = true → io.write = true →
          framesSince u.thread.log + 1 < 2 ^ 32)

/-! ## Sessions -/

namespace Sessions

theorem framesSince_eq {log : List RecordEffect} {open? : Option Nat}
    (h : Sessions log open?) : framesSince log = open?.getD 0 := by
  induction h with
  | nil => rfl
  | opened _ _ => simp [framesSince]
  | frame _ _ ih =>
      simp only [framesSince, Option.getD_some] at ih
      simp [framesSince, ih]
  | closed _ _ => simp [framesSince]

/-- A frame at the end carries the number after those of its session. -/
theorem of_frame {log : List RecordEffect} {open? : Option Nat} {no : UInt32}
    (h : Sessions (log ++ [.frame no]) open?) : no.toNat ≠ 0 := by
  generalize hall : log ++ [RecordEffect.frame no] = all at h
  cases h with
  | nil => exact absurd hall (by simp)
  | opened _ => exact absurd (List.append_inj' hall rfl).2 (by simp)
  | frame _ hno =>
      obtain ⟨-, hlast⟩ := List.append_inj' hall rfl
      injection hlast with hlast
      injection hlast with hlast
      rw [hlast, hno]
      omega
  | closed _ => exact absurd (List.append_inj' hall rfl).2 (by simp)

end Sessions

/-! ## One user at a time -/

/-- The thread between polls, with nobody or one user. -/
inductive Phase (s : AudioRecord) : Bool → Prop
  | idle : s.start_cnt = 0 → s.record_sta = .stop → s.av_audio_hdl = false →
      s.u32FrameNo = 1 → Sessions s.log none → Phase s false
  | busy (n : Nat) : s.start_cnt = 1 → s.record_sta = .running → s.av_audio_hdl = true →
      n < 2 ^ 32 → s.u32FrameNo = UInt32.ofNat (n + 1) → Sessions s.log (some n) → Phase s true

/-- Nobody or one user, and a command that fits. -/
structure OneAtATime (u : RecordUsers) : Prop where
  phase : Phase u.thread (decide (u.stops < u.starts))
  at_most : u.starts ≤ u.stops + 1
  no_more : u.stops ≤ u.starts
  command : u.thread.audio_record = 0 ∨ u.thread.audio_record = audioRecordStartCmd ∨
    (u.thread.audio_record = audioRecordStopCmd ∧ u.stops < u.starts)

theorem oneAtATime_init : OneAtATime .init :=
  ⟨.idle rfl rfl rfl rfl .nil, by decide, by decide, .inl rfl⟩

theorem OneAtATime.law {u : RecordUsers} (h : OneAtATime u) : RecordLaw u := by
  have hphase := h.phase
  generalize hb : decide (u.stops < u.starts) = b at hphase
  cases hphase with
  | idle _ hsta _ _ hlog =>
      refine ⟨⟨fun hrun => ?_, fun hlt => ?_⟩, _, hlog⟩
      · rw [hsta] at hrun
        exact absurd hrun.1 (by decide)
      · exact absurd hlt (by simpa using hb)
  | busy n _ hsta hhdl _ _ hlog =>
      exact ⟨⟨fun _ => by simpa using hb, fun _ => ⟨hsta, hhdl⟩⟩, _, hlog⟩

/-! ### A poll -/

theorem record_idle {s : AudioRecord} (hsta : s.record_sta = .stop) (io : RecordIo) :
    s.record io = s := by
  simp [AudioRecord.record, hsta]

/-- A frame is written, or the session stays as it is. -/
theorem Phase.record {s : AudioRecord} (h : Phase s true) {io : RecordIo}
    (hroom : io.stream = true → io.write = true → framesSince s.log + 1 < 2 ^ 32) :
    Phase (s.record io) true := by
  cases h with
  | busy n hcnt hsta hhdl hn hno hlog =>
      by_cases hwrites : io.stream = true ∧ io.write = true
      · obtain ⟨hstream, hwrite⟩ := hwrites
        have hroom := hroom hstream hwrite
        rw [hlog.framesSince_eq, Option.getD_some] at hroom
        have hnumber : (UInt32.ofNat (n + 1)).toNat = n + 1 := UInt32.toNat_ofNat_of_lt' hroom
        have heq : s.record io =
            { s.did (.frame s.u32FrameNo) with u32FrameNo := s.u32FrameNo + 1 } := by
          simp [AudioRecord.record, hsta, hstream, hwrite]
        rw [heq]
        refine .busy (n + 1) hcnt hsta hhdl hroom ?_ (hlog.frame (by rw [hno, hnumber]))
        rw [hno, UInt32.ofNat_add (n + 1) 1]
        rfl
      · have heq : s.record io = s := by
          simp only [AudioRecord.record, hsta]
          cases hstream : io.stream <;> cases hwrite : io.write <;> simp_all
        rw [heq]
        exact .busy n hcnt hsta hhdl hn hno hlog

/-- The first start opens the device and the writer. -/
theorem Phase.start {s : AudioRecord} (h : Phase s false) {io : RecordIo}
    (hinit : audioRecordRecInit io.par = true) (hwriter : io.startWrite = true) :
    Phase (s.takeCmd audioRecordStartCmd io) true := by
  cases h with
  | idle hcnt hsta hhdl hno hlog =>
      refine .busy 0 ?_ ?_ ?_ (by decide) ?_ ?_ <;>
        simp only [AudioRecord.takeCmd, AudioRecord.initDevice, AudioRecord.startWriter,
          AudioRecord.did, hcnt, hinit, hwriter, if_true]
      · rfl
      · exact hno
      · exact hlog.opened

/-- The stop of the only user closes both. -/
theorem Phase.stop {s : AudioRecord} (h : Phase s true) (io : RecordIo) :
    Phase (s.takeCmd audioRecordStopCmd io) false := by
  have hne : audioRecordStopCmd ≠ audioRecordStartCmd := by decide
  cases h with
  | busy n hcnt hsta hhdl hn hno hlog =>
      have hlast : (1 : UInt32) - 1 = 0 := by decide
      refine .idle ?_ ?_ ?_ ?_ ?_ <;>
        simp only [AudioRecord.takeCmd, AudioRecord.did, hcnt, hlast, if_neg hne, if_true]
      exact hlog.closed

theorem takeCmd_none (s : AudioRecord) (io : RecordIo) : s.takeCmd 0 io = s := rfl

/-- The byte of the command is not part of the phase. -/
theorem Phase.setCmd {s : AudioRecord} {b : Bool} (h : Phase s b) (cmd : UInt8) :
    Phase { s with audio_record := cmd } b := by
  cases h with
  | idle hcnt hsta hhdl hno hlog => exact .idle hcnt hsta hhdl hno hlog
  | busy n hcnt hsta hhdl hn hno hlog => exact .busy n hcnt hsta hhdl hn hno hlog

/-! The byte of the command is taken at the head of the round, and not touched after it. -/

@[simp] theorem did_audio_record (s : AudioRecord) (e : RecordEffect) :
    (s.did e).audio_record = s.audio_record := rfl

@[simp] theorem initDevice_audio_record (s : AudioRecord) (io : RecordIo) :
    (s.initDevice io).audio_record = s.audio_record := by
  unfold AudioRecord.initDevice
  split <;> rfl

@[simp] theorem startWriter_audio_record (s : AudioRecord) (io : RecordIo) :
    (s.startWriter io).audio_record = s.audio_record := by
  unfold AudioRecord.startWriter
  split <;> rfl

@[simp] theorem takeCmd_audio_record (s : AudioRecord) (cmd : UInt8) (io : RecordIo) :
    (s.takeCmd cmd io).audio_record = s.audio_record := by
  simp only [AudioRecord.takeCmd]
  split
  · dsimp only
    split <;> simp
  · split
    · split <;> rfl
    · split <;> rfl

@[simp] theorem record_audio_record (s : AudioRecord) (io : RecordIo) :
    (s.record io).audio_record = s.audio_record := by
  unfold AudioRecord.record
  split <;> rfl

theorem poll_audio_record (s : AudioRecord) (io : RecordIo) : (s.poll io).audio_record = 0 := by
  simp [AudioRecord.poll]

theorem Phase.stopped {s : AudioRecord} (h : Phase s false) : s.record_sta = .stop := by
  cases h with
  | idle _ hsta _ _ _ => exact hsta

/-- No frame of the session before is counted after the first start. -/
theorem Phase.framesSince_start {s : AudioRecord} (h : Phase s false) {io : RecordIo}
    (hinit : audioRecordRecInit io.par = true) (hwriter : io.startWrite = true) :
    framesSince (s.takeCmd audioRecordStartCmd io).log = 0 := by
  cases h with
  | idle hcnt _ _ _ _ =>
      simp [AudioRecord.takeCmd, AudioRecord.initDevice, AudioRecord.startWriter,
        AudioRecord.did, hcnt, hinit, hwriter, framesSince]

/-- A start that is taken while somebody records stops the thread. -/
theorem start_busy {s : AudioRecord} (h : Phase s true) (io : RecordIo) :
    ((s.takeCmd audioRecordStartCmd io).record io).record_sta = .stop := by
  cases h with
  | busy n hcnt hsta hhdl hn hno hlog =>
      rw [record_idle] <;> simp [AudioRecord.takeCmd, hcnt]

/-! ## Runs -/

theorem poll_oneAtATime {u : RecordUsers} {io : RecordIo} (h : OneAtATime u)
    (hinit : u.thread.audio_record = audioRecordStartCmd →
      audioRecordRecInit io.par = true ∧ io.startWrite = true)
    (hok : OneUser u (.poll io)) : OneAtATime (u.poll io) := by
  have hat := h.at_most
  have hno := h.no_more
  have hphase := h.phase.setCmd 0
  have hpolled := poll_audio_record u.thread io
  have hne : audioRecordStopCmd ≠ audioRecordStartCmd := by decide
  have hnz : audioRecordStartCmd ≠ 0 := by decide
  rcases h.command with hcmd | hcmd | ⟨hcmd, hlt⟩
  · -- nothing to take: a frame, or nothing
    have hstart : (0 : UInt8) ≠ audioRecordStartCmd := hnz.symm
    have hstop : (0 : UInt8) ≠ audioRecordStopCmd := by decide
    have hpoll : u.thread.poll io = ({ u.thread with audio_record := 0 } : AudioRecord).record io := by
      rw [AudioRecord.poll, hcmd, takeCmd_none]
    refine ⟨?_, ?_, ?_, .inl hpolled⟩ <;> simp only [RecordUsers.poll, hcmd, hstart, hstop, if_false]
    · rw [hpoll]
      cases hb : decide (u.stops < u.starts) with
      | false =>
          rw [hb] at hphase
          rw [record_idle hphase.stopped io]
          simpa [hb] using hphase
      | true =>
          rw [hb] at hphase
          simpa [hb] using hphase.record (hok.2 hcmd)
    · omega
    · omega
  · -- a start, with nobody there
    have hnobody := hok.1 hcmd
    have hb : decide (u.stops < u.starts) = false := by simpa using hnobody
    rw [hb] at hphase
    obtain ⟨hinit, hwriter⟩ := hinit hcmd
    have hopened := hphase.start hinit hwriter
    have hpoll : Phase (u.thread.poll io) true := by
      rw [AudioRecord.poll, hcmd]
      refine hopened.record fun _ _ => ?_
      rw [hphase.framesSince_start hinit hwriter]
      decide
    refine ⟨?_, ?_, ?_, .inl hpolled⟩ <;> simp only [RecordUsers.poll, hcmd, hne.symm, if_true, if_false]
    · have hb' : decide (u.stops + 0 < u.starts + 1) = true := by
        rw [decide_eq_true_eq]
        omega
      rw [hb']
      exact hpoll
    · omega
    · omega
  · -- the stop of the one user
    have hb : decide (u.stops < u.starts) = true := by simpa using hlt
    rw [hb] at hphase
    have hclosed := hphase.stop io
    have hpoll : Phase (u.thread.poll io) false := by
      rw [AudioRecord.poll, hcmd, record_idle hclosed.stopped io]
      exact hclosed
    refine ⟨?_, ?_, ?_, .inl hpolled⟩ <;> simp only [RecordUsers.poll, hcmd, hne, if_true, if_false]
    · have hb' : decide (u.stops + 1 < u.starts + 0) = false := by
        rw [decide_eq_false_iff_not]
        omega
      rw [hb']
      exact hpoll
    · omega
    · omega

theorem step_oneAtATime {u u' : RecordUsers} {e : RecordEvent} (h : OneAtATime u)
    (hstep : u.step e = some u') (hok : OneUser u e) : OneAtATime u' := by
  cases e with
  | start =>
      obtain ⟨-, heq⟩ := Option.ite_none_right_eq_some.1 hstep
      obtain rfl := Option.some.inj heq
      exact ⟨h.phase.setCmd _, h.at_most, h.no_more, .inr (.inl rfl)⟩
  | stop =>
      obtain ⟨⟨-, hlt⟩, heq⟩ := Option.ite_none_right_eq_some.1 hstep
      obtain rfl := Option.some.inj heq
      exact ⟨h.phase.setCmd _, h.at_most, h.no_more, .inr (.inr ⟨rfl, hlt⟩)⟩
  | poll io =>
      obtain ⟨hinit, heq⟩ := Option.ite_none_right_eq_some.1 hstep
      obtain rfl := Option.some.inj heq
      exact poll_oneAtATime h hinit hok

/-- A second start stops the recording, and a frame too many has the number 0. -/
theorem not_law_of_not_oneUser {u u' : RecordUsers} {e : RecordEvent} (h : OneAtATime u)
    (hstep : u.step e = some u') (hnot : ¬OneUser u e) : ¬RecordLaw u' := by
  cases e with
  | start => exact absurd trivial hnot
  | stop => exact absurd trivial hnot
  | poll io =>
      obtain ⟨-, heq⟩ := Option.ite_none_right_eq_some.1 hstep
      obtain rfl := Option.some.inj heq
      intro hlaw
      have hphase := h.phase.setCmd 0
      rcases Classical.not_and_iff_not_or_not.1 hnot with hstart | hframe
      · obtain ⟨hcmd, hmore⟩ := Classical.not_imp.1 hstart
        have hb : decide (u.stops < u.starts) = true := by simpa using hmore
        rw [hb] at hphase
        have hsta : (u.thread.poll io).record_sta = .stop := by
          rw [AudioRecord.poll, hcmd]
          exact start_busy hphase io
        have hne : audioRecordStartCmd ≠ audioRecordStopCmd := by decide
        have hrun := hlaw.1.2 (by simp only [RecordUsers.poll, hcmd, hne, if_true, if_false]; omega)
        exact absurd (hsta.symm.trans hrun.1) (by decide)
      · simp only [Classical.not_imp, Nat.not_lt] at hframe
        obtain ⟨hcmd, hstream, hwrite, hmany⟩ := hframe
        have hpoll : u.thread.poll io =
            ({ u.thread with audio_record := 0 } : AudioRecord).record io := by
          rw [AudioRecord.poll, hcmd, takeCmd_none]
        cases hb : decide (u.stops < u.starts) with
        | false =>
            rw [hb] at hphase
            cases hphase with
            | idle _ _ _ _ hlog =>
                rw [hlog.framesSince_eq] at hmany
                exact absurd hmany (by decide)
        | true =>
            rw [hb] at hphase
            cases hphase with
            | busy n _ hsta _ hn hno hlog =>
                rw [hlog.framesSince_eq, Option.getD_some] at hmany
                obtain ⟨open?, hsessions⟩ := hlaw.2
                have heq : (u.thread.poll io).log = u.thread.log ++ [.frame 0] := by
                  have hzero : UInt32.ofNat (n + 1) = 0 := by
                    have hlast : n + 1 = 2 ^ 32 := by omega
                    rw [hlast]
                    rfl
                  dsimp only at hsta hno
                  rw [hpoll]
                  simp [AudioRecord.record, AudioRecord.did, hsta, hstream, hwrite, hno, hzero]
                rw [RecordUsers.poll, heq] at hsessions
                exact hsessions.of_frame rfl

/-- In a run of users who stop no more than they start, one command at a time, the law holds
throughout if and only if no start is taken while somebody records and no session gets to
2^32 frames. -/
theorem record_law_iff {es : List RecordEvent} {u : RecordUsers}
    (hrun : es.foldlM RecordUsers.step .init = some u) :
    (∀ pre u, pre <+: es → pre.foldlM RecordUsers.step .init = some u → RecordLaw u) ↔
      ∀ pre e u, pre ++ [e] <+: es → pre.foldlM RecordUsers.step .init = some u → OneUser u e :=
  Run.good_iff_meets OneAtATime.law step_oneAtATime not_law_of_not_oneUser oneAtATime_init hrun

/-- The parameters that the thread begins with, and nothing fails. -/
def talkIo : RecordIo where
  par := { u16EncodeType := 1, u8AudioBits := 16, u8AudioChannels := 1, u8AudioSamples := 0 }
  startWrite := true
  stream := true
  write := true

/-- One user records two frames and stops. -/
theorem record_law_iff_oneUser :
    ∃ u : RecordUsers, [RecordEvent.start, .poll talkIo, .poll talkIo, .stop,
        .poll talkIo].foldlM RecordUsers.step .init = some u ∧
      ((∀ pre u, pre <+: [RecordEvent.start, .poll talkIo, .poll talkIo, .stop, .poll talkIo] →
          pre.foldlM RecordUsers.step .init = some u → RecordLaw u) ↔
        ∀ pre e u, pre ++ [e] <+:
            [RecordEvent.start, .poll talkIo, .poll talkIo, .stop, .poll talkIo] →
          pre.foldlM RecordUsers.step .init = some u → OneUser u e) :=
  ⟨_, rfl, record_law_iff rfl⟩

/-- A second user starts while the first one records. -/
theorem not_record_law : ¬∀ (es : List RecordEvent) (u : RecordUsers),
    es.foldlM RecordUsers.step .init = some u → RecordLaw u := by
  intro hall
  have hlaw := hall [.start, .poll talkIo, .start, .poll talkIo] _ rfl
  exact absurd hlaw.1 (by decide)

end Nvr.Player
