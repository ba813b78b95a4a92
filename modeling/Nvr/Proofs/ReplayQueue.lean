import Nvr.Lib.Run
import Nvr.Player.Stream

/-!
# The bookkeeping of the replay queue

Of the two places of the queue `query_num` are to be free, and the first one is to
be taken just while a handle is open. Most commands leave the queue alone
(`SameQueue`). Each of the others keeps both of these just under a condition on the
state and on what the storage answers (`Sound`); so they hold all along a run exactly
if every step of it meets the condition. While they do, nothing that is queued or
open is older than the last standby command.
-/

namespace Nvr.Player

namespace StreamCtl

variable {s t u : StreamCtl} {r : FileInfo}

/-- The free places of the queue. -/
def emptySlots (s : StreamCtl) : Nat :=
  (if s.replayInfor0.Taken then 0 else 1) + (if s.replayInfor1.Taken then 0 else 1)

/-- The count, the places and the handle go together. -/
structure Kept (s : StreamCtl) : Prop where
  count : s.queryNum.toNat = s.emptySlots
  slot : s.replayInfor0.Taken ↔ s.diskHdl ≠ none

/-- A record that is queued, or that is being read. -/
def Holds (s : StreamCtl) (r : FileInfo) : Prop :=
  s.replayInfor0.Taken ∧ s.replayInfor0 = r ∨ s.replayInfor1.Taken ∧ s.replayInfor1 = r ∨
    s.diskHdl = some r

/-- What a command has to meet that opens a record. -/
def SoundPlay (r : FileInfo) (io : PlayIo) : Prop :=
  io.start = .noAnswer ∨ io.start = .ok ∧ (r.setTime = 0 ∨ io.setOk = true)

/-- What reading from the disk has to meet, when a handle is open. -/
def SoundPass (s : StreamCtl) : DiskPass → Prop
  | .noBuffer | .frame => True
  | .notPassed => False
  | .ended io => s.replayInfor1.Taken → io.start ≠ .noAnswer

/-- What a pass of the thread has to meet. -/
def Sound (s : StreamCtl) : StreamCmd → Prop
  | .standby => s.diskHdl ≠ none → s.strThrSta ≠ .standby ∧ s.getStreamMode = .fromDisk
  | .chooseFile infor updateNow io =>
      updateNow = true ∨ ¬ s.replayInfor0.Taken →
        SoundPlay (if updateNow = true ∨ ¬ s.replayInfor1.Taken then infor.1 else s.replayInfor1) io
  | .singleFrame _ pass => s.strThrSta = .pause → s.diskHdl ≠ none → s.SoundPass pass
  | .noMessage disk net _ =>
      s.strThrSta = .workOn → s.diskHdl ≠ none →
        if s.getStreamMode = .fromDisk then s.SoundPass disk else net ≠ .notPassed
  | _ => True

/-! ## What leaves the queue alone -/

/-- The queue and the handle are the same. -/
structure SameQueue (s t : StreamCtl) : Prop where
  infor0 : t.replayInfor0 = s.replayInfor0
  infor1 : t.replayInfor1 = s.replayInfor1
  queryNum : t.queryNum = s.queryNum
  diskHdl : t.diskHdl = s.diskHdl

theorem SameQueue.refl (s : StreamCtl) : SameQueue s s := ⟨rfl, rfl, rfl, rfl⟩

theorem SameQueue.trans (h : SameQueue s t) (h' : SameQueue t u) : SameQueue s u :=
  ⟨h'.infor0.trans h.infor0, h'.infor1.trans h.infor1, h'.queryNum.trans h.queryNum,
    h'.diskHdl.trans h.diskHdl⟩

theorem SameQueue.kept_iff (h : SameQueue s t) : Kept t ↔ Kept s := by
  have hempty : t.emptySlots = s.emptySlots := by
    rw [emptySlots, emptySlots, h.infor0, h.infor1]
  constructor
  · intro hk
    refine ⟨?_, ?_⟩
    · rw [← h.queryNum, ← hempty, hk.count]
    · rw [← h.infor0, ← h.diskHdl]
      exact hk.slot
  · intro hk
    refine ⟨?_, ?_⟩
    · rw [h.queryNum, hempty, hk.count]
    · rw [h.infor0, h.diskHdl]
      exact hk.slot

theorem SameQueue.holds_iff (h : SameQueue s t) : t.Holds r ↔ s.Holds r := by
  rw [Holds, Holds, h.infor0, h.infor1, h.diskHdl]

theorem sameQueue_staChange {sta : StreamSta} (h : sta ≠ .standby) :
    SameQueue s (s.staChange sta) := by
  cases sta with
  | standby => exact absurd rfl h
  | workOn | connectRepeat | pause => exact ⟨rfl, rfl, rfl, rfl⟩

theorem sameQueue_repeatConnect : SameQueue s s.repeatConnect := by
  unfold repeatConnect
  split
  · exact sameQueue_staChange (by decide)
  · exact .refl s

theorem sameQueue_replayDiscardCheck : SameQueue s s.replayDiscardCheck := by
  unfold replayDiscardCheck
  split
  · exact ⟨rfl, rfl, rfl, rfl⟩
  · exact .refl s

theorem sameQueue_startRecord (started : Bool) : SameQueue s { s with startRecord := started } :=
  ⟨rfl, rfl, rfl, rfl⟩

theorem sameQueue_videoContinue {cmd : Storage.StorageReadCmd} (h : s.videoContinue cmd = some t) :
    SameQueue s t ∧ s.diskHdl ≠ none := by
  unfold videoContinue at h
  split at h
  · cases h
  · rename_i hopen
    split at h
    · obtain rfl := Option.some.inj h
      exact ⟨⟨rfl, rfl, rfl, rfl⟩, hopen⟩
    · obtain rfl := Option.some.inj h
      exact ⟨.refl s, hopen⟩

theorem videoContinue_eq_none {cmd : Storage.StorageReadCmd} (h : s.videoContinue cmd = none) :
    s.diskHdl = none := by
  by_contra hopen
  rw [videoContinue, if_neg hopen] at h
  split at h <;> cases h

theorem SameQueue.soundPass_iff {pass : DiskPass} (h : SameQueue s t) :
    t.SoundPass pass ↔ s.SoundPass pass := by
  cases pass with
  | ended io =>
      show (_ → _) ↔ (_ → _)
      rw [h.infor1]
  | noBuffer | frame | notPassed => rfl

theorem sameQueue_pause (on : Bool) : SameQueue s (s.pause on) := by
  unfold pause
  split
  · exact .refl s
  · split
    · exact sameQueue_staChange (by decide)
    · split
      · rename_i hcontinue
        exact (sameQueue_videoContinue hcontinue).1.trans (sameQueue_staChange (by decide))
      · exact sameQueue_staChange (by decide)

theorem sameQueue_setRate (rate : Nat) : SameQueue s (s.setRate rate) := by
  have hread : ∀ {u : StreamCtl} {cmd : Storage.StorageReadCmd}, SameQueue s u →
      SameQueue s { u with readCmd := cmd } := fun h => ⟨h.1, h.2, h.3, h.4⟩
  unfold setRate
  simp only
  split
  · exact .refl s
  · refine hread ?_
    cases hcontinue : s.videoContinue (readCmdOfRate rate s.readCmd) with
    | none => exact sameQueue_repeatConnect
    | some u => exact (sameQueue_videoContinue hcontinue).1

theorem sameQueue_workOnAlready (record : StreamMode) (connected : Bool) :
    SameQueue s (s.workOnAlready record connected) := by
  have hsta : ∀ {u : StreamCtl} {b : Bool}, SameQueue s u →
      SameQueue s (u.staChange (if b = true then .workOn else .connectRepeat)) := by
    intro u b h
    refine h.trans (sameQueue_staChange ?_)
    cases b <;> decide
  unfold workOnAlready
  split
  · exact .refl s
  · cases record with
    | fromDisk => exact hsta ⟨rfl, rfl, rfl, rfl⟩
    | null | fromNet => exact hsta ⟨rfl, rfl, rfl, rfl⟩

/-! ## What changes it -/

@[simp] theorem not_taken_clear (f : FileInfo) : ¬ f.clear.Taken := fun h => h rfl

theorem ChosenFile.taken (f : ChosenFile) : f.1.Taken := by
  intro hchn
  have hle := f.2
  rw [hchn] at hle
  exact absurd hle (by decide)

/-- Nothing is left of the queue, and the handle is as it was. -/
theorem kept_staChange_standby : Kept (s.staChange .standby) ↔ s.diskHdl = none := by
  have hfree0 : ¬ (s.staChange .standby).replayInfor0.Taken := not_taken_clear _
  have hfree1 : ¬ (s.staChange .standby).replayInfor1.Taken := not_taken_clear _
  constructor
  · intro h
    exact not_not.1 fun hopen => hfree0 (h.slot.2 hopen)
  · intro hclosed
    refine ⟨?_, iff_of_false hfree0 fun hopen => hopen hclosed⟩
    rw [emptySlots, if_neg hfree0, if_neg hfree1]
    rfl

theorem kept_standby : Kept s.standby ↔ s.Sound .standby := by
  unfold standby
  rw [kept_staChange_standby]
  split
  · rename_i hdisk
    exact iff_of_true rfl fun _ => hdisk
  · rename_i hdisk
    exact ⟨fun hclosed hopen => absurd hclosed hopen, fun hsound =>
      not_not.1 fun hopen => hdisk (hsound hopen)⟩

/-- The record in the first place is played: what is left when it is, and when it is not. -/
theorem replayFilePlay_eq (update : Bool) (io : PlayIo) :
    (s.replayFilePlay update io).1.replayInfor0 = s.replayInfor0 ∧
      (s.replayFilePlay update io).1.replayInfor1 = s.replayInfor1 ∧
      (s.replayFilePlay update io).1.queryNum = s.queryNum ∧
      ((s.replayFilePlay update io).1.diskHdl = none ↔
        io.start = .noAnswer ∧ (update = true ∨ s.diskHdl = none)) ∧
      ((s.replayFilePlay update io).2 = true ↔
        io.start = .ok ∧ (s.replayInfor0.setTime = 0 ∨ io.setOk = true)) := by
  obtain ⟨start, setOk⟩ := io
  cases update with
  | false => cases start <;> simp [replayFilePlay]
  | true => cases start <;> simp [replayFilePlay, stopReplayVideo]

/-- A queue with one record in it, which is in the first place. -/
structure OnePlace (s : StreamCtl) : Prop where
  taken : s.replayInfor0.Taken
  free : ¬ s.replayInfor1.Taken
  count : s.queryNum = 1

theorem OnePlace.kept_iff (h : OnePlace s) : Kept s ↔ s.diskHdl ≠ none := by
  refine ⟨fun hk => hk.slot.1 h.taken, fun hopen => ⟨?_, iff_of_true h.taken hopen⟩⟩
  rw [emptySlots, if_pos h.taken, if_neg h.free, h.count]
  rfl

theorem OnePlace.replayFileEnd_kept_iff (h : OnePlace s) :
    Kept s.replayFileEnd ↔ s.diskHdl = none := by
  have hfree : ¬ s.replayFileEnd.replayInfor0.Taken := not_taken_clear _
  constructor
  · intro hk
    exact not_not.1 fun hopen => hfree (hk.slot.2 hopen)
  · intro hclosed
    refine ⟨?_, iff_of_false hfree fun hopen => hopen hclosed⟩
    have hfree1 : ¬ s.replayFileEnd.replayInfor1.Taken := h.free
    rw [emptySlots, if_neg hfree, if_neg hfree1]
    show (s.queryNum + 1).toNat = 2
    rw [h.count]
    rfl

theorem OnePlace.replayFilePlay (h : OnePlace s) (update : Bool) (io : PlayIo) :
    OnePlace (s.replayFilePlay update io).1 := by
  obtain ⟨h0, h1, hq, -⟩ := replayFilePlay_eq (s := s) update io
  exact ⟨h0 ▸ h.taken, h1 ▸ h.free, hq.trans h.count⟩

/-- What a queue holds whose places and count agree. -/
theorem Kept.queryNum (h : Kept s) : s.queryNum = UInt8.ofNat s.emptySlots := by
  rw [← h.count]
  exact (UInt8.ofNat_toNat).symm

/-- The end of a record: the next one moves up, and is opened. -/
theorem Kept.diskOver {io : PlayIo} (h : Kept s) (hopen : s.diskHdl ≠ none) :
    Kept (s.diskOver io).1 ↔ s.SoundPass (.ended io) := by
  have htaken : s.replayInfor0.Taken := h.slot.2 hopen
  have hsame := sameQueue_replayDiscardCheck (s := s.replayFileEnd.stopReplayVideo)
  obtain ⟨rest, hrest⟩ : ∃ rest, rest = s.replayFileEnd.stopReplayVideo.replayDiscardCheck :=
    ⟨_, rfl⟩
  rw [← hrest] at hsame
  have hfree0 : ¬ rest.replayInfor0.Taken := by
    rw [hsame.infor0]
    exact not_taken_clear _
  have hinfor1 : rest.replayInfor1 = s.replayInfor1 := hsame.infor1
  have hcount : rest.queryNum = s.queryNum + 1 := hsame.queryNum
  have hclosed : rest.diskHdl = none := hsame.diskHdl
  simp only [StreamCtl.diskOver, ← hrest]
  by_cases hnext : s.replayInfor1.Taken
  · have hring : rest.replayFileRing false = some { rest with
        replayInfor0 := rest.replayInfor1
        replayInfor1 := rest.replayInfor1.clear } :=
      if_pos ⟨hinfor1 ▸ hnext, .inr hfree0⟩
    obtain ⟨moved, hmoved⟩ : ∃ moved : StreamCtl, moved = { rest with
        replayInfor0 := rest.replayInfor1
        replayInfor1 := rest.replayInfor1.clear } := ⟨_, rfl⟩
    have hone : OnePlace moved := by
      subst hmoved
      refine ⟨?_, not_taken_clear _, ?_⟩
      · show rest.replayInfor1.Taken
        rwa [hinfor1]
      · show rest.queryNum = 1
        rw [hcount, h.queryNum, emptySlots, if_pos htaken, if_pos hnext]
        rfl
    have hmovedClosed : moved.diskHdl = none := by
      rw [hmoved]
      exact hclosed
    have hplayed := hone.replayFilePlay false io
    have hkept : Kept (if (moved.replayFilePlay false io).2 = true then
        ((moved.replayFilePlay false io).1, true)
        else ((moved.replayFilePlay false io).1.repeatConnect, false)).1 ↔
          Kept (moved.replayFilePlay false io).1 := by
      split
      · rfl
      · exact sameQueue_repeatConnect.kept_iff
    rw [hring, ← hmoved]
    simp only
    rw [hkept, hplayed.kept_iff]
    obtain ⟨-, -, -, hhdl, -⟩ := replayFilePlay_eq (s := moved) false io
    rw [Ne, hhdl]
    constructor
    · rintro hnot - hanswer
      exact hnot ⟨hanswer, .inr hmovedClosed⟩
    · rintro hsound ⟨hanswer, -⟩
      exact hsound hnext hanswer
  · have hring : rest.replayFileRing false = none := if_neg fun hbad => hnext (hinfor1 ▸ hbad.1)
    rw [hring]
    refine iff_of_true (sameQueue_repeatConnect.kept_iff.2 ⟨?_, ?_⟩) fun hbad => absurd hbad hnext
    · rw [emptySlots, if_neg hfree0, hinfor1, if_neg hnext, hcount, h.queryNum, emptySlots,
        if_pos htaken, if_neg hnext]
      rfl
    · exact iff_of_false hfree0 fun hbad => hbad hclosed

/-- A pass over the disk. Without a handle there is one only if no buffer is empty. -/
theorem Kept.proDiskAvdata {pass : DiskPass} {done : StreamCtl × Bool} (h : Kept s)
    (hpass : s.proDiskAvdata pass = some done) :
    Kept done.1 ↔ (s.diskHdl ≠ none → s.SoundPass pass) := by
  have hopen : pass ≠ .noBuffer → s.diskHdl ≠ none := by
    intro hread hclosed
    cases pass with
    | noBuffer => exact hread rfl
    | frame | notPassed | ended =>
        rw [StreamCtl.proDiskAvdata, hclosed] at hpass
        cases hpass
  cases pass with
  | noBuffer =>
      obtain rfl := Option.some.inj hpass
      exact iff_of_true h fun _ => trivial
  | frame =>
      obtain ⟨_, -, rfl⟩ := Option.map_eq_some_iff.1 hpass
      exact iff_of_true h fun _ => trivial
  | notPassed =>
      obtain ⟨_, -, rfl⟩ := Option.map_eq_some_iff.1 hpass
      have hhdl := hopen nofun
      rw [kept_staChange_standby]
      exact iff_of_false hhdl fun hs => hs hhdl
  | ended io =>
      obtain ⟨_, -, rfl⟩ := Option.map_eq_some_iff.1 hpass
      have hhdl := hopen nofun
      exact (h.diskOver hhdl).trans ⟨fun hs _ => hs, fun hs => hs hhdl⟩

/-! ## Choosing a record -/

section Choose

variable (s : StreamCtl) (infor : ChosenFile) (updateNow : Bool)

/-- The record that is in the second place once another one is chosen. -/
def nextInfor : FileInfo :=
  if updateNow = true ∨ ¬ s.replayInfor1.Taken then infor.1 else s.replayInfor1

theorem nextInfor_taken : (nextInfor s infor updateNow).Taken := by
  unfold nextInfor
  split
  · exact ChosenFile.taken infor
  · rename_i hkept
    exact not_not.1 (not_or.1 hkept).2

/-- The state in which `stream_replay_file_ring` is called. -/
def saved : StreamCtl := (s.saveReplayFile infor.1 updateNow).replayDiscardCheck

theorem saved_eq :
    (saved s infor updateNow).replayInfor0 = s.replayInfor0 ∧
      (saved s infor updateNow).replayInfor1 = nextInfor s infor updateNow ∧
      (saved s infor updateNow).diskHdl = s.diskHdl ∧
      (saved s infor updateNow).queryNum =
        if updateNow = true then 1 else if s.replayInfor1.Taken then s.queryNum
          else s.queryNum - 1 := by
  have hsame := sameQueue_replayDiscardCheck (s := s.saveReplayFile infor.1 updateNow)
  rw [saved, hsame.infor0, hsame.infor1, hsame.diskHdl, hsame.queryNum]
  cases updateNow with
  | true => simp [saveReplayFile, nextInfor, queryBufNum]
  | false => by_cases hnext : s.replayInfor1.Taken <;> simp [saveReplayFile, nextInfor, hnext]

variable {s}

/-- The record in the second place moves up just if it is to be played at once or the first
place is free. -/
theorem saved_ring :
    (saved s infor updateNow).replayFileRing updateNow =
      if updateNow = true ∨ ¬ s.replayInfor0.Taken then
        some { saved s infor updateNow with
          replayInfor0 := nextInfor s infor updateNow
          replayInfor1 := (nextInfor s infor updateNow).clear }
      else none := by
  obtain ⟨h0, h1, -⟩ := saved_eq s infor updateNow
  have htaken := nextInfor_taken s infor updateNow
  unfold replayFileRing
  rw [h0, h1]
  by_cases hmoves : updateNow = true ∨ ¬ s.replayInfor0.Taken
  · rw [if_pos ⟨htaken, hmoves⟩, if_pos hmoves]
  · rw [if_neg fun hbad => hmoves hbad.2, if_neg hmoves]

/-- With the record moved up there is one record in the queue. -/
theorem Kept.onePlace_moved (h : Kept s) (hmoves : updateNow = true ∨ ¬ s.replayInfor0.Taken) :
    OnePlace { saved s infor updateNow with
      replayInfor0 := nextInfor s infor updateNow
      replayInfor1 := (nextInfor s infor updateNow).clear } := by
  obtain ⟨-, -, -, hq⟩ := saved_eq s infor updateNow
  refine ⟨nextInfor_taken s infor updateNow, not_taken_clear _, hq.trans ?_⟩
  by_cases hupdate : updateNow = true
  · exact if_pos hupdate
  · have hfree : ¬ s.replayInfor0.Taken := hmoves.resolve_left hupdate
    rw [if_neg hupdate, h.queryNum, emptySlots, if_neg hfree]
    by_cases hnext : s.replayInfor1.Taken
    · rw [if_pos hnext, if_pos hnext]
      rfl
    · rw [if_neg hnext, if_neg hnext]
      rfl

theorem chooseFile_eq (io : PlayIo) :
    s.chooseFile infor.1 updateNow io =
      ((saved s infor updateNow).replayFileRing updateNow).elim (saved s infor updateNow)
        fun hdl => hdl.playChosen updateNow io := by
  unfold StreamCtl.chooseFile saved
  simp only
  generalize (s.saveReplayFile infor.1 updateNow).replayDiscardCheck.replayFileRing updateNow =
    moved
  cases moved <;> rfl

/-- The record that has moved up is played, or given up; a handle that was opened for it stays
in both cases. -/
theorem OnePlace.playChosen (h : OnePlace s) (hclosed : updateNow = true ∨ s.diskHdl = none)
    (io : PlayIo) : Kept (s.playChosen updateNow io) ↔ SoundPlay s.replayInfor0 io := by
  have hplayed := h.replayFilePlay updateNow io
  obtain ⟨-, -, -, hopen, hok⟩ := replayFilePlay_eq (s := s) updateNow io
  simp only [StreamCtl.playChosen]
  split
  · rename_i hplays
    have hanswer : (s.replayFilePlay updateNow io).1.diskHdl ≠ none := by
      intro hbad
      have hstart := (hok.1 hplays).1
      rw [(hopen.1 hbad).1] at hstart
      cases hstart
    have hkept := (sameQueue_startRecord true).kept_iff.2 (hplayed.kept_iff.2 hanswer)
    refine iff_of_true ?_ (.inr (hok.1 hplays))
    split
    · exact (sameQueue_staChange (by decide)).kept_iff.2 hkept
    · exact hkept
  · rename_i hfails
    rw [sameQueue_repeatConnect.kept_iff, (sameQueue_startRecord false).kept_iff,
      hplayed.replayFileEnd_kept_iff, hopen]
    constructor
    · rintro ⟨hanswer, -⟩
      exact .inl hanswer
    · rintro (hanswer | hplays)
      · exact ⟨hanswer, hclosed⟩
      · exact absurd (hok.2 hplays) hfails

theorem Kept.chooseFile (h : Kept s) (io : PlayIo) :
    Kept (s.chooseFile infor.1 updateNow io) ↔ s.Sound (.chooseFile infor updateNow io) := by
  obtain ⟨h0, h1, hhdl, hq⟩ := saved_eq s infor updateNow
  rw [chooseFile_eq, saved_ring]
  by_cases hmoves : updateNow = true ∨ ¬ s.replayInfor0.Taken
  · rw [if_pos hmoves]
    have hclosed : updateNow = true ∨ (saved s infor updateNow).diskHdl = none :=
      hmoves.imp_right fun hfree => hhdl.trans (not_not.1 fun hbad => hfree (h.slot.2 hbad))
    refine ((h.onePlace_moved infor updateNow hmoves).playChosen updateNow hclosed io).trans ?_
    exact ⟨fun hs _ => hs, fun hs => hs hmoves⟩
  · rw [if_neg hmoves, Option.elim_none]
    obtain ⟨hupdate, htaken⟩ := not_or.1 hmoves
    have htaken : s.replayInfor0.Taken := not_not.1 htaken
    refine iff_of_true ⟨?_, ?_⟩ fun hbad => absurd hbad hmoves
    · rw [emptySlots, h0, h1, if_pos htaken, if_pos (nextInfor_taken s infor updateNow), hq,
        if_neg hupdate, h.queryNum, emptySlots, if_pos htaken]
      by_cases hnext : s.replayInfor1.Taken
      · rw [if_pos hnext, if_pos hnext]
        rfl
      · rw [if_neg hnext, if_neg hnext]
        rfl
    · rw [h0, hhdl]
      exact h.slot

end Choose

/-! ## A pass of the thread -/

/-- One pass keeps the queue in order just under its condition. -/
theorem Kept.step {cmd : StreamCmd} (h : Kept s) (hstep : s.step cmd = some t) :
    Kept t ↔ s.Sound cmd := by
  have hsame : ∀ {u : StreamCtl}, some u = some t → SameQueue s u → (Kept t ↔ True) := by
    rintro u hu hsame
    obtain rfl := Option.some.inj hu
    exact iff_of_true (hsame.kept_iff.2 h) trivial
  unfold StreamCtl.step at hstep
  split at hstep
  · cases hstep
  cases cmd with
  | standby =>
      obtain rfl := Option.some.inj hstep
      exact kept_standby
  | pause on => exact hsame hstep (sameQueue_pause on)
  | setRate rate => exact hsame hstep (sameQueue_setRate rate)
  | workOnAlready record connected => exact hsame hstep (sameQueue_workOnAlready record connected)
  | exit => exact hsame hstep ⟨rfl, rfl, rfl, rfl⟩
  | queryPlayTime | connect | standbyAlready | waitCmdAlready | setAudio =>
      exact hsame hstep (.refl s)
  | chooseFile infor updateNow io =>
      obtain rfl := Option.some.inj hstep
      exact h.chooseFile infor updateNow io
  | singleFrame down pass =>
      simp only [singleFrame] at hstep
      split at hstep
      · rename_i hpause
        exact (hsame hstep (.refl s)).trans (iff_of_true trivial fun hbad => absurd hbad hpause)
      · rename_i hpause
        split at hstep
        · rename_i hcontinue
          exact (hsame hstep (sameQueue_staChange (by decide))).trans
            (iff_of_true trivial fun _ hopen => absurd (videoContinue_eq_none hcontinue) hopen)
        · rename_i u hcontinue
          obtain ⟨hu, -⟩ := sameQueue_videoContinue hcontinue
          obtain ⟨done, hdone, rfl⟩ := Option.map_eq_some_iff.1 hstep
          obtain ⟨v, hv⟩ : ∃ v : StreamCtl, v = { u with
              readCmd := if down = true then .forwardVideoFrame else .back1Iframe } := ⟨_, rfl⟩
          have hread : SameQueue s v := by
            subst hv
            exact ⟨hu.infor0, hu.infor1, hu.queryNum, hu.diskHdl⟩
          rw [← hv] at hdone
          have hlast : Kept (if done.2 = true then done.1 else done.1.staChange .pause) ↔
              Kept done.1 := by
            split
            · rfl
            · exact (sameQueue_staChange (by decide)).kept_iff
          rw [hlast, (hread.kept_iff.2 h).proDiskAvdata hdone, hread.soundPass_iff, hread.diskHdl]
          exact ⟨fun hs _ => hs, fun hs => hs (not_not.1 hpause)⟩
  | noMessage disk net connected =>
      simp only [noMessage] at hstep
      split at hstep
      · rename_i hwork
        split at hstep
        · rename_i hmode
          obtain ⟨done, hdone, rfl⟩ := Option.map_eq_some_iff.1 hstep
          rw [h.proDiskAvdata hdone]
          simp only [Sound, if_pos hmode]
          exact ⟨fun hs _ => hs, fun hs => hs hwork⟩
        · rename_i hmode
          have hnet : s.Sound (.noMessage disk net connected) ↔
              (s.diskHdl ≠ none → net ≠ .notPassed) := by
            simp only [Sound, if_neg hmode]
            exact ⟨fun hs => hs hwork, fun hs _ => hs⟩
          rw [hnet]
          cases net with
          | notPassed =>
              obtain rfl := Option.some.inj hstep
              show Kept (s.staChange .standby) ↔ _
              rw [kept_staChange_standby]
              exact ⟨fun hclosed hopen => absurd hclosed hopen,
                fun hs => not_not.1 fun hopen => hs hopen rfl⟩
          | done => exact (hsame hstep (.refl s)).trans (iff_of_true trivial fun _ => nofun)
          | noStream =>
              exact (hsame hstep (@sameQueue_staChange s .connectRepeat (by decide))).trans
                (iff_of_true trivial fun _ => nofun)
      · rename_i hsta
        have hsound : s.Sound (.noMessage disk net connected) := fun hbad => by
          rw [hsta] at hbad
          cases hbad
        split at hstep
        · exact (hsame hstep (@sameQueue_staChange s .workOn (by decide))).trans
            (iff_of_true trivial hsound)
        · exact (hsame hstep (.refl s)).trans (iff_of_true trivial hsound)
      all_goals
        rename_i hsta
        refine (hsame hstep (.refl s)).trans (iff_of_true trivial fun hbad => ?_)
        rw [hsta] at hbad
        cases hbad

/-! ## What is held -/

/-- Nothing is held that was not held before. -/
def HoldsLess (s t : StreamCtl) : Prop := ∀ r, t.Holds r → s.Holds r

theorem HoldsLess.trans (h : HoldsLess s t) (h' : HoldsLess t u) : HoldsLess s u :=
  fun r hr => h r (h' r hr)

theorem SameQueue.holdsLess (h : SameQueue s t) : HoldsLess s t := fun _ => h.holds_iff.1

theorem holdsLess_staChange (s : StreamCtl) (sta : StreamSta) : HoldsLess s (s.staChange sta) := by
  by_cases hsta : sta = .standby
  · subst hsta
    rintro r (⟨htaken, -⟩ | ⟨htaken, -⟩ | hopen)
    · exact absurd htaken (not_taken_clear _)
    · exact absurd htaken (not_taken_clear _)
    · exact .inr (.inr hopen)
  · exact (sameQueue_staChange hsta).holdsLess

theorem holdsLess_stopReplayVideo (s : StreamCtl) : HoldsLess s s.stopReplayVideo := by
  rintro r (h0 | h1 | hopen)
  · exact .inl h0
  · exact .inr (.inl h1)
  · cases hopen

theorem holdsLess_replayFileEnd (s : StreamCtl) : HoldsLess s s.replayFileEnd := by
  rintro r (⟨htaken, -⟩ | h1 | hopen)
  · exact absurd htaken (not_taken_clear _)
  · exact .inr (.inl h1)
  · exact .inr (.inr hopen)

theorem holdsLess_replayFileRing {update : Bool} (h : s.replayFileRing update = some t) :
    HoldsLess s t ∧ t.replayInfor0.Taken := by
  unfold replayFileRing at h
  split at h
  · rename_i hmoves
    obtain rfl := Option.some.inj h
    refine ⟨?_, hmoves.1⟩
    rintro r (h0 | ⟨htaken, -⟩ | hopen)
    · exact .inr (.inl h0)
    · exact absurd htaken (not_taken_clear _)
    · exact .inr (.inr hopen)
  · cases h

theorem holdsLess_replayFilePlay (h : s.replayInfor0.Taken) (update : Bool) (io : PlayIo) :
    HoldsLess s (s.replayFilePlay update io).1 := by
  obtain ⟨start, setOk⟩ := io
  rintro r (h0 | h1 | hopen)
  · refine .inl ?_
    cases update <;> cases start <;> exact h0
  · refine .inr (.inl ?_)
    cases update <;> cases start <;> exact h1
  · cases start with
    | noAnswer =>
        cases update with
        | true => cases hopen
        | false => exact .inr (.inr hopen)
    | ok | refused => cases update <;> exact .inl ⟨h, Option.some.inj hopen⟩

theorem holdsLess_diskOver (io : PlayIo) : HoldsLess s (s.diskOver io).1 := by
  have hrest : HoldsLess s s.replayFileEnd.stopReplayVideo.replayDiscardCheck :=
    ((holdsLess_replayFileEnd s).trans (holdsLess_stopReplayVideo _)).trans
      sameQueue_replayDiscardCheck.holdsLess
  simp only [StreamCtl.diskOver]
  split
  · exact hrest.trans sameQueue_repeatConnect.holdsLess
  · rename_i hring
    obtain ⟨hmoved, htaken⟩ := holdsLess_replayFileRing hring
    have hplayed := (hrest.trans hmoved).trans (holdsLess_replayFilePlay htaken false io)
    split
    · exact hplayed
    · exact hplayed.trans sameQueue_repeatConnect.holdsLess

theorem holdsLess_proDiskAvdata {pass : DiskPass} {done : StreamCtl × Bool}
    (h : s.proDiskAvdata pass = some done) : HoldsLess s done.1 := by
  cases pass with
  | noBuffer =>
      obtain rfl := Option.some.inj h
      exact (SameQueue.refl s).holdsLess
  | frame =>
      obtain ⟨_, -, rfl⟩ := Option.map_eq_some_iff.1 h
      exact (SameQueue.refl s).holdsLess
  | notPassed =>
      obtain ⟨_, -, rfl⟩ := Option.map_eq_some_iff.1 h
      exact holdsLess_staChange s .standby
  | ended io =>
      obtain ⟨_, -, rfl⟩ := Option.map_eq_some_iff.1 h
      exact holdsLess_diskOver io

theorem holds_saveReplayFile {infor : FileInfo} {playNow : Bool}
    (h : (s.saveReplayFile infor playNow).Holds r) : s.Holds r ∨ infor = r := by
  unfold saveReplayFile at h
  split at h
  · have hplaces : s.replayInfor0.Taken ∧ s.replayInfor0 = r ∨ infor.Taken ∧ infor = r ∨
        s.diskHdl = some r := by
      cases playNow <;> exact h
    obtain h0 | ⟨-, hinfor⟩ | hopen := hplaces
    · exact .inl (.inl h0)
    · exact .inr hinfor
    · exact .inl (.inr (.inr hopen))
  · exact .inl h

theorem holdsLess_playChosen (h : s.replayInfor0.Taken) (updateNow : Bool) (io : PlayIo) :
    HoldsLess s (s.playChosen updateNow io) := by
  have hplayed := holdsLess_replayFilePlay h updateNow io
  simp only [StreamCtl.playChosen]
  split
  · have hstarted := hplayed.trans (sameQueue_startRecord true).holdsLess
    split
    · exact hstarted.trans (holdsLess_staChange _ .workOn)
    · exact hstarted
  · have hended := hplayed.trans (holdsLess_replayFileEnd _)
    exact (hended.trans (sameQueue_startRecord false).holdsLess).trans
      sameQueue_repeatConnect.holdsLess

/-- Only the record that is chosen is added to what is held. -/
theorem holds_chooseFile {infor : ChosenFile} {updateNow : Bool} {io : PlayIo}
    (h : (s.chooseFile infor.1 updateNow io).Holds r) : s.Holds r ∨ infor.1 = r := by
  have hsaved : HoldsLess (s.saveReplayFile infor.1 updateNow) (saved s infor updateNow) :=
    sameQueue_replayDiscardCheck.holdsLess
  refine holds_saveReplayFile (hsaved r ?_)
  rw [chooseFile_eq] at h
  cases hring : (saved s infor updateNow).replayFileRing updateNow with
  | none =>
      rw [hring] at h
      exact h
  | some moved =>
      rw [hring] at h
      obtain ⟨hmoved, htaken⟩ := holdsLess_replayFileRing hring
      exact hmoved r (holdsLess_playChosen htaken updateNow io r h)

theorem holds_step {cmd : StreamCmd} (hstep : s.step cmd = some t) (h : t.Holds r) :
    s.Holds r ∨ ∃ infor updateNow io, cmd = .chooseFile infor updateNow io ∧ infor.1 = r := by
  have hsome : ∀ {u : StreamCtl}, some u = some t → HoldsLess s u → s.Holds r := by
    rintro u hu hless
    obtain rfl := Option.some.inj hu
    exact hless r h
  unfold StreamCtl.step at hstep
  split at hstep
  · cases hstep
  cases cmd with
  | chooseFile infor updateNow io =>
      obtain rfl := Option.some.inj hstep
      exact (holds_chooseFile h).imp_right fun hinfor => ⟨infor, updateNow, io, rfl, hinfor⟩
  | standby =>
      left
      refine hsome hstep ?_
      unfold standby
      split
      · exact (holdsLess_stopReplayVideo s).trans (holdsLess_staChange _ _)
      · exact holdsLess_staChange _ _
  | pause on => exact .inl (hsome hstep (sameQueue_pause on).holdsLess)
  | setRate rate => exact .inl (hsome hstep (sameQueue_setRate rate).holdsLess)
  | workOnAlready record connected =>
      exact .inl (hsome hstep (sameQueue_workOnAlready record connected).holdsLess)
  | exit => exact .inl (hsome hstep (SameQueue.holdsLess ⟨rfl, rfl, rfl, rfl⟩))
  | queryPlayTime | connect | standbyAlready | waitCmdAlready | setAudio =>
      exact .inl (hsome hstep (SameQueue.refl s).holdsLess)
  | singleFrame down pass =>
      left
      simp only [singleFrame] at hstep
      split at hstep
      · exact hsome hstep (SameQueue.refl s).holdsLess
      · split at hstep
        · exact hsome hstep (holdsLess_staChange s .pause)
        · rename_i u hcontinue
          obtain ⟨hu, -⟩ := sameQueue_videoContinue hcontinue
          obtain ⟨done, hdone, rfl⟩ := Option.map_eq_some_iff.1 hstep
          have hread := holdsLess_proDiskAvdata hdone
          refine hu.holdsLess r (hread r ?_)
          split at h
          · exact h
          · exact holdsLess_staChange _ _ r h
  | noMessage disk net connected =>
      left
      simp only [noMessage] at hstep
      split at hstep
      · split at hstep
        · obtain ⟨done, hdone, rfl⟩ := Option.map_eq_some_iff.1 hstep
          exact holdsLess_proDiskAvdata hdone r h
        · refine hsome hstep ?_
          cases net with
          | done => exact (SameQueue.refl s).holdsLess
          | notPassed => exact holdsLess_staChange s .standby
          | noStream => exact holdsLess_staChange s .connectRepeat
      · split at hstep
        · exact hsome hstep (holdsLess_staChange s .workOn)
        · exact hsome hstep (SameQueue.refl s).holdsLess
      all_goals exact hsome hstep (SameQueue.refl s).holdsLess

end StreamCtl

/-! ## Runs -/

open StreamCtl

/-- One pass of a stream thread. -/
def StreamStep (s : StreamCtl) (cmd : StreamCmd) (t : StreamCtl) : Prop := s.step cmd = some t

/-- The record was chosen after the last standby command. -/
def ChosenSince (cmds : List StreamCmd) (r : FileInfo) : Prop :=
  ∃ pre infor updateNow io post, cmds = pre ++ .chooseFile infor updateNow io :: post ∧
    infor.1 = r ∧ .standby ∉ post

/-- What is to hold whenever the thread waits for a command. -/
structure QueueLaw (cmds : List StreamCmd) (s : StreamCtl) : Prop where
  count : s.queryNum.toNat = s.emptySlots
  slot : s.replayInfor0.Taken ↔ s.diskHdl ≠ none
  session : ∀ r, s.Holds r → ChosenSince cmds r

section Runs

variable {infor0 infor1 : FileInfo} {readCmd : Storage.StorageReadCmd} {cmds : List StreamCmd}

theorem ChosenSince.concat {r : FileInfo} {cmd : StreamCmd} (h : ChosenSince cmds r)
    (hcmd : cmd ≠ .standby) : ChosenSince (cmds ++ [cmd]) r := by
  obtain ⟨pre, infor, updateNow, io, post, rfl, hinfor, hpost⟩ := h
  refine ⟨pre, infor, updateNow, io, post ++ [cmd], ?_, hinfor, fun hmem => ?_⟩
  · rw [List.append_assoc, List.cons_append]
  · obtain hmem | hmem := List.mem_append.1 hmem
    · exact hpost hmem
    · exact hcmd (List.mem_singleton.1 hmem).symm

theorem not_holds_of_free {s : StreamCtl} {r : FileInfo} (h : StreamCtl.Kept s)
    (h0 : ¬ s.replayInfor0.Taken) (h1 : ¬ s.replayInfor1.Taken) : ¬ s.Holds r := by
  rintro (⟨htaken, -⟩ | ⟨htaken, -⟩ | hopen)
  · exact h0 htaken
  · exact h1 htaken
  · exact h0 (h.slot.2 fun hclosed => by
      rw [hclosed] at hopen
      cases hopen)

theorem QueueLaw.concat {s t : StreamCtl} {cmd : StreamCmd} (h : QueueLaw cmds s)
    (hstep : StreamStep s cmd t) (hsound : s.Sound cmd) : QueueLaw (cmds ++ [cmd]) t := by
  have hkept : StreamCtl.Kept t := ((StreamCtl.Kept.mk h.count h.slot).step hstep).2 hsound
  refine ⟨hkept.count, hkept.slot, fun r hr => ?_⟩
  by_cases hcmd : cmd = .standby
  · subst hcmd
    have ht : t = s.standby := by
      unfold StreamStep StreamCtl.step at hstep
      split at hstep
      · cases hstep
      · exact (Option.some.inj hstep).symm
    subst ht
    exact absurd hr (not_holds_of_free hkept (not_taken_clear _) (not_taken_clear _))
  · obtain hold | ⟨infor, updateNow, io, rfl, hinfor⟩ := holds_step hstep hr
    · exact (h.session r hold).concat hcmd
    · exact ⟨cmds, infor, updateNow, io, [], rfl, hinfor, List.not_mem_nil⟩

theorem queueLaw_init : QueueLaw [] (streamParameterInit infor0 infor1 readCmd) := by
  have h0 : ¬ (streamParameterInit infor0 infor1 readCmd).replayInfor0.Taken := not_taken_clear _
  have h1 : ¬ (streamParameterInit infor0 infor1 readCmd).replayInfor1.Taken := not_taken_clear _
  have hkept : StreamCtl.Kept (streamParameterInit infor0 infor1 readCmd) := by
    refine ⟨?_, iff_of_false h0 fun hopen => hopen rfl⟩
    rw [StreamCtl.emptySlots, if_neg h0, if_neg h1]
    rfl
  exact ⟨hkept.count, hkept.slot, fun r hr => absurd hr (not_holds_of_free hkept h0 h1)⟩

/-- All along the passes of a stream thread the count, the places and the handle agree and
nothing is held that was chosen before the last standby: just if every pass meets its
condition. -/
theorem queueLaw_iff (infor0 infor1 : FileInfo) (readCmd : Storage.StorageReadCmd)
    (cmds : List StreamCmd) :
    (∀ pre post s, cmds = pre ++ post →
        Run StreamStep (streamParameterInit infor0 infor1 readCmd) pre s → QueueLaw pre s) ↔
      ∀ pre cmd post s t, cmds = pre ++ cmd :: post →
        Run StreamStep (streamParameterInit infor0 infor1 readCmd) pre s →
          StreamStep s cmd t → s.Sound cmd := by
  constructor
  · rintro hlaw pre cmd post s t rfl hrun hstep
    have hs := hlaw pre (cmd :: post) s rfl hrun
    have ht := hlaw (pre ++ [cmd]) post t (by simp) (hrun.snoc hstep)
    exact ((StreamCtl.Kept.mk hs.count hs.slot).step hstep).1 ⟨ht.count, ht.slot⟩
  · intro hsound pre post s hcmds hrun
    induction hrun generalizing post with
    | nil => exact queueLaw_init
    | snoc hrun hstep ih =>
        rename_i pre s t cmd
        have hcmds : cmds = pre ++ cmd :: post := by rw [hcmds, List.append_assoc]; rfl
        exact (ih (cmd :: post) hcmds).concat hstep (hsound pre cmd post s t hcmds hrun hstep)

/-- A record with a time to start from. -/
def recordAtTime : ChosenFile := ⟨⟨default, 1⟩, by decide⟩

/-- The record is opened and the time is not found in it: the first place is free again, and
the handle stays open. -/
theorem not_queueLaw :
    ¬ ∀ (infor0 infor1 : FileInfo) (readCmd : Storage.StorageReadCmd) (cmds : List StreamCmd)
      (s : StreamCtl), Run StreamStep (streamParameterInit infor0 infor1 readCmd) cmds s →
        QueueLaw cmds s := by
  intro h
  have hlaw := h default default .normal [.chooseFile recordAtTime true ⟨.ok, false⟩] _
    (Run.single rfl)
  have hopen := hlaw.slot.2 (by decide)
  exact absurd hopen (by decide)

end Runs

end Nvr.Player
