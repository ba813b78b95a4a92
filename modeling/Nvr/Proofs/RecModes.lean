import Nvr.Lib.Run
import Nvr.Lib.Slot
import Nvr.Proofs.RecCtrl

/-!
# Recording by mode and schedule

Whatever the key, the configuration, the alarm and the clock do between the
ticks, a tick leaves the channel as its mode says, and its starts and stops are
made in turn. The schedule is the exception: `nvr_rec_is_in_segment` takes the
weekday from the local time but the second of the day from UTC. A tick goes by
the local schedule exactly when the answer for the one second of the day serves
for the other (`Serves`).

A recording may have been started in another mode. What carries the runs is that
only a recording by hand has the flag of one (`ByHand`).
-/

namespace Nvr.Server

open Nvr.Storage Slot

/-! ## The local schedule -/

/-- The clock of a place that many seconds ahead of UTC. The first day of `time_t`
was a Thursday. -/
def localClock (offset curT : Int) : Clock where
  curT := curT
  tmWday := ⟨(((curT + offset) / (24 * 60 * 60) + 4) % 7).toNat, by omega⟩

/-- The local second of the day is in an open segment for every day or for the local
weekday. -/
def inLocalSegment (recCfg : RecCfg) (offset curT : Int) : Bool :=
  let t := (curT + offset) % (24 * 60 * 60)
  let day : Fin 8 := ⟨(localClock offset curT).tmWday.val + 1, by omega⟩
  (List.finRange 4).any fun seg =>
    (recCfg.struTimerSeg seg 0).isIn t || (recCfg.struTimerSeg seg day).isIn t

/-! ## Ticks -/

/-- A recording on alarm that one more tick without it does not end. -/
def OnHold (c : RecChannel) : Prop :=
  c.startRec = true ∧ Flag.Has c.recType recordAlarmType ∧ c.alarmSec + 1 < 60

/-- A tick of a channel: its configuration and clock, what the recorder knows of it
before and after, and the starts and stops made. -/
structure ModeTick where
  recCfg : RecCfg
  offset : Int
  curT : Int
  before : RecChannel
  after : RecChannel
  turns : List Bool

namespace ModeTick

def manual (t : ModeTick) : Prop := t.before.manualRec ≠ 0

def enabled (t : ModeTick) : Prop := t.recCfg.u8Enable ≠ 0

def alarm (t : ModeTick) : Prop := t.before.alarmHappen ≠ 0

def inLocal (t : ModeTick) : Bool := inLocalSegment t.recCfg t.offset t.curT

/-- The schedule as the program reads it. -/
def bIn (t : ModeTick) : Bool := nvrRecIsInSegment t.recCfg (localClock t.offset t.curT)

/-- The channel is as its mode says after the tick. -/
structure Right (t : ModeTick) : Prop where
  byHand : t.manual → t.after.startRec = true ∧ t.after.recType = recordManualType
  records : ¬ t.manual → t.enabled →
    t.recCfg.u8RecType = 0 ∨
      (t.recCfg.u8RecType = 1 ∨ t.recCfg.u8RecType = 3) ∧ t.inLocal = true ∨
      (t.recCfg.u8RecType = 2 ∨ t.recCfg.u8RecType = 3) ∧ t.alarm → t.after.startRec = true
  idle : ¬ t.manual → ¬ t.enabled ∨ t.recCfg.u8RecType = 1 ∧ t.inLocal = false →
    t.after.startRec = false

/-- The second of the day in UTC serves for the local one: by schedule the answer is the
same; with alarms as well it is not missed, or something else keeps the channel recording. -/
def Serves (t : ModeTick) : Prop :=
  ¬ t.manual → t.enabled →
    (t.recCfg.u8RecType = 1 → t.bIn = t.inLocal) ∧
    (t.recCfg.u8RecType = 3 → t.inLocal = true → t.bIn = true ∨ t.alarm ∨ OnHold t.before)

end ModeTick

instance (c : RecChannel) : Decidable (OnHold c) := inferInstanceAs (Decidable (_ ∧ _ ∧ _))

instance (t : ModeTick) : Decidable t.manual := inferInstanceAs (Decidable (_ ≠ _))

instance (t : ModeTick) : Decidable t.enabled := inferInstanceAs (Decidable (_ ≠ _))

instance (t : ModeTick) : Decidable t.alarm := inferInstanceAs (Decidable (_ ≠ _))

instance (t : ModeTick) : Decidable t.Serves :=
  inferInstanceAs (Decidable (¬ t.manual → t.enabled → (_ → _) ∧ (_ → _ → _ ∨ _ ∨ _)))

/-- The tick that `nvr_rec_ctrl` makes. -/
def modeTickOf (chn : Chn) (recCfg : RecCfg) (offset curT : Int) (replies : Replies)
    (s : NvrRec) : ModeTick where
  recCfg := recCfg
  offset := offset
  curT := curT
  before := s.chn chn
  after := (nvrRecCtrl chn recCfg (localClock offset curT) replies s).1.chn chn
  turns := turnsOf chn (nvrRecCtrl chn recCfg (localClock offset curT) replies s).2

/-- The storage library does what it is asked for. -/
structure Replies.Oblige (replies : Replies) : Prop where
  recordSetMinutes : 0 ≤ replies.recordSetMinutes
  recordSetOverwrite : 0 ≤ replies.recordSetOverwrite
  recordStart : replies.recordStart = 0

/-- The program, as one channel sees it: its ticks, the key, the alarm, and the other
channels. -/
inductive ModeStep (chn : Chn) : NvrRec → Option ModeTick → NvrRec → Prop
  | tick (s : NvrRec) (recCfg : RecCfg) (offset curT : Int) {replies : Replies} :
      replies.Oblige →
        ModeStep chn s (some (modeTickOf chn recCfg offset curT replies s))
          (nvrRecCtrl chn recCfg (localClock offset curT) replies s).1
  | alarm (s : NvrRec) (c : Chn) (happen : Int) : ModeStep chn s none (nvrRecAlarm c happen s)
  | manual (s : NvrRec) (c : Chn) (start : Int) : ModeStep chn s none (nvrRecManual c start s)
  | otherTick (s : NvrRec) {c : Chn} (recCfg : RecCfg) (clock : Clock) (replies : Replies) :
      chn ≠ c → ModeStep chn s none (nvrRecCtrl c recCfg clock replies s).1

/-- Only a recording by hand has the flag of one. -/
def ByHand (c : RecChannel) : Prop :=
  c.startRec = true → Flag.Has c.recType recordManualType → c.recType = recordManualType

/-! ## The modes -/

/-- An action that finds the channel recording or not ends with it recording or not. -/
structure Ends (chn : Chn) (before : Bool) (r : RecChannel × List StorageCall) (after : Bool) :
    Prop where
  startRec : r.1.startRec = after
  turns : Turns before (turnsOf chn r.2) after
  byHand : ByHand r.1

section Modes

variable {chn : Chn} {recCfg : RecCfg} {clock : Clock} {replies : Replies} {c : RecChannel}
  {b : Bool}

theorem ends_keepRec (h : ByHand c) (hrec : c.startRec = b) : Ends chn b (keepRec c) b :=
  ⟨hrec, .nil b, h⟩

theorem ends_stopRec (hrec : c.startRec = true) : Ends chn true (stopRec chn c) false :=
  ⟨rfl, hrec ▸ turns_stopRec hrec, fun h => by cases h⟩

theorem ends_beginRec (hok : replies.recordStart = 0) {type : RecordType}
    (htype : Flag.Has type recordManualType → type = recordManualType)
    (hrec : c.startRec = false) :
    Ends chn false (beginRec chn recCfg replies type c) true where
  startRec := by simp [beginRec, hok]
  turns := by
    have hturns := @turns_beginRec chn recCfg _ hok type _ hrec
    rw [hrec] at hturns
    simpa [beginRec, hok] using hturns
  byHand := by
    simpa [beginRec, hok, ByHand] using htype

/-- By schedule the channel records when the program's answer is yes. -/
theorem ctrlTime_ends (hok : replies.recordStart = 0) (h : ByHand c) :
    Ends chn c.startRec (ctrlTime chn recCfg clock replies c)
      (nvrRecIsInSegment recCfg clock) := by
  unfold ctrlTime
  cases hbIn : nvrRecIsInSegment recCfg clock <;> cases hrec : c.startRec <;>
    simp only [Bool.false_eq_true, not_true_eq_false, not_false_eq_true, and_self, and_false,
      and_true, if_true, if_false]
  · exact ends_keepRec h hrec
  · exact ends_stopRec hrec
  · exact ends_beginRec hok (fun hflag => absurd hflag (by decide)) hrec
  · exact ends_keepRec h hrec

/-- By alarm it records while there is one. -/
theorem ctrlAlarm_ends (hok : replies.recordStart = 0) (h : ByHand c) (alarm : Bool) :
    ∃ on, Ends chn c.startRec (ctrlAlarm chn recCfg replies alarm c) on ∧
      (alarm = true → on = true) := by
  unfold ctrlAlarm
  cases alarm <;> cases hrec : c.startRec <;>
    simp only [Bool.false_eq_true, not_true_eq_false, not_false_eq_true, and_self, and_false,
      and_true, if_true, if_false]
  · exact ⟨false, ends_keepRec h hrec, fun ha => by cases ha⟩
  · split
    · exact ⟨false, ends_stopRec hrec, fun ha => by cases ha⟩
    · split
      · exact ⟨false, ends_stopRec rfl, fun ha => by cases ha⟩
      · exact ⟨true, ends_keepRec (fun _ => h hrec) rfl, fun _ => rfl⟩
  · exact ⟨true, ends_beginRec hok (fun hflag => absurd hflag (by decide)) rfl, fun _ => rfl⟩
  · exact ⟨true, ends_keepRec (fun _ => h hrec) rfl, fun _ => rfl⟩

/-- By schedule and alarm it records for either, and as long as the hold of a recording on
alarm lasts. -/
theorem ctrlTimeAlarm_ends (hok : replies.recordStart = 0) (h : ByHand c) (alarm : Bool) :
    ∃ on, Ends chn c.startRec (ctrlTimeAlarm chn recCfg clock replies alarm c) on ∧
      (on = true ↔ nvrRecIsInSegment recCfg clock = true ∨ alarm = true ∨ OnHold c) := by
  unfold ctrlTimeAlarm OnHold
  cases hbIn : nvrRecIsInSegment recCfg clock <;> cases alarm <;> cases hrec : c.startRec <;>
    simp only [Bool.false_eq_true, not_true_eq_false, not_false_eq_true, and_self, and_false,
      and_true, or_self, or_true, true_or, if_true, if_false, false_or, true_and, false_and,
      iff_false, iff_true, exists_eq_right]
  · exact ⟨false, ends_keepRec h hrec, fun hon => by cases hon⟩
  · by_cases hflag : Flag.Has c.recType recordAlarmType
    · by_cases hover : 60 ≤ c.alarmSec + 1
      · rw [if_neg (not_not.2 hflag), if_pos hover]
        exact ⟨false, ends_stopRec rfl, by simp [hover]⟩
      · rw [if_neg (not_not.2 hflag), if_neg hover]
        exact ⟨true, ends_keepRec (fun _ => h hrec) rfl, by simp [hflag]; omega⟩
    · rw [if_pos hflag]
      exact ⟨false, ends_stopRec hrec, by simp [hflag]⟩
  · exact ends_beginRec hok (fun hflag => absurd hflag (by decide)) rfl
  · exact ends_keepRec h hrec
  · exact ends_beginRec hok (fun hflag => absurd hflag (by decide)) hrec
  · exact ends_keepRec h hrec
  · exact ends_beginRec hok (fun hflag => absurd hflag (by decide)) rfl
  · exact ends_keepRec h hrec

theorem ctrlStartup_ends (hok : replies.recordStart = 0) (h : ByHand c) :
    Ends chn c.startRec (ctrlStartup chn recCfg replies c) true := by
  unfold ctrlStartup
  cases hrec : c.startRec
  · exact ends_beginRec hok (fun hflag => absurd hflag (by decide)) hrec
  · exact ends_keepRec h hrec

/-- What a channel that is not to record by hand does, mode by mode. -/
structure Configured (recCfg : RecCfg) (clock : Clock) (c : RecChannel) (on : Bool) : Prop where
  disabled : recCfg.u8Enable = 0 → on = false
  startup : recCfg.u8Enable ≠ 0 → recCfg.u8RecType = 0 → on = true
  time : recCfg.u8Enable ≠ 0 → recCfg.u8RecType = 1 → on = nvrRecIsInSegment recCfg clock
  alarm : recCfg.u8Enable ≠ 0 → recCfg.u8RecType = 2 → c.alarmHappen ≠ 0 → on = true
  timeAlarm : recCfg.u8Enable ≠ 0 → recCfg.u8RecType = 3 →
    (on = true ↔ nvrRecIsInSegment recCfg clock = true ∨ c.alarmHappen ≠ 0 ∨ OnHold c)

theorem ctrlConfigured_ends (hok : replies.recordStart = 0) (h : ByHand c) :
    ∃ on, Ends chn c.startRec (ctrlConfigured chn recCfg clock replies c) on ∧
      Configured recCfg clock c on := by
  unfold ctrlConfigured
  by_cases henable : recCfg.u8Enable = 0
  · simp only [henable, ne_eq, not_true_eq_false, if_false]
    refine ⟨false, ?_, fun _ => rfl, fun h => absurd henable h, fun h => absurd henable h,
      fun h => absurd henable h, fun h => absurd henable h⟩
    cases hrec : c.startRec
    · exact ends_keepRec h hrec
    · exact ends_stopRec hrec
  · simp only [ne_eq, henable, not_false_eq_true, if_true]
    by_cases h1 : recCfg.u8RecType = 1
    · rw [if_pos h1]
      refine ⟨_, ctrlTime_ends hok h, fun hz => absurd hz henable, fun _ hz => ?_,
        fun _ _ => rfl, fun _ hz => ?_, fun _ hz => ?_⟩
      all_goals exact absurd (h1.symm.trans hz) (by decide)
    · by_cases h2 : recCfg.u8RecType = 2
      · rw [if_neg h1, if_pos h2]
        obtain ⟨on, hends, hon⟩ := @ctrlAlarm_ends chn recCfg _ _ hok h (decide (c.alarmHappen ≠ 0))
        refine ⟨on, hends, fun hz => absurd hz henable, fun _ hz => ?_, fun _ hz => ?_,
          fun _ _ halarm => hon (decide_eq_true halarm), fun _ hz => ?_⟩
        all_goals exact absurd (h2.symm.trans hz) (by decide)
      · by_cases h3 : recCfg.u8RecType = 3
        · rw [if_neg h1, if_neg h2, if_pos h3]
          obtain ⟨on, hends, hon⟩ :=
            @ctrlTimeAlarm_ends chn recCfg clock _ _ hok h (decide (c.alarmHappen ≠ 0))
          refine ⟨on, hends, fun hz => absurd hz henable, fun _ hz => ?_, fun _ hz => ?_,
            fun _ hz => ?_, fun _ _ => by rw [hon, decide_eq_true_iff]⟩
          all_goals exact absurd (h3.symm.trans hz) (by decide)
        · rw [if_neg h1, if_neg h2, if_neg h3]
          exact ⟨true, ctrlStartup_ends hok h, fun hz => absurd hz henable, fun _ _ => rfl,
            fun _ hz => absurd hz h1, fun _ hz => absurd hz h2, fun _ hz => absurd hz h3⟩

/-! ## A tick -/

theorem Ends.andThen {f g : Ctrl} {before mid after : Bool} (hf : Ends chn before (f c) mid)
    (hg : Ends chn mid (g (f c).1) after) : Ends chn before (f.andThen g c) after where
  startRec := hg.startRec
  turns := by
    rw [Ctrl.andThen, turnsOf_append]
    exact hf.turns.append hg.turns
  byHand := hg.byHand

/-- A recording is stopped on a condition; otherwise the channel is left as it is. -/
theorem stopIf_ends (P : Prop) [Decidable P] (h : ByHand c) :
    ∃ on, Ends chn c.startRec (if c.startRec ∧ P then stopRec chn c else keepRec c) on ∧
      (if c.startRec ∧ P then stopRec chn c else keepRec c).1.alarmHappen = c.alarmHappen ∧
      (on = true → ¬ P ∧ (if c.startRec ∧ P then stopRec chn c else keepRec c).1 = c) ∧
      (on = false → c.startRec = true → P) := by
  by_cases hstop : c.startRec = true ∧ P
  · have hends := @ends_stopRec chn _ hstop.1
    rw [← hstop.1] at hends
    rw [if_pos hstop]
    exact ⟨false, hends, rfl, fun hon => absurd hon (by decide), fun _ _ => hstop.2⟩
  · rw [if_neg hstop]
    exact ⟨c.startRec, ends_keepRec h rfl, rfl, fun hon => ⟨fun hP => hstop ⟨hon, hP⟩, rfl⟩,
      fun hoff hon => by rw [hoff] at hon; cases hon⟩

theorem ctrlManual_ends (hok : replies.recordStart = 0) (h : ByHand c) :
    Ends chn c.startRec (ctrlManual chn recCfg replies c) true ∧
      (ctrlManual chn recCfg replies c).1.recType = recordManualType := by
  obtain ⟨on, hends, -, hkept, -⟩ :=
    @stopIf_ends chn _ (¬ Flag.Has c.recType recordManualType) _ h
  have hrec := hends.startRec
  rw [ctrlManual]
  cases on with
  | false =>
      constructor
      · refine hends.andThen ?_
        simp only [hrec, Bool.false_eq_true, not_false_eq_true, if_true]
        exact ends_beginRec hok (fun _ => rfl) hrec
      · simp only [Ctrl.andThen, hrec, Bool.false_eq_true, not_false_eq_true, if_true]
        simp [beginRec, hok]
  | true =>
      obtain ⟨hflag, hsame⟩ := hkept rfl
      constructor
      · refine hends.andThen ?_
        simp only [hrec, not_true_eq_false, if_false]
        exact ends_keepRec hends.byHand hrec
      · simp only [Ctrl.andThen, hrec, not_true_eq_false, if_false]
        rw [keepRec, hsame]
        rw [hsame] at hrec
        exact h hrec (not_not.1 hflag)

/-- A recording by hand is no recording on alarm, so ending it ends no hold. -/
theorem endManual_ends (h : ByHand c) :
    ∃ on, Ends chn c.startRec (endManual chn c) on ∧
      (endManual chn c).1.alarmHappen = c.alarmHappen ∧
      (OnHold (endManual chn c).1 ↔ OnHold c) := by
  obtain ⟨on, hends, halarm, hkept, hstop⟩ :=
    @stopIf_ends chn _ (Flag.Has c.recType recordManualType) _ h
  refine ⟨on, hends, halarm, ?_⟩
  rw [endManual]
  cases on with
  | false =>
      constructor
      · intro hhold
        exact absurd (hends.startRec.symm.trans hhold.1) (by decide)
      · intro hhold
        have htype := h hhold.1 (hstop rfl hhold.1)
        have hflag := hhold.2.1
        rw [htype] at hflag
        exact absurd hflag (by decide)
  | true => rw [(hkept rfl).2]

end Modes

section Ticks

variable {chn : Chn} {s t : NvrRec} {tick : ModeTick} {ticks : List (Option ModeTick)}

/-- Without the key, the channel is as its mode says just when the second of the day
serves. -/
theorem right_iff_serves {c : RecChannel} {on : Bool} (hmanual : ¬ tick.manual)
    (hon : tick.after.startRec = on)
    (h : Configured tick.recCfg (localClock tick.offset tick.curT) c on)
    (halarm : c.alarmHappen = tick.before.alarmHappen)
    (hhold : OnHold c ↔ OnHold tick.before) : tick.Right ↔ tick.Serves := by
  have htimeAlarm := h.timeAlarm
  rw [halarm, hhold] at htimeAlarm
  constructor
  · intro hright _ henable
    refine ⟨fun htype => ?_, fun htype hlocal => ?_⟩
    · have htime := h.time henable htype
      cases hlocal : tick.inLocal with
      | true =>
          have hrec := hright.records hmanual henable (.inr (.inl ⟨.inl htype, hlocal⟩))
          exact htime.symm.trans (hon.symm.trans hrec)
      | false =>
          have hidle := hright.idle hmanual (.inr ⟨htype, hlocal⟩)
          exact htime.symm.trans (hon.symm.trans hidle)
    · have hrec := hright.records hmanual henable (.inr (.inl ⟨.inr htype, hlocal⟩))
      exact (htimeAlarm henable htype).1 (hon.symm.trans hrec)
  · intro hserves
    refine ⟨fun hm => absurd hm hmanual, fun _ henable hmode => ?_, fun _ hmode => ?_⟩
    · rw [hon]
      obtain hstartup | ⟨htype | htype, hlocal⟩ | ⟨htype | htype, ha⟩ := hmode
      · exact h.startup henable hstartup
      · have hsame := (hserves hmanual henable).1 htype
        rw [h.time henable htype]
        exact hsame.trans hlocal
      · exact (htimeAlarm henable htype).2 ((hserves hmanual henable).2 htype hlocal)
      · exact h.alarm henable htype (halarm ▸ ha)
      · exact (htimeAlarm henable htype).2 (.inr (.inl ha))
    · rw [hon]
      by_cases henable : tick.enabled
      · obtain hdisabled | ⟨htype, hlocal⟩ := hmode
        · exact absurd henable hdisabled
        · have hsame := (hserves hmanual henable).1 htype
          rw [h.time henable htype]
          exact hsame.trans hlocal
      · exact h.disabled (not_not.1 henable)

theorem turnsOf_ctrlMinutes (chn : Chn) (replies : Replies) (needSetMinutes : Bool) :
    turnsOf chn (ctrlMinutes replies needSetMinutes).2 = [] := by
  unfold ctrlMinutes
  split
  · split <;> rfl
  · rfl

/-- The channel's part of `nvr_rec_ctrl`: by hand, or by its configuration. -/
theorem ctrlChn_ends {recCfg : RecCfg} {clock : Clock} {replies : Replies} {c : RecChannel}
    (hok : replies.recordStart = 0) (h : ByHand c) :
    ∃ on, Ends chn c.startRec (ctrlChn chn recCfg clock replies c) on ∧
      (c.manualRec ≠ 0 → on = true ∧
        (ctrlChn chn recCfg clock replies c).1.recType = recordManualType) ∧
      (¬ c.manualRec ≠ 0 → ∃ c', Configured recCfg clock c' on ∧
        c'.alarmHappen = c.alarmHappen ∧ (OnHold c' ↔ OnHold c)) := by
  obtain ⟨o, ho⟩ := ctrlOverwrite_fst chn recCfg replies c
  have htoggles := @toggles_ctrlOverwrite chn recCfg replies c
  rw [ho] at htoggles
  have hc : ByHand { c with overwrite := o } := h
  have hfirst : Ends chn c.startRec (ctrlOverwrite chn recCfg replies c) c.startRec :=
    ⟨by rw [ho], htoggles, by rw [ho]; exact hc⟩
  rw [ctrlChn]
  by_cases hmanual : c.manualRec ≠ 0
  · obtain ⟨hends, htype⟩ := @ctrlManual_ends chn recCfg _ _ hok hc
    refine ⟨true, hfirst.andThen ?_, fun _ => ⟨rfl, ?_⟩, fun hno => absurd hmanual hno⟩
    · rw [ho, if_pos hmanual]
      exact hends
    · rw [Ctrl.andThen, ho, if_pos hmanual]
      exact htype
  · obtain ⟨mid, hend, halarm, hhold⟩ := @endManual_ends chn _ hc
    obtain ⟨on, hends, hconfigured⟩ := @ctrlConfigured_ends chn recCfg clock _ _ hok hend.byHand
    rw [hend.startRec] at hends
    refine ⟨on, hfirst.andThen ?_, fun hm => absurd hm hmanual,
      fun _ => ⟨_, hconfigured, halarm, hhold⟩⟩
    rw [ho, if_neg hmanual]
    exact hend.andThen hends

/-- What a tick does: its starts and stops are in turn, a recording by hand has its flag
alone, and the channel is as its mode says just when the second of the day serves. -/
theorem modeTickOf_spec (recCfg : RecCfg) (offset curT : Int) {replies : Replies}
    (hok : replies.recordStart = 0) (h : ByHand (s.chn chn))
    (htick : tick = modeTickOf chn recCfg offset curT replies s) :
    Turns tick.before.startRec tick.turns tick.after.startRec ∧ ByHand tick.after ∧
      (tick.Right ↔ tick.Serves) := by
  obtain ⟨on, hends, hmanual, hconfigured⟩ :=
    @ctrlChn_ends chn recCfg (localClock offset curT) _ _ hok h
  have hafter : tick.after =
      (ctrlChn chn recCfg (localClock offset curT) replies (s.chn chn)).1 := by
    rw [htick]
    exact NvrRec.setChn_self ..
  have hturns : tick.turns =
      turnsOf chn (ctrlChn chn recCfg (localClock offset curT) replies (s.chn chn)).2 := by
    rw [htick]
    show turnsOf chn (_ ++ _) = _
    rw [turnsOf_append, turnsOf_ctrlMinutes, List.nil_append]
  have hon : tick.after.startRec = on := hafter ▸ hends.startRec
  have hbefore : tick.before = s.chn chn := by
    rw [htick]
    rfl
  refine ⟨?_, hafter ▸ hends.byHand, ?_⟩
  · rw [hturns, hon, hbefore]
    exact hends.turns
  · by_cases hm : tick.manual
    · have hm' : (s.chn chn).manualRec ≠ 0 := hbefore ▸ hm
      obtain ⟨hrec, htype⟩ := hmanual hm'
      exact iff_of_true
        ⟨fun _ => ⟨hon.trans hrec, hafter ▸ htype⟩, fun hno => absurd hm hno,
          fun hno => absurd hm hno⟩
        fun hno => absurd hm hno
    · have hm' : ¬ (s.chn chn).manualRec ≠ 0 := hbefore ▸ hm
      obtain ⟨c', hc', halarm, hhold⟩ := hconfigured hm'
      rw [← hbefore] at halarm hhold
      refine right_iff_serves hm hon ?_ halarm hhold
      rw [htick]
      exact hc'

/-! ## Runs -/

/-- All starts and stops of some ticks. -/
def allTurns (ticks : List (Option ModeTick)) : List Bool :=
  ticks.flatMap fun tick => tick.elim [] ModeTick.turns

theorem allTurns_concat (ticks : List (Option ModeTick)) (tick : Option ModeTick) :
    allTurns (ticks ++ [tick]) = allTurns ticks ++ tick.elim [] ModeTick.turns := by
  simp [allTurns]

/-- Between its ticks a channel keeps what it records. -/
theorem ModeStep.between (hstep : ModeStep chn s none t) :
    (t.chn chn).startRec = (s.chn chn).startRec ∧ (t.chn chn).recType = (s.chn chn).recType := by
  cases hstep with
  | alarm c happen =>
      by_cases hc : chn = c
      · subst hc
        simp [nvrRecAlarm]
      · simp [nvrRecAlarm, NvrRec.setChn_of_ne _ hc]
  | manual c start =>
      by_cases hc : chn = c
      · subst hc
        simp [nvrRecManual]
      · simp [nvrRecManual, NvrRec.setChn_of_ne _ hc]
  | otherTick recCfg clock replies hc =>
      simp [nvrRecCtrl, NvrRec.setChn_of_ne _ hc]

/-- What holds after every run: the starts and stops so far lead to what the channel records,
and each tick was right just when it served. -/
theorem turns_of_run (hrun : Run (ModeStep chn) nvrRecInit ticks s) :
    Turns false (allTurns ticks) (s.chn chn).startRec ∧ ByHand (s.chn chn) ∧
      ∀ tick, some tick ∈ ticks → (tick.Right ↔ tick.Serves) := by
  induction hrun with
  | nil =>
      have hidle : ByHand (nvrRecInit.chn chn) := fun h => by cases h
      exact ⟨.nil false, hidle, fun tick h => by cases h⟩
  | @snoc ticks s t label hrun hstep ih =>
      obtain ⟨hturns, hbyHand, hticks⟩ := ih
      rw [allTurns_concat]
      cases label with
      | none =>
          obtain ⟨hrec, htype⟩ := hstep.between
          refine ⟨?_, ?_, fun tick hmem => ?_⟩
          · rw [hrec]
            exact hturns.append (.nil _)
          · unfold ByHand
            rw [hrec, htype]
            exact hbyHand
          · exact hticks tick (by simpa using hmem)
      | some tick =>
          generalize hlabel : some tick = label at hstep
          cases hstep with
          | tick recCfg offset curT hok =>
              obtain ⟨hturn, hafter, hright⟩ := @modeTickOf_spec _ _ tick recCfg offset curT _
                hok.recordStart hbyHand (Option.some.inj hlabel)
              obtain rfl := Option.some.inj hlabel
              refine ⟨hturns.append hturn, hafter, fun tick' hmem => ?_⟩
              obtain hmem' | hmem' := List.mem_append.1 hmem
              · exact hticks tick' hmem'
              · obtain rfl := Option.some.inj (List.mem_singleton.1 hmem')
                exact hright
          | alarm => cases hlabel
          | manual => cases hlabel
          | otherTick => cases hlabel

/-- The channel is as its mode says after every tick, and its starts and stops are in turn. -/
structure RightThroughout (ticks : List (Option ModeTick)) : Prop where
  right : ∀ tick, some tick ∈ ticks → tick.Right
  inTurn : Alternate (allTurns ticks)

/-- A run goes by its modes and the local schedule just when the second of the day serves
at every tick. -/
theorem rightThroughout_iff_serves (hrun : Run (ModeStep chn) nvrRecInit ticks s) :
    RightThroughout ticks ↔ ∀ tick, some tick ∈ ticks → tick.Serves := by
  obtain ⟨hturns, -, hticks⟩ := turns_of_run hrun
  constructor
  · exact fun h tick hmem => (hticks tick hmem).1 (h.right tick hmem)
  · exact fun h => ⟨fun tick hmem => (hticks tick hmem).2 (h tick hmem), hturns.alternate⟩

end Ticks

/-- From eight to six every day, by schedule. -/
def officeHours : RecCfg where
  u8OverWrite := 1
  u8RecStream := 0
  u8Enable := 1
  u8RecType := 1
  struTimerSeg _ day := if day = 0 then ⟨1, 28800, 64800⟩ else ⟨0, 0, 0⟩

/-- The storage library has no complaints. -/
def smooth : Replies := ⟨false, 0, 0, 0⟩

theorem smooth_oblige : smooth.Oblige := ⟨by decide, by decide, rfl⟩

/-- Nine in the morning, then the key, and then a tick without a configuration, one hour
ahead of UTC. -/
theorem rightThroughout_iff_serves_morning :
    ∃ ticks s, Run (ModeStep 0) nvrRecInit ticks s ∧ allTurns ticks = [true, false, true, false] ∧
      RightThroughout ticks := by
  have hrun := (((((Run.nil (R := ModeStep 0) (s := nvrRecInit)).snoc
    (.tick _ officeHours 3600 28800 smooth_oblige)).snoc (.manual _ 0 1)).snoc
    (.tick _ officeHours 3600 90000 smooth_oblige)).snoc (.manual _ 0 0)).snoc
    (.tick _ { officeHours with u8Enable := 0 } 3600 90010 smooth_oblige)
  refine ⟨_, _, hrun, by rfl, (rightThroughout_iff_serves hrun).2 fun tick hmem => ?_⟩
  simp only [List.nil_append, List.cons_append, List.mem_cons, List.not_mem_nil, or_false,
    Option.some.injEq, reduceCtorEq, false_or] at hmem
  obtain rfl | rfl | rfl := hmem
  · decide
  · decide
  · decide

/-- Ten in the morning, eight hours ahead of UTC. -/
theorem not_rightThroughout :
    ¬ ∀ (chn : Chn) (ticks : List (Option ModeTick)) (s : NvrRec),
      Run (ModeStep chn) nvrRecInit ticks s → RightThroughout ticks := by
  intro h
  have hrun := (Run.nil (R := ModeStep 0) (s := nvrRecInit)).snoc
    (.tick _ officeHours 28800 7200 smooth_oblige)
  have hright := (h 0 _ _ hrun).right _ (List.mem_singleton.2 rfl)
  have hrec := hright.records (by decide) (by decide)
    (.inr (.inl ⟨.inl rfl, by rfl⟩))
  exact absurd hrec (by decide)

end Nvr.Server
