import Nvr.Lib.Run
import Nvr.Lib.Slot
import Nvr.Proofs.RecCtrl
import Mathlib.Data.List.TakeWhile

/-!
# An alarm holds the recording

A channel that records on alarms is looked at over and over; each look is a
tick. A recording that runs at a tick with the alarm active should run on until
sixty quiet ticks have followed one another: ticks without the alarm and, where
the schedule records as well, outside of it.

The hold is `alarmSec`, counted up at quiet ticks. It is a hold only for a
recording of the alarm type, and with a schedule nothing sets it back to zero
while the recording runs. `Kept` is the condition a tick has to meet, and
`Held n` what it keeps: the recording is of the alarm type and at most `n` of
the sixty ticks are used up, where `n` is the number of quiet ticks just seen.
-/

namespace Nvr.Server

open Nvr.Storage Slot

/-! ## Ticks -/

/-- What is to be seen of one tick: the alarm flag, whether it is in the
schedule, whether the channel records after it, and whether it stopped a
recording. -/
structure Tick where
  alarm : Bool
  bIn : Bool
  running : Bool
  stopped : Bool
  deriving DecidableEq

/-- The tick that `nvr_rec_ctrl` makes. -/
def tickOf (chn : Chn) (recCfg : RecCfg) (clock : Clock) (replies : Replies) (s : NvrRec) :
    Tick where
  alarm := decide ((s.chn chn).alarmHappen ≠ 0)
  bIn := nvrRecIsInSegment recCfg clock
  running := ((nvrRecCtrl chn recCfg clock replies s).1.chn chn).startRec
  stopped := (nvrRecCtrl chn recCfg clock replies s).2.contains (.recordStop chn)

/-- No alarm, and with a schedule not in it. -/
def Tick.quiet (recType : UInt8) (t : Tick) : Bool :=
  !t.alarm && (recType != 3 || !t.bIn)

/-- The program, as one channel sees it: its own ticks, the alarms, and what
happens to the other channels. -/
inductive RecStep (chn : Chn) (recCfg : RecCfg) : NvrRec → Option Tick → NvrRec → Prop
  | tick (s : NvrRec) (clock : Clock) (replies : Replies) :
      RecStep chn recCfg s (some (tickOf chn recCfg clock replies s))
        (nvrRecCtrl chn recCfg clock replies s).1
  | alarm (s : NvrRec) (c : Chn) (happen : Int) :
      RecStep chn recCfg s none (nvrRecAlarm c happen s)
  | otherTick (s : NvrRec) {c : Chn} (recCfg' : RecCfg) (clock : Clock) (replies : Replies) :
      chn ≠ c → RecStep chn recCfg s none (nvrRecCtrl c recCfg' clock replies s).1
  | otherManual (s : NvrRec) {c : Chn} (start : Int) :
      chn ≠ c → RecStep chn recCfg s none (nvrRecManual c start s)

/-- A recording that runs at a tick with the alarm active is stopped only after
sixty quiet ticks in a row, none of them before the last alarm. -/
def AlarmHeld (recType : UInt8) (ticks : List Tick) : Prop :=
  ∀ pre a mid z post, ticks = pre ++ a :: (mid ++ z :: post) → a.alarm → a.running →
    (∀ t ∈ mid, ¬ t.stopped) → z.stopped →
    ∃ u v w, mid ++ [z] = u ++ v ++ w ∧ v.length = 60 ∧ (∀ t ∈ v, t.quiet recType) ∧
      ∀ t ∈ w, ¬ t.alarm

/-- What a tick has to find, if the channel records and not by hand: with the
alarm active, a recording of the alarm type; and with a schedule, at a tick with
the alarm or in the schedule, such a recording with none of its hold used up. -/
def Kept (chn : Chn) (recCfg : RecCfg) (s : NvrRec) : Option Tick → Prop
  | none => True
  | some t =>
      (s.chn chn).startRec → ¬ Flag.Has (s.chn chn).recType recordManualType →
        (t.alarm → Flag.Has (s.chn chn).recType recordAlarmType) ∧
        (recCfg.u8RecType = 3 → Flag.Has (s.chn chn).recType recordAlarmType →
          t.alarm ∨ t.bIn → (s.chn chn).alarmSec = 0)

instance (chn : Chn) (recCfg : RecCfg) (s : NvrRec) (t : Tick) :
    Decidable (Kept chn recCfg s (some t)) :=
  inferInstanceAs (Decidable (_ → ¬ _ → (_ → _) ∧ (_ → _ → _ ∨ _ → _)))

/-! ## One tick -/

/-- The recording is on alarm and has used up at most `n` ticks of its hold. -/
structure Held (n : Nat) (c : RecChannel) : Prop where
  running : c.startRec
  alarm : Flag.Has c.recType recordAlarmType
  byHand : ¬ Flag.Has c.recType recordManualType
  alarmSec : c.alarmSec ≤ n

theorem not_stop_mem_ctrlOverwrite (chn : Chn) (recCfg : RecCfg) (replies : Replies)
    (c : RecChannel) : .recordStop chn ∉ (ctrlOverwrite chn recCfg replies c).2 := by
  unfold ctrlOverwrite
  split <;> simp [keepRec]

theorem not_stop_mem_ctrlMinutes (replies : Replies) (needSetMinutes : Bool) (chn : Chn) :
    .recordStop chn ∉ (ctrlMinutes replies needSetMinutes).2 := by
  unfold ctrlMinutes
  split
  · split <;> simp
  · simp

/-- A channel that is not to record by hand ends such a recording and goes by
its configuration. -/
theorem nvrRecCtrl_configured {chn : Chn} {s : NvrRec} (recCfg : RecCfg) (clock : Clock)
    (replies : Replies) (hmanual : (s.chn chn).manualRec = 0) :
    ∃ o, let c := endManual chn { s.chn chn with overwrite := o }
      let c' := ctrlConfigured chn recCfg clock replies c.1
      (nvrRecCtrl chn recCfg clock replies s).1.chn chn = c'.1 ∧
        (.recordStop chn ∈ (nvrRecCtrl chn recCfg clock replies s).2 ↔
          .recordStop chn ∈ c.2 ∨ .recordStop chn ∈ c'.2) := by
  obtain ⟨o, ho⟩ := ctrlOverwrite_fst chn recCfg replies (s.chn chn)
  refine ⟨o, ?_, ?_⟩
  · simp [nvrRecCtrl, ctrlChn, Ctrl.andThen, ho, hmanual]
  · simp [nvrRecCtrl, ctrlChn, Ctrl.andThen, ho, hmanual, not_stop_mem_ctrlMinutes,
      not_stop_mem_ctrlOverwrite]

theorem endManual_idle (chn : Chn) (c : RecChannel) :
    (endManual chn c).1.startRec → (endManual chn c).1 = c ∧ (endManual chn c).2 = [] ∧
      ¬ Flag.Has c.recType recordManualType := by
  unfold endManual
  split
  · simp [stopRec]
  next h =>
    intro hrun
    exact ⟨rfl, rfl, fun hm => h ⟨hrun, hm⟩⟩

/-- A tick with the alarm active leaves a recording that it leaves running with
the whole of its hold. -/
theorem ctrlConfigured_alarm {chn : Chn} {recCfg : RecCfg} {clock : Clock} {replies : Replies}
    {c : RecChannel} (henable : recCfg.u8Enable ≠ 0)
    (htype : recCfg.u8RecType = 2 ∨ recCfg.u8RecType = 3) (halarm : c.alarmHappen ≠ 0)
    (hhand : c.startRec → ¬ Flag.Has c.recType recordManualType)
    (hkept : c.startRec → Flag.Has c.recType recordAlarmType ∧
      (recCfg.u8RecType = 3 → c.alarmSec = 0))
    (hrun : (ctrlConfigured chn recCfg clock replies c).1.startRec) :
    Held 0 (ctrlConfigured chn recCfg clock replies c).1 := by
  obtain htype | htype := htype
  · by_cases hc : c.startRec
    · have hctrl : (ctrlConfigured chn recCfg clock replies c).1 = { c with alarmSec := 0 } := by
        simp [ctrlConfigured, henable, htype, ctrlAlarm, halarm, hc, keepRec]
      rw [hctrl]
      exact ⟨hc, (hkept hc).1, hhand hc, Int.le_refl _⟩
    · simp [ctrlConfigured, henable, htype, ctrlAlarm, halarm, hc, beginRec] at hrun ⊢
      split at hrun
      next hstart =>
        rw [if_pos hstart]
        exact ⟨rfl, show Flag.Has recordAlarmType _ by decide,
          show ¬ Flag.Has recordAlarmType _ by decide, Int.le_refl _⟩
      next => exact absurd hrun Bool.false_ne_true
  · by_cases hc : c.startRec
    · have hctrl : (ctrlConfigured chn recCfg clock replies c).1 = c := by
        simp [ctrlConfigured, henable, htype, ctrlTimeAlarm, halarm, hc, keepRec]
      rw [hctrl]
      exact ⟨hc, (hkept hc).1, hhand hc, Int.le_of_eq ((hkept hc).2 htype)⟩
    · simp [ctrlConfigured, henable, htype, ctrlTimeAlarm, halarm, hc, beginRec] at hrun ⊢
      split at hrun
      next hstart =>
        rw [if_pos hstart]
        refine ⟨rfl, ?_, ?_, Int.le_refl _⟩
        · dsimp only
          split <;> decide
        · dsimp only
          split <;> decide
      next => exact absurd hrun Bool.false_ne_true

/-- The next tick of a recording on hold: it goes on with one more tick of the
hold used up, or with the whole of it, or the hold is over. -/
theorem ctrlConfigured_held (chn : Chn) (replies : Replies) {recCfg : RecCfg} {clock : Clock}
    {c : RecChannel} {n : Nat} {t : Tick} (henable : recCfg.u8Enable ≠ 0)
    (htype : recCfg.u8RecType = 2 ∨ recCfg.u8RecType = 3)
    (halarm : t.alarm = decide (c.alarmHappen ≠ 0)) (hbIn : t.bIn = nvrRecIsInSegment recCfg clock)
    (hheld : Held n c)
    (hkept : recCfg.u8RecType = 3 → t.alarm ∨ t.bIn → c.alarmSec = 0) :
    let c' := ctrlConfigured chn recCfg clock replies c
    (.recordStop chn ∈ c'.2 → t.quiet recCfg.u8RecType ∧ 60 ≤ n + 1) ∧
      (.recordStop chn ∉ c'.2 → Held (if t.quiet recCfg.u8RecType then n + 1 else 0) c'.1) := by
  intro c'
  have hsec := hheld.alarmSec
  -- the two modes do the same at a quiet tick, and nothing else can end the hold
  have hquiet : t.quiet recCfg.u8RecType → c' =
      if 60 ≤ c.alarmSec + 1 then stopRec chn { c with alarmSec := c.alarmSec + 1 }
      else keepRec { c with alarmSec := c.alarmSec + 1 } := by
    intro hq
    obtain htype | htype := htype <;>
      simp [Tick.quiet, halarm, hbIn, htype] at hq <;>
      simp [c', ctrlConfigured, henable, htype, ctrlAlarm, ctrlTimeAlarm, hq, hheld.running,
        hheld.alarm]
  have hloud : ¬ t.quiet recCfg.u8RecType → c' = keepRec { c with alarmSec := 0 } := by
    intro hq
    obtain htype | htype := htype
    · have ha : c.alarmHappen ≠ 0 := by simpa [Tick.quiet, halarm, htype] using hq
      simp [c', ctrlConfigured, henable, htype, ctrlAlarm, ha, hheld.running]
    · have hor : t.alarm ∨ t.bIn := by
        simp [Tick.quiet, htype] at hq
        by_cases ha : t.alarm
        · exact .inl ha
        · exact .inr (hq (by simpa using ha))
      have h0 : c.alarmSec = 0 := hkept htype hor
      have hsame : c' = keepRec c := by
        rw [halarm, hbIn] at hor
        obtain ha | hb := hor
        · simp at ha
          simp [c', ctrlConfigured, henable, htype, ctrlTimeAlarm, ha, hheld.running]
        · simp [c', ctrlConfigured, henable, htype, ctrlTimeAlarm, hb, hheld.running]
      rw [hsame, ← h0]
  by_cases hq : t.quiet recCfg.u8RecType
  · rw [hquiet hq, if_pos hq]
    split
    next h60 => exact ⟨fun _ => ⟨hq, by omega⟩, fun h => absurd (by simp [stopRec]) h⟩
    next =>
      refine ⟨fun h => absurd h (by simp [keepRec]), fun _ => ?_⟩
      exact ⟨hheld.running, hheld.alarm, hheld.byHand, by simpa [keepRec] using hsec⟩
  · rw [hloud hq, if_neg hq]
    refine ⟨fun h => absurd h (by simp [keepRec]), fun _ => ?_⟩
    exact ⟨hheld.running, hheld.alarm, hheld.byHand, Int.le_refl _⟩

/-! ## Runs of ticks -/

/-- The number of quiet ticks at the end. -/
def quietTail (recType : UInt8) (ticks : List Tick) : Nat :=
  (ticks.reverse.takeWhile (Tick.quiet recType)).length

theorem quietTail_concat (recType : UInt8) (ticks : List Tick) (t : Tick) :
    quietTail recType (ticks ++ [t]) =
      if t.quiet recType then quietTail recType ticks + 1 else 0 := by
  rw [quietTail, List.reverse_append]
  by_cases h : t.quiet recType
  · simp [h, quietTail]
  · simp [h]

/-- The quiet ticks at the end are at the end. -/
theorem exists_quiet_suffix {recType : UInt8} {ticks : List Tick} {n : Nat}
    (h : n ≤ quietTail recType ticks) :
    ∃ u v, ticks = u ++ v ∧ v.length = n ∧ ∀ t ∈ v, t.quiet recType := by
  refine ⟨(ticks.reverse.drop n).reverse, (ticks.reverse.take n).reverse, ?_, ?_, ?_⟩
  · rw [← List.reverse_append, List.take_append_drop, List.reverse_reverse]
  · rw [List.length_reverse, List.length_take]
    have := List.IsPrefix.length_le (List.takeWhile_prefix (l := ticks.reverse)
      (Tick.quiet recType))
    rw [quietTail] at h
    omega
  · intro t ht
    rw [List.mem_reverse] at ht
    have hpre := List.takeWhile_prefix (l := ticks.reverse) (Tick.quiet recType)
    obtain ⟨rest, hrest⟩ := hpre
    rw [← hrest, List.take_append_of_le_length h] at ht
    exact List.mem_takeWhile_imp (List.mem_of_mem_take ht)

section

variable {chn : Chn} {recCfg : RecCfg} {s t : NvrRec} {n : Nat} {a tick : Tick}
  {ev : Option Tick} {evs : List (Option Tick)}

theorem nvrRecCtrl_setChn_of_ne {c : Chn} (h : chn ≠ c) (recCfg' : RecCfg) (clock : Clock)
    (replies : Replies) (s : NvrRec) :
    (nvrRecCtrl c recCfg' clock replies s).1.chn chn = s.chn chn :=
  NvrRec.setChn_of_ne _ h _

/-- Between its ticks a channel keeps everything but the alarm flag. -/
theorem RecStep.none (h : RecStep chn recCfg s .none t) :
    ∃ happen, t.chn chn = { s.chn chn with alarmHappen := happen } := by
  cases h with
  | alarm c happen =>
      by_cases hc : chn = c
      · subst hc
        exact ⟨happen, NvrRec.setChn_self ..⟩
      · exact ⟨_, NvrRec.setChn_of_ne _ hc _⟩
  | otherTick _ _ _ hc => exact ⟨_, nvrRecCtrl_setChn_of_ne hc ..⟩
  | otherManual _ hc => exact ⟨_, NvrRec.setChn_of_ne _ hc _⟩

theorem ctrlConfigured_manualRec (chn : Chn) (recCfg : RecCfg) (clock : Clock)
    (replies : Replies) (c : RecChannel) :
    (ctrlConfigured chn recCfg clock replies c).1.manualRec = c.manualRec := by
  simp only [ctrlConfigured, ctrlTime, ctrlAlarm, ctrlTimeAlarm, ctrlStartup, beginRec, stopRec,
    keepRec]
  repeat' split
  all_goals rfl

theorem RecStep.manualRec (h : RecStep chn recCfg s ev t) (hmanual : (s.chn chn).manualRec = 0) :
    (t.chn chn).manualRec = 0 := by
  cases ev with
  | none =>
      obtain ⟨happen, ht⟩ := h.none
      rw [ht]
      exact hmanual
  | some tick =>
      cases h with
      | tick clock replies =>
          obtain ⟨o, hchn, -⟩ := nvrRecCtrl_configured recCfg clock replies hmanual
          rw [hchn, ctrlConfigured_manualRec]
          unfold endManual
          split <;> exact hmanual

/-- A recording that runs after a tick with the alarm active is on hold. -/
theorem RecStep.held_of_alarm (h : RecStep chn recCfg s (some a) t)
    (hkept : Kept chn recCfg s (some a)) (henable : recCfg.u8Enable ≠ 0)
    (htype : recCfg.u8RecType = 2 ∨ recCfg.u8RecType = 3) (hmanual : (s.chn chn).manualRec = 0)
    (halarm : a.alarm) (hrun : a.running) : Held 0 (t.chn chn) := by
  cases h with
  | tick clock replies =>
      obtain ⟨o, hchn, -⟩ := nvrRecCtrl_configured recCfg clock replies hmanual
      have happen : (s.chn chn).alarmHappen ≠ 0 := by simpa [tickOf] using halarm
      have hrun' : (ctrlConfigured chn recCfg clock replies
          (endManual chn { s.chn chn with overwrite := o }).1).1.startRec := by
        rw [← hchn]
        exact hrun
      have hidle := endManual_idle chn { s.chn chn with overwrite := o }
      have happen' : (endManual chn { s.chn chn with overwrite := o }).1.alarmHappen ≠ 0 := by
        unfold endManual
        split <;> exact happen
      rw [hchn]
      refine ctrlConfigured_alarm henable htype happen' ?_ ?_ hrun'
      · intro hc
        obtain ⟨heq, -, hhand⟩ := hidle hc
        rw [heq]
        exact hhand
      · intro hc
        obtain ⟨heq, -, hhand⟩ := hidle hc
        rw [heq] at hc ⊢
        obtain ⟨htypeAlarm, hsec⟩ := hkept hc hhand
        exact ⟨htypeAlarm halarm, fun h3 => hsec h3 (htypeAlarm halarm) (.inl halarm)⟩

/-- A recording on hold goes on, or its hold is over. -/
theorem RecStep.held (h : RecStep chn recCfg s (some tick) t)
    (hkept : Kept chn recCfg s (some tick)) (henable : recCfg.u8Enable ≠ 0)
    (htype : recCfg.u8RecType = 2 ∨ recCfg.u8RecType = 3) (hmanual : (s.chn chn).manualRec = 0)
    (hheld : Held n (s.chn chn)) :
    (tick.stopped → tick.quiet recCfg.u8RecType ∧ 60 ≤ n + 1) ∧
      (¬ tick.stopped → Held (if tick.quiet recCfg.u8RecType then n + 1 else 0) (t.chn chn)) := by
  cases h with
  | tick clock replies =>
      obtain ⟨o, hchn, hstop⟩ := nvrRecCtrl_configured recCfg clock replies hmanual
      have hkeep : endManual chn { s.chn chn with overwrite := o } =
          keepRec { s.chn chn with overwrite := o } :=
        if_neg fun hm => hheld.byHand hm.2
      rw [hkeep] at hchn hstop
      have hheld' : Held n (keepRec { s.chn chn with overwrite := o }).1 :=
        ⟨hheld.running, hheld.alarm, hheld.byHand, hheld.alarmSec⟩
      have hctrl := ctrlConfigured_held chn replies (t := tickOf chn recCfg clock replies s)
        (c := (keepRec { s.chn chn with overwrite := o }).1) henable htype rfl rfl hheld'
        (fun h3 hor => (hkept hheld.running hheld.byHand).2 h3 hheld.alarm hor)
      have hstopped : (tickOf chn recCfg clock replies s).stopped ↔ .recordStop chn ∈
          (ctrlConfigured chn recCfg clock replies
            (keepRec { s.chn chn with overwrite := o }).1).2 := by
        simp only [tickOf, List.contains_iff_mem, hstop]
        simp [keepRec]
      rw [hstopped, hchn]
      exact hctrl

/-- A recording on hold that no tick of a run stops has used up as many ticks of
its hold as the run has quiet ones at its end. -/
theorem held_of_run (hrun : Run (Restrict (RecStep chn recCfg) (Kept chn recCfg)) s evs t)
    (henable : recCfg.u8Enable ≠ 0) (htype : recCfg.u8RecType = 2 ∨ recCfg.u8RecType = 3)
    (hmanual : (s.chn chn).manualRec = 0) (hheld : Held 0 (s.chn chn))
    (hgo : ∀ tick ∈ evs.filterMap id, ¬ tick.stopped) :
    Held (quietTail recCfg.u8RecType (evs.filterMap id)) (t.chn chn) := by
  induction hrun with
  | nil => exact hheld
  | @snoc evs u v ev hrun hstep ih =>
      rw [List.filterMap_append] at hgo ⊢
      have hu := ih fun tick ht => hgo tick (List.mem_append_left _ ht)
      have hmanual' : (u.chn chn).manualRec = 0 :=
        hrun.invariant (I := fun s => (s.chn chn).manualRec = 0)
          (fun hm hs => hs.1.manualRec hm) hmanual
      cases ev with
      | none =>
          obtain ⟨happen, hv⟩ := hstep.1.none
          rw [hv, List.filterMap_cons_none rfl, List.filterMap_nil, List.append_nil]
          exact ⟨hu.running, hu.alarm, hu.byHand, hu.alarmSec⟩
      | some tick =>
          have hgo' : ¬ tick.stopped := hgo tick (by simp)
          have hv := (hstep.1.held hstep.2 henable htype hmanual' hu).2 hgo'
          rw [← quietTail_concat] at hv
          exact hv

end

/-! ## Ticks by execution -/

section

variable (chn : Chn) (recCfg : RecCfg) (replies : Replies)

/-- One tick after the other, each with the alarm flag and the time it finds. -/
def runTicks : List (Int × Clock) → NvrRec → List (Option Tick) × NvrRec
  | [], s => ([], s)
  | (happen, clock) :: rest, s =>
      let s := nvrRecAlarm chn happen s
      let r := runTicks rest (nvrRecCtrl chn recCfg clock replies s).1
      (none :: some (tickOf chn recCfg clock replies s) :: r.1, r.2)

/-- Each of these ticks finds what it has to find. -/
def keptTicks : List (Int × Clock) → NvrRec → Bool
  | [], _ => true
  | (happen, clock) :: rest, s =>
      let s := nvrRecAlarm chn happen s
      decide (Kept chn recCfg s (some (tickOf chn recCfg clock replies s))) &&
        keptTicks rest (nvrRecCtrl chn recCfg clock replies s).1

theorem runTicks_run : ∀ (ticks : List (Int × Clock)) (s : NvrRec),
    Run (RecStep chn recCfg) s (runTicks chn recCfg replies ticks s).1
      (runTicks chn recCfg replies ticks s).2
  | [], _ => .nil
  | (happen, clock) :: rest, s =>
      (Run.single (.alarm s chn happen)).append
        ((Run.single (.tick _ clock replies)).append (runTicks_run rest _))

theorem runTicks_kept : ∀ {ticks : List (Int × Clock)} {s : NvrRec},
    keptTicks chn recCfg replies ticks s →
    Run (Restrict (RecStep chn recCfg) (Kept chn recCfg)) s
      (runTicks chn recCfg replies ticks s).1 (runTicks chn recCfg replies ticks s).2
  | [], _, _ => .nil
  | (happen, clock) :: rest, s, h => by
      rw [keptTicks, Bool.and_eq_true, decide_eq_true_iff] at h
      exact (Run.single ⟨.alarm s chn happen, trivial⟩).append
        ((Run.single ⟨.tick _ clock replies, h.1⟩).append (runTicks_kept h.2))

end

/-- If every tick finds what it has to find, alarm recordings are held. -/
theorem alarmHeld_of_kept {chn : Chn} {recCfg : RecCfg} {s t : NvrRec}
    {evs : List (Option Tick)} (henable : recCfg.u8Enable ≠ 0)
    (htype : recCfg.u8RecType = 2 ∨ recCfg.u8RecType = 3) (hmanual : (s.chn chn).manualRec = 0)
    (hrun : Run (Restrict (RecStep chn recCfg) (Kept chn recCfg)) s evs t) :
    AlarmHeld recCfg.u8RecType (evs.filterMap id) := by
  intro pre a mid z post hticks halarm hrunning hgo hstop
  -- the run up to the alarm, from there to the stop, and the rest
  obtain ⟨pre', rest, rfl, -, hrest⟩ := List.filterMap_eq_append_iff.1 hticks
  obtain ⟨gap, ev, rest₁, rfl, -, rfl, hrest₁⟩ := List.filterMap_eq_cons_iff.1 hrest
  obtain ⟨mid', rest₂, rfl, hmid, hrest₂⟩ := List.filterMap_eq_append_iff.1 hrest₁
  obtain ⟨gap', ev', post', rfl, hgap, rfl, -⟩ := List.filterMap_eq_cons_iff.1 hrest₂
  obtain ⟨u₀, hpre, hrun⟩ := hrun.of_append
  obtain ⟨u₁, hgap₁, hrun⟩ := hrun.of_append
  obtain ⟨u₂, ha, hrun⟩ := hrun.of_cons
  obtain ⟨u₃, hmid₁, hrun⟩ := hrun.of_append
  obtain ⟨u₄, hmid₂, hrun⟩ := hrun.of_append
  obtain ⟨u₅, hz, -⟩ := hrun.of_cons
  have hkeep : ∀ {u v evs}, Run (Restrict (RecStep chn recCfg) (Kept chn recCfg)) u evs v →
      (u.chn chn).manualRec = 0 → (v.chn chn).manualRec = 0 := fun hr hm =>
    hr.invariant (I := fun s => (s.chn chn).manualRec = 0) (fun hm hs => hs.1.manualRec hm) hm
  have hm₁ := hkeep hgap₁ (hkeep hpre hmanual)
  have hm₂ := ha.1.manualRec hm₁
  have hheld₂ := ha.1.held_of_alarm ha.2 henable htype hm₁ halarm hrunning
  have hticks' : (mid' ++ gap').filterMap id = mid := by
    rw [List.filterMap_append, hmid, List.filterMap_eq_nil_iff.2 hgap, List.append_nil]
  have hheld₄ := held_of_run (hmid₁.append hmid₂) henable htype hm₂ hheld₂
    (by rw [hticks']; exact hgo)
  rw [hticks'] at hheld₄
  have hm₄ := hkeep (hmid₁.append hmid₂) hm₂
  obtain ⟨hquiet, h60⟩ := (hz.1.held hz.2 henable htype hm₄ hheld₄).1 hstop
  have htail : 60 ≤ quietTail recCfg.u8RecType (mid ++ [z]) := by
    rw [quietTail_concat, if_pos hquiet]
    exact h60
  obtain ⟨w, v, hwv, hlen, hv⟩ := exists_quiet_suffix htail
  exact ⟨w, v, [], by rw [List.append_nil, hwv], hlen, hv, by simp⟩

/-- On alarm, without a schedule, and with a schedule of one second a day. -/
def alarmOnly : RecCfg where
  u8OverWrite := 1
  u8RecStream := 0
  u8Enable := 1
  u8RecType := 2
  struTimerSeg _ _ := ⟨0, 0, 0⟩

def alarmAndSecond : RecCfg :=
  { alarmOnly with u8RecType := 3, struTimerSeg := fun _ day => ⟨if day = 0 then 1 else 0, 0, 0⟩ }

/-- Every call of the library succeeds. -/
def obliging : Replies := ⟨false, 0, 0, 0⟩

/-- An alarm that ends, and is held for sixty ticks. -/
theorem alarmHeld_of_kept_alarmOnly :
    let ticks := (runTicks 0 alarmOnly obliging
      ((1, ⟨0, 0⟩) :: (List.range 60).map fun i => (0, ⟨i, 0⟩)) nvrRecInit).1.filterMap id
    ticks.map (·.stopped) = List.replicate 60 false ++ [true] ∧ AlarmHeld 2 ticks :=
  ⟨by decide +kernel, @alarmHeld_of_kept 0 alarmOnly _ _ _ (by decide) (by decide) (by decide)
    (runTicks_kept _ _ _ (by decide +kernel))⟩

/-- A recording that the schedule has started is not held: the alarm comes while
it runs, and the first quiet tick stops it. -/
theorem not_alarmHeld :
    ¬ ∀ (chn : Chn) (recCfg : RecCfg) (s t : NvrRec) (evs : List (Option Tick)),
      recCfg.u8Enable ≠ 0 → recCfg.u8RecType = 2 ∨ recCfg.u8RecType = 3 →
      (s.chn chn).manualRec = 0 → Run (RecStep chn recCfg) s evs t →
        AlarmHeld recCfg.u8RecType (evs.filterMap id) := by
  intro h
  have hrun := runTicks_run 0 alarmAndSecond obliging
    [(0, ⟨0, 0⟩), (1, ⟨0, 0⟩), (0, ⟨1, 0⟩)] nvrRecInit
  have hheld := h _ _ _ _ _ (by decide) (by decide) (by decide) hrun
  obtain ⟨u, v, w, hmid, hlen, -, -⟩ := hheld [⟨false, true, true, false⟩] ⟨true, true, true, false⟩
    [] ⟨false, false, false, true⟩ [] (by decide +kernel) rfl rfl (by simp) rfl
  have := congrArg List.length hmid
  simp at this
  omega

end Nvr.Server
