import Mathlib.Data.Fintype.Pi
import Mathlib.Data.Nat.Bitwise
import Nvr.Lib.Run
import Nvr.Storage.Record

/-!
# Which recordings go on after a format

While a format runs, a stop is to take the bit of its channel out of
`g_record_chn_bak`, but adds the complement of the bit, which takes off the bit
and one more. What is left at the end are the channels' bits less a sum, and
that is the right set exactly when the sum is, modulo the number of sets.
-/

namespace Nvr.Storage

/-! ## Masks -/

theorem toNat_chnBit (chn : Chn) : (chnBit (chnWord chn)).toNat = 2 ^ chn.val := by
  revert chn
  decide

theorem hasChn_iff (mask : UInt32) (chn : Chn) :
    HasChn mask chn ↔ mask.toNat.testBit chn.val = true := by
  have hand : (mask &&& chnBit (chnWord chn)).toNat =
      (mask.toNat.testBit chn.val).toNat * 2 ^ chn.val := by
    rw [UInt32.toNat_and, toNat_chnBit, Nat.and_two_pow]
  unfold HasChn Flag.Has
  rw [ne_eq, ← UInt32.toNat_inj, hand]
  cases mask.toNat.testBit chn.val <;> simp

theorem chnBit_ne_zero (chn : Chn) : chnBit (chnWord chn) ≠ 0 := by
  revert chn
  decide

theorem chnBit_disjoint {chn c : Chn} (h : chn ≠ c) :
    chnBit (chnWord chn) &&& chnBit (chnWord c) = 0 := by
  revert chn c
  decide

theorem hasChn_or (mask : UInt32) (chn c : Chn) :
    HasChn (mask ||| chnBit (chnWord chn)) c ↔ c = chn ∨ HasChn mask c := by
  by_cases h : c = chn
  · subst h
    exact iff_of_true (Flag.has_or_self (chnBit_ne_zero c)) (.inl rfl)
  · unfold HasChn
    rw [Flag.has_or_of_disjoint (chnBit_disjoint (Ne.symm h))]
    simp [h]

theorem hasChn_and_not (mask : UInt32) (chn c : Chn) :
    HasChn (mask &&& ~~~chnBit (chnWord chn)) c ↔ c ≠ chn ∧ HasChn mask c := by
  by_cases h : c = chn
  · subst h
    exact iff_of_false (Flag.not_has_and_not_self _ _) (fun hn => hn.1 rfl)
  · unfold HasChn
    rw [Flag.has_and_not_of_disjoint (chnBit_disjoint (Ne.symm h))]
    simp [h]

/-- The sum of the bits of some channels. -/
def chnSum (f : Chn → Bool) : Nat :=
  ((List.finRange maxChn).map fun chn => if f chn then 2 ^ chn.val else 0).sum

theorem testBit_chnSum (f : Chn → Bool) (chn : Chn) : (chnSum f).testBit chn.val = f chn := by
  revert f chn
  decide

theorem chnSum_lt (f : Chn → Bool) : chnSum f < 2 ^ maxChn := by
  revert f
  decide

theorem chnSum_split (f g : Chn → Bool) :
    chnSum f = chnSum (fun chn => f chn && !g chn) + chnSum fun chn => f chn && g chn := by
  revert f g
  decide

/-- A number below 2 ^ `MAX_CHN` is known by the bits of the channels. -/
theorem eq_of_testBit {a b : Nat} (ha : a < 2 ^ maxChn) (hb : b < 2 ^ maxChn)
    (h : ∀ chn : Chn, a.testBit chn.val = b.testBit chn.val) : a = b := by
  refine Nat.eq_of_testBit_eq fun i => ?_
  by_cases hi : i < maxChn
  · exact h ⟨i, hi⟩
  · have hle : 2 ^ maxChn ≤ 2 ^ i := Nat.pow_le_pow_right (by decide) (by omega)
    rw [Nat.testBit_lt_two_pow (lt_of_lt_of_le ha hle),
      Nat.testBit_lt_two_pow (lt_of_lt_of_le hb hle)]

/-- The channels whose bits are in a mask. -/
theorem hasChn_iff_mod {mask : UInt32} {f : Chn → Bool} :
    (∀ chn, HasChn mask chn ↔ f chn = true) ↔ mask.toNat % 2 ^ maxChn = chnSum f := by
  have hbit : ∀ chn : Chn, (mask.toNat % 2 ^ maxChn).testBit chn.val =
      mask.toNat.testBit chn.val := by
    intro chn
    rw [Nat.testBit_mod_two_pow, decide_eq_true chn.isLt, Bool.true_and]
  constructor
  · intro h
    refine eq_of_testBit (Nat.mod_lt _ (by decide)) (chnSum_lt f) fun chn => ?_
    have hchn := h chn
    rw [hasChn_iff] at hchn
    rw [hbit, testBit_chnSum]
    exact Bool.eq_iff_iff.2 hchn
  · intro h chn
    rw [hasChn_iff, ← hbit, h, testBit_chnSum]

/-- The bits of some channels less a sum are those of the channels without
others exactly when the sum is that of the others. -/
theorem hasChn_sub_iff {mask : UInt32} {f g : Chn → Bool}
    (hmask : ∀ chn, HasChn mask chn ↔ f chn = true) (n : Nat) :
    (∀ chn, HasChn (mask - UInt32.ofNat n) chn ↔ (f chn && !g chn) = true) ↔
      n % 2 ^ maxChn = chnSum fun chn => f chn && g chn := by
  have hlow := hasChn_iff_mod.1 hmask
  have hsplit := chnSum_split f g
  have hlt := chnSum_lt fun chn => f chn && !g chn
  have hlt' := chnSum_lt fun chn => f chn && g chn
  have hsub : (mask - UInt32.ofNat n).toNat = (2 ^ 32 - n % 2 ^ 32 + mask.toNat) % 2 ^ 32 := by
    rw [UInt32.toNat_sub, UInt32.toNat_ofNat']
  rw [hasChn_iff_mod, hsub]
  unfold maxChn at hlow hlt hlt' ⊢
  omega

/-! ## Starting and stopping -/

/-- The record of each channel agrees with the bits of `g_record_chn`. -/
structure Agrees (r : Recorder) : Prop where
  mask : ∀ chn, HasChn r.recordChn chn ↔ FormatState.recording r chn = true
  own : ∀ chn, FormatState.recording r chn = true → (r.writeInfo chn).chn = chn
  stream : ∀ chn, (r.writeInfo chn).stream < 2

theorem agrees_init : Agrees strgRecordInit where
  mask chn := iff_of_false (Flag.not_has_zero _) Bool.false_ne_true
  own _ h := by cases h
  stream _ := by
    show (0 : Int32) < 2
    decide

section Calls

variable {r : Recorder}

theorem recording_update (r : Recorder) (chn c : Chn) (w : RecordWriteInfo) (mask : UInt32) :
    FormatState.recording { r with writeInfo := Function.update r.writeInfo chn w, recordChn := mask } c =
      if c = chn then w.enable else FormatState.recording r c := by
  unfold FormatState.recording
  dsimp only
  rw [Function.update_apply]
  split <;> rfl

/-- What `strg_record_start` does to a channel when no format runs. -/
theorem strgRecordStart_spec (h : Agrees r) (chn : Chn) (stream : Int32)
    (recordType : RecordType) :
    Agrees (strgRecordStart r chn stream recordType).2 ∧
      (strgRecordStart r chn stream recordType).2.formatStatus = r.formatStatus ∧
      (strgRecordStart r chn stream recordType).2.recordChnBak = r.recordChnBak := by
  unfold strgRecordStart
  split
  · exact ⟨h, rfl, rfl⟩
  next hstream =>
    split
    · exact ⟨h, rfl, rfl⟩
    · split
      · exact ⟨h, rfl, rfl⟩
      · refine ⟨⟨fun c => ?_, fun c hc => ?_, fun c => ?_⟩, rfl, rfl⟩
        · rw [recording_update, hasChn_or, h.mask]
          split
          next heq => simp [heq]
          next hne => simp [hne]
        · rw [recording_update] at hc
          dsimp only
          rw [Function.update_apply]
          split
          next heq => exact heq.symm
          next hne =>
            rw [if_neg hne] at hc
            exact h.own c hc
        · dsimp only
          rw [Function.update_apply]
          split
          · exact Decidable.not_not.1 hstream
          · exact h.stream c

/-- Starting a channel leaves it recording, whether it did before or not. -/
theorem recording_start (h : r.formatStatus = false) {chn : Chn} {stream : Int32}
    (hstream : stream < 2) (recordType : RecordType) (c : Chn) :
    FormatState.recording (strgRecordStart r chn stream recordType).2 c =
      (decide (c = chn) || FormatState.recording r c) := by
  have hstatus : ¬ r.formatStatus = true := by simp [h]
  unfold strgRecordStart
  rw [if_neg (not_not.2 hstream), if_neg hstatus]
  by_cases hon : (r.writeInfo chn).enable = true
  · rw [if_pos hon]
    by_cases heq : c = chn
    · subst heq
      have hc : FormatState.recording r c = true := hon
      rw [hc, Bool.or_true]
    · simp [heq]
  · rw [if_neg hon]
    dsimp only
    rw [recording_update]
    by_cases heq : c = chn <;> simp [heq]

theorem strgRecordStopNow_spec (h : Agrees r) (chn : Chn) :
    Agrees (strgRecordStopNow r chn) ∧
      (∀ c, FormatState.recording (strgRecordStopNow r chn) c =
        (decide (c ≠ chn) && FormatState.recording r c)) ∧
      ∀ c, ((strgRecordStopNow r chn).writeInfo c).chn = (r.writeInfo c).chn := by
  have hrecording : ∀ c, FormatState.recording (strgRecordStopNow r chn) c =
      (decide (c ≠ chn) && FormatState.recording r c) := by
    intro c
    unfold strgRecordStopNow
    rw [recording_update]
    split
    next heq => simp [heq]
    next hne => simp [hne]
  have hfields : ∀ c, ((strgRecordStopNow r chn).writeInfo c).chn = (r.writeInfo c).chn ∧
      ((strgRecordStopNow r chn).writeInfo c).stream = (r.writeInfo c).stream := by
    intro c
    unfold strgRecordStopNow
    dsimp only
    rw [Function.update_apply]
    split
    next heq => rw [heq]; exact ⟨rfl, rfl⟩
    next hne => exact ⟨rfl, rfl⟩
  refine ⟨⟨fun c => ?_, fun c hc => ?_, fun c => ?_⟩, hrecording, fun c => (hfields c).1⟩
  · rw [hrecording]
    show HasChn (r.recordChn &&& _) c ↔ _
    rw [hasChn_and_not, h.mask]
    simp
  · rw [hrecording, Bool.and_eq_true] at hc
    rw [(hfields c).1]
    exact h.own c hc.2
  · rw [(hfields c).2]
    exact h.stream c

/-- After stopping the channels of a list, none of them records. -/
theorem foldl_stops (l : List Chn) :
    ∀ {r : Recorder}, Agrees r → Agrees (l.foldl strgRecordStopNow r) ∧
      (∀ c, FormatState.recording (l.foldl strgRecordStopNow r) c =
        (decide (c ∉ l) && FormatState.recording r c)) ∧
      (∀ c, ((l.foldl strgRecordStopNow r).writeInfo c).chn = (r.writeInfo c).chn) ∧
      (l.foldl strgRecordStopNow r).formatStatus = r.formatStatus ∧
      (l.foldl strgRecordStopNow r).recordChnBak = r.recordChnBak := by
  induction l with
  | nil => exact fun h => ⟨h, fun c => by simp, fun _ => rfl, rfl, rfl⟩
  | cons chn l ih =>
      intro r h
      obtain ⟨hagrees, hrecording, hchn⟩ := strgRecordStopNow_spec h chn
      obtain ⟨hagrees', hrecording', hchn', hstatus, hbak⟩ := ih hagrees
      refine ⟨hagrees', fun c => ?_, fun c => ?_, hstatus, hbak⟩
      · rw [List.foldl_cons, hrecording', hrecording]
        by_cases heq : c = chn
        · simp [heq]
        · simp [heq]
      · rw [List.foldl_cons, hchn', hchn]

theorem stopAll_spec (h : Agrees r) :
    Agrees (stopAll r) ∧ (∀ c, FormatState.recording (stopAll r) c = false) ∧
      (∀ c, ((stopAll r).writeInfo c).chn = (r.writeInfo c).chn) ∧
      (stopAll r).formatStatus = r.formatStatus ∧ (stopAll r).recordChnBak = r.recordChnBak := by
  obtain ⟨hagrees, hrecording, hrest⟩ := foldl_stops (List.finRange maxChn) h
  refine ⟨hagrees, fun c => ?_, hrest⟩
  unfold stopAll
  rw [hrecording, decide_eq_false (not_not.2 (List.mem_finRange c)), Bool.false_and]

/-- Each turn of a loop that starts channels keeps what `strg_record_start` keeps. -/
theorem foldl_agrees {step : Recorder → Chn → Recorder}
    (hstep : ∀ r c, Agrees r → Agrees (step r c) ∧ (step r c).formatStatus = r.formatStatus)
    (l : List Chn) : ∀ {r : Recorder}, Agrees r →
      Agrees (l.foldl step r) ∧ (l.foldl step r).formatStatus = r.formatStatus := by
  induction l with
  | nil => exact fun h => ⟨h, rfl⟩
  | cons c l ih =>
      intro r h
      obtain ⟨hagrees, hstatus⟩ := hstep r c h
      obtain ⟨hagrees', hstatus'⟩ := ih hagrees
      exact ⟨hagrees', hstatus'.trans hstatus⟩

theorem restartRecordChn_agrees (mask : UInt32) (h : Agrees r) :
    Agrees (restartRecordChn mask r) ∧
      (restartRecordChn mask r).formatStatus = r.formatStatus := by
  refine foldl_agrees (fun r c hr => ?_) _ h
  split
  · exact ⟨(strgRecordStart_spec hr _ _ _).1, (strgRecordStart_spec hr _ _ _).2.1⟩
  · exact ⟨hr, rfl⟩

theorem restartRecordChnBak_agrees (h : Agrees r) :
    Agrees (restartRecordChnBak r) ∧
      (restartRecordChnBak r).formatStatus = r.formatStatus := by
  refine foldl_agrees (fun r c hr => ?_) _ h
  split
  · exact ⟨(strgRecordStart_spec hr _ _ _).1, (strgRecordStart_spec hr _ _ _).2.1⟩
  · exact ⟨hr, rfl⟩

/-- Starting the channels of a list whose bits are in a mask. -/
theorem foldl_starts (mask : UInt32) (l : List Chn) :
    ∀ {r : Recorder}, Agrees r → r.formatStatus = false → ∀ c,
      FormatState.recording (l.foldl (fun r chn =>
        if HasChn mask chn then
          (strgRecordStart r chn (r.writeInfo chn).stream (r.writeInfo chn).recordType).2
        else r) r) c =
      (FormatState.recording r c || decide (c ∈ l ∧ HasChn mask c)) := by
  induction l with
  | nil =>
      intro r _ _ c
      simp
  | cons chn l ih =>
      intro r h hstatus c
      rw [List.foldl_cons]
      by_cases hbit : HasChn mask chn
      · rw [if_pos hbit]
        obtain ⟨hagrees, hstatus', -⟩ :=
          strgRecordStart_spec h chn (r.writeInfo chn).stream (r.writeInfo chn).recordType
        rw [ih hagrees (hstatus'.trans hstatus), recording_start hstatus (h.stream chn)]
        by_cases heq : c = chn
        · simp [heq, hbit]
        · simp [heq]
      · rw [if_neg hbit, ih h hstatus]
        by_cases heq : c = chn
        · simp [heq, hbit]
        · simp [heq]

theorem recording_restartRecordChn (mask : UInt32) (h : Agrees r) (hstatus : r.formatStatus = false)
    (c : Chn) : FormatState.recording (restartRecordChn mask r) c =
      (FormatState.recording r c || decide (HasChn mask c)) := by
  unfold restartRecordChn
  rw [foldl_starts mask _ h hstatus]
  simp

theorem writeInfo_start (chn : Chn) (stream : Int32) (recordType : RecordType) {c : Chn}
    (h : (r.writeInfo c).chn = c) :
    ((strgRecordStart r chn stream recordType).2.writeInfo c).chn = c := by
  unfold strgRecordStart
  split
  · exact h
  · split
    · exact h
    · split
      · exact h
      · dsimp only
        rw [Function.update_apply]
        split
        next heq => exact heq.symm
        next hne => exact h

/-- Where the records of the channels hold their own numbers, the loop goes by them. -/
theorem restartRecordChnBak_eq (h : Agrees r)
    (hown : ∀ c, HasChn r.recordChnBak c → (r.writeInfo c).chn = c) :
    restartRecordChnBak r = restartRecordChn r.recordChnBak r := by
  unfold restartRecordChnBak restartRecordChn
  generalize hmask : r.recordChnBak = mask at hown
  generalize List.finRange maxChn = l
  induction l generalizing r with
  | nil => rfl
  | cons chn l ih =>
      rw [List.foldl_cons, List.foldl_cons, hmask]
      by_cases hbit : HasChn mask chn
      · rw [if_pos hbit, if_pos hbit, hown chn hbit]
        obtain ⟨hagrees, -, hbak⟩ :=
          strgRecordStart_spec h chn (r.writeInfo chn).stream (r.writeInfo chn).recordType
        exact ih hagrees (hbak.trans hmask) fun c hc => writeInfo_start _ _ _ (hown c hc)
      · rw [if_neg hbit, if_neg hbit]
        exact ih h hmask hown

end Calls

/-! ## The invariant of a format -/

/-- What is left of the bits in `g_record_chn_bak`. -/
def lateSum (late : List Chn) : Nat := (late.map fun chn => 2 ^ chn.val + 1).sum

/-- Adding the complement of a bit takes off the bit and one more. -/
theorem sub_add_compl (mask : UInt32) (late : List Chn) (chn : Chn) :
    mask - UInt32.ofNat (lateSum late) + ~~~chnBit (chnWord chn) =
      mask - UInt32.ofNat (lateSum (chn :: late)) := by
  have hcompl : ~~~chnBit (chnWord chn) = 0 - UInt32.ofNat (2 ^ chn.val + 1) := by
    revert chn
    decide
  have hsum : lateSum (chn :: late) = 2 ^ chn.val + 1 + lateSum late := by
    simp [lateSum]
  have hassoc : ∀ a b : UInt32, mask - a + (0 - b) = mask - (b + a) := by
    intro a b
    grind
  rw [hcompl, hsum, UInt32.ofNat_add (2 ^ chn.val + 1), hassoc]

/-- The bits of the channels that recorded, less what the stops took off. -/
def Left (s : FormatState) : Prop :=
  ∃ mask, (∀ chn, HasChn mask chn ↔ s.begun chn = true) ∧
    s.mng.recordChnBak = mask - UInt32.ofNat (lateSum s.late)

/-- What holds at each step of a format. -/
def AtPhase (s : FormatState) : Prop :=
  match s.phase with
  | .idle => s.mng.formatStatus = false
  | .entered =>
      s.mng.formatStatus = true ∧ FormatState.recording s.mng = s.begun ∧ s.late = []
  | .started => s.mng.formatStatus = true ∧ FormatState.recording s.mng = s.begun ∧ Left s
  | .closed recordChn =>
      s.mng.formatStatus = true ∧ (∀ chn, HasChn recordChn chn ↔ s.begun chn = true) ∧
        (∀ chn, FormatState.recording s.mng chn = false) ∧
        (∀ chn, s.begun chn = true → (s.mng.writeInfo chn).chn = chn) ∧ Left s
  | .formatting =>
      s.mng.formatStatus = true ∧
        (∀ chn, FormatState.recording s.mng chn = false) ∧
        (∀ chn, s.begun chn = true → (s.mng.writeInfo chn).chn = chn) ∧ Left s

/-- When the right recordings are started again. -/
def Format.Judged (f : Format) : Prop :=
  (f.Spared → f.RestartsRight) ∧ ((∀ chn, f.chns chn = chn) → f.RestartsRight → f.Spared)

structure Sound (s : FormatState) : Prop where
  agrees : Agrees s.mng
  phase : AtPhase s
  formats : ∀ f ∈ s.formats, f.Judged

theorem sound_init : Sound FormatState.init where
  agrees := agrees_init
  phase := rfl
  formats _ hf := absurd hf List.not_mem_nil

section Formats

variable {f : Format}

/-- After a format that could not be started, all that was stopped is started again. -/
theorem judged_failed (hok : f.ok = false) (hall : f.restarted = f.begun) : f.Judged := by
  unfold Format.Judged Format.Spared Format.RestartsRight
  rw [hok, hall, if_neg Bool.false_ne_true]
  constructor
  · intro hspared chn
    by_cases hmem : chn ∈ f.early ++ f.late
    · rw [hspared chn hmem, Bool.false_and]
    · simp [hmem]
  · intro _ hright chn hmem
    have hchn := hright chn
    rw [List.contains_iff_mem.2 hmem] at hchn
    simpa using hchn

/-- After a format that was, the right recordings are started again exactly when
the stops took off the right sum. -/
theorem judged_done {bak mask : UInt32} (hok : f.ok = true)
    (hmask : ∀ chn, HasChn mask chn ↔ f.begun chn = true)
    (hbak : bak = mask - UInt32.ofNat f.taken)
    (hown : ∀ chn, f.begun chn = true → f.chns chn = chn)
    (hrestarted : (∀ chn, HasChn bak chn → f.chns chn = chn) →
      ∀ chn, f.restarted chn = decide (HasChn bak chn)) : f.Judged := by
  have howed : f.owed % 2 ^ maxChn = f.owed := Nat.mod_eq_of_lt (chnSum_lt _)
  have hbits : (∀ chn, HasChn bak chn ↔
      (f.begun chn && !(f.early ++ f.late).contains chn) = true) ↔
      f.taken % 2 ^ maxChn = f.owed := by
    rw [hbak]
    exact hasChn_sub_iff hmask f.taken
  unfold Format.Judged Format.Spared Format.RestartsRight
  rw [hok, if_pos rfl, howed]
  constructor
  · intro hsum
    have hright := hbits.2 hsum
    intro chn
    rw [hrestarted fun c hc => hown c (Bool.and_eq_true_iff.1 ((hright c).1 hc)).1]
    exact Bool.eq_iff_iff.2 (by simpa using hright chn)
  · intro hchns hright
    refine hbits.1 fun chn => ?_
    rw [← hright chn, hrestarted fun c _ => hchns c]
    exact decide_eq_true_iff.symm

end Formats

section Steps

variable {s : FormatState}

/-- `g_format_status` says whether a format runs. -/
theorem AtPhase.idle_iff (h : AtPhase s) : s.mng.formatStatus = false ↔ s.phase = .idle := by
  unfold AtPhase at h
  split at h
  next hphase => exact iff_of_true h hphase
  all_goals
    next hphase =>
      rw [h.1, hphase]
      simp

theorem atPhase_idle (hphase : s.phase = .idle) (h : s.mng.formatStatus = false) : AtPhase s := by
  unfold AtPhase
  rw [hphase]
  exact h

theorem Sound.start (h : Sound s) (chn : Chn) (stream : Int32) (recordType : RecordType) :
    Sound (s.call (.start chn stream recordType)) := by
  obtain ⟨hagrees, hstatus, -⟩ := strgRecordStart_spec h.agrees chn stream recordType
  refine ⟨hagrees, ?_, h.formats⟩
  by_cases hformat : s.mng.formatStatus = true
  · have hsame : (strgRecordStart s.mng chn stream recordType).2 = s.mng := by
      unfold strgRecordStart
      split
      · rfl
      · rfl
    unfold FormatState.call
    dsimp only
    rw [hsame]
    exact h.phase
  · have hoff : s.mng.formatStatus = false := Bool.eq_false_iff.2 hformat
    exact atPhase_idle (h.phase.idle_iff.1 hoff) (hstatus.trans hoff)

/-- A stop while a format runs takes the bit of its channel and one more. -/
theorem Left.stop {t : FormatState} {chn : Chn} (h : Left s) (hbegun : t.begun = s.begun)
    (hbak : t.mng.recordChnBak = s.mng.recordChnBak + ~~~chnBit (chnWord chn))
    (hlate : t.late = chn :: s.late) : Left t := by
  obtain ⟨mask, hmask, hleft⟩ := h
  refine ⟨mask, hbegun ▸ hmask, ?_⟩
  rw [hbak, hlate, hleft, sub_add_compl]

theorem Sound.stop (h : Sound s) (chn : Chn) : Sound (s.call (.stop chn)) := by
  obtain ⟨mng, phase, begun, early, late, formats⟩ := s
  obtain ⟨hagrees, hphase, hformats⟩ := h
  have hstop : mng.formatStatus = true → strgRecordStop mng chn =
      { mng with recordChnBak := mng.recordChnBak + ~~~chnBit (chnWord chn) } := by
    intro hstatus
    unfold strgRecordStop
    rw [if_pos hstatus]
  have hkept : mng.formatStatus = true → Agrees (strgRecordStop mng chn) := by
    intro hstatus
    rw [hstop hstatus]
    exact ⟨hagrees.mask, hagrees.own, hagrees.stream⟩
  cases phase with
  | idle =>
      have hstatus : mng.formatStatus = false := hphase
      have hnow : strgRecordStop mng chn = strgRecordStopNow mng chn := by
        unfold strgRecordStop
        rw [hstatus, if_neg Bool.false_ne_true]
      refine ⟨?_, ?_, hformats⟩
      · show Agrees (strgRecordStop mng chn)
        rw [hnow]
        exact (strgRecordStopNow_spec hagrees chn).1
      · show (strgRecordStop mng chn).formatStatus = false
        rw [hnow]
        exact hstatus
  | entered =>
      obtain ⟨hstatus, hbegun, hlate⟩ := hphase
      refine ⟨hkept hstatus, ?_, hformats⟩
      show (strgRecordStop mng chn).formatStatus = true ∧
        FormatState.recording (strgRecordStop mng chn) = begun ∧ late = []
      rw [hstop hstatus]
      exact ⟨hstatus, hbegun, hlate⟩
  | started =>
      obtain ⟨hstatus, hbegun, hleft⟩ := hphase
      refine ⟨hkept hstatus, ⟨?_, ?_, hleft.stop rfl ?_ rfl⟩, hformats⟩
      all_goals
        dsimp only [FormatState.call, FormatState.stop]
        rw [hstop hstatus]
      exacts [hstatus, hbegun]
  | closed recordChn =>
      obtain ⟨hstatus, hmask, hoff, hown, hleft⟩ := hphase
      refine ⟨hkept hstatus, ⟨?_, hmask, ?_, ?_, hleft.stop rfl ?_ rfl⟩, hformats⟩
      all_goals
        dsimp only [FormatState.call, FormatState.stop]
        rw [hstop hstatus]
      exacts [hstatus, hoff, hown]
  | formatting =>
      obtain ⟨hstatus, hoff, hown, hleft⟩ := hphase
      refine ⟨hkept hstatus, ⟨?_, ?_, ?_, hleft.stop rfl ?_ rfl⟩, hformats⟩
      all_goals
        dsimp only [FormatState.call, FormatState.stop]
        rw [hstop hstatus]
      exacts [hstatus, hoff, hown]

theorem Sound.format (h : Sound s) : Sound (s.call .format) := by
  unfold FormatState.call
  dsimp only
  split
  · exact h
  · exact ⟨⟨h.agrees.mask, h.agrees.own, h.agrees.stream⟩, ⟨rfl, rfl, rfl⟩, h.formats⟩

/-- The next step of a format; the two last steps end it. -/
theorem Sound.next (h : Sound s) (ok : Bool) : Sound (s.call (.next ok)) := by
  obtain ⟨mng, phase, begun, early, late, formats⟩ := s
  obtain ⟨hagrees, hphase, hformats⟩ := h
  have hended : Agrees { mng with formatStatus := false } :=
    ⟨hagrees.mask, hagrees.own, hagrees.stream⟩
  cases phase with
  | idle => exact ⟨hagrees, hphase, hformats⟩
  | entered =>
      obtain ⟨hstatus, hbegun, hlate⟩ := hphase
      have hlate : late = [] := hlate
      refine ⟨⟨hagrees.mask, hagrees.own, hagrees.stream⟩, ⟨hstatus, hbegun, ?_⟩, hformats⟩
      refine ⟨mng.recordChn, fun chn => ?_, ?_⟩
      · show HasChn mng.recordChn chn ↔ begun chn = true
        rw [hagrees.mask, ← show FormatState.recording mng = begun from hbegun]
      · subst hlate
        exact (UInt32.sub_zero _).symm
  | started =>
      obtain ⟨hstatus, hbegun, hleft⟩ := hphase
      have hbegun : FormatState.recording mng = begun := hbegun
      obtain ⟨hstopped, hoff, hchn, hstatus', hbak⟩ := stopAll_spec hagrees
      refine ⟨hstopped, ⟨hstatus'.trans hstatus, fun chn => ?_, hoff, fun chn hchnb => ?_, ?_⟩,
        hformats⟩
      · show HasChn mng.recordChn chn ↔ begun chn = true
        rw [hagrees.mask, hbegun]
      · exact (hchn chn).trans (hagrees.own chn (by rw [hbegun]; exact hchnb))
      · obtain ⟨mask, hmask, hmaskbak⟩ := hleft
        exact ⟨mask, hmask, hbak.trans hmaskbak⟩
  | closed recordChn =>
      obtain ⟨hstatus, hmask, hoff, hown, hleft⟩ := hphase
      cases ok with
      | true => exact ⟨hagrees, ⟨hstatus, hoff, hown, hleft⟩, hformats⟩
      | false =>
          obtain ⟨hrestarted, hstatus'⟩ := restartRecordChn_agrees recordChn hended
          refine ⟨hrestarted, hstatus', fun f hf => ?_⟩
          obtain hold | hnew := List.mem_append.1 hf
          · exact hformats f hold
          · obtain rfl := List.mem_singleton.1 hnew
            refine judged_failed rfl (funext fun chn => ?_)
            show FormatState.recording (restartRecordChn recordChn _) chn = begun chn
            rw [recording_restartRecordChn recordChn hended rfl]
            have hchn : FormatState.recording { mng with formatStatus := false } chn = false :=
              hoff chn
            rw [hchn, Bool.false_or]
            exact Bool.eq_iff_iff.2 (by simpa using hmask chn)
  | formatting =>
      obtain ⟨hstatus, hoff, hown, mask, hmask, hbak⟩ := hphase
      obtain ⟨hrestarted, hstatus'⟩ := restartRecordChnBak_agrees hended
      refine ⟨hrestarted, hstatus', fun f hf => ?_⟩
      obtain hold | hnew := List.mem_append.1 hf
      · exact hformats f hold
      · obtain rfl := List.mem_singleton.1 hnew
        refine judged_done rfl hmask hbak hown fun hbits chn => ?_
        show FormatState.recording (restartRecordChnBak _) chn = _
        rw [restartRecordChnBak_eq hended hbits, recording_restartRecordChn _ hended rfl]
        have hchn : FormatState.recording { mng with formatStatus := false } chn = false :=
          hoff chn
        rw [hchn, Bool.false_or]

theorem Sound.call (h : Sound s) (c : RecordCall) : Sound (s.call c) := by
  cases c with
  | start chn stream recordType => exact h.start chn stream recordType
  | stop chn => exact h.stop chn
  | format => exact h.format
  | next ok => exact h.next ok

end Steps

/-- The calls and steps, in any order. -/
def RecordStep (s : FormatState) (c : RecordCall) (t : FormatState) : Prop := t = s.call c

theorem sound_of_run {calls : List RecordCall} {t : FormatState}
    (h : Run RecordStep .init calls t) : Sound t := by
  refine h.invariant (fun hs hstep => ?_) sound_init
  rw [hstep]
  exact hs.call _

/-- In every run, each format that has ended starts the right recordings again if
what the stops took off are the bits of the channels to be left out; and where
each channel's record holds its own number, only then. -/
theorem restartsRight_of_spared {calls : List RecordCall} {t : FormatState}
    (h : Run RecordStep .init calls t) : ∀ f ∈ t.formats,
      (f.Spared → f.RestartsRight) ∧
        ((∀ chn, f.chns chn = chn) → f.RestartsRight → f.Spared) :=
  (sound_of_run h).formats

theorem run_calls (calls : List RecordCall) :
    ∀ s, Run RecordStep s calls (calls.foldl FormatState.call s) := by
  induction calls with
  | nil => exact fun s => .nil
  | cons c calls ih => exact fun s => (Run.single (a := c) rfl).append (ih (s.call c))

/-- A format is asked for while the channels record, and ends after the stops. -/
def formatRun (chns stops : List Chn) : List RecordCall :=
  chns.map (fun chn => .start chn 0 0) ++ [.format, .next true, .next true] ++
    stops.map .stop ++ [.next true, .next true]

/-- Channels 0 and 3 record, and channel 3 is to be stopped: with three stops of
channel 2, which does not record, 24 is taken off, and 8 modulo 16. -/
theorem restartsRight_of_spared_carried :
    ∃ f ∈ ((formatRun [0, 3] [3, 2, 2, 2]).foldl FormatState.call .init).formats,
      f.RestartsRight := by
  have hmem : ((formatRun [0, 3] [3, 2, 2, 2]).foldl FormatState.call .init).formats ≠ [] ∧
      ∀ f ∈ ((formatRun [0, 3] [3, 2, 2, 2]).foldl FormatState.call .init).formats,
        f.ok = true ∧ f.taken % 2 ^ maxChn = f.owed % 2 ^ maxChn := by
    decide +kernel
  obtain ⟨f, hf⟩ := List.exists_mem_of_ne_nil _ hmem.1
  obtain ⟨hok, hsum⟩ := hmem.2 f hf
  refine ⟨f, hf, (restartsRight_of_spared (run_calls _ _) f hf).1 ?_⟩
  unfold Format.Spared
  rw [hok]
  exact hsum

/-- Channels 0 and 1 record and channel 0 is to be stopped: 3 - 2 = 1, and it is
channel 0 that records afterwards. -/
theorem not_restartsRight : ¬∀ (calls : List RecordCall) (t : FormatState),
    Run RecordStep .init calls t → ∀ f ∈ t.formats, f.RestartsRight := by
  intro h
  have hone : ∃ f ∈ ((formatRun [0, 1] [0]).foldl FormatState.call .init).formats,
      f.restarted 0 = true ∧ f.late = [0] := by
    decide +kernel
  obtain ⟨f, hf, hagain, hlate⟩ := hone
  have hright := h _ _ (run_calls _ _) f hf 0
  rw [hagain, hlate] at hright
  simp at hright

end Nvr.Storage
