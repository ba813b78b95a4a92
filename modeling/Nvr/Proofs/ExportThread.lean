import Mathlib.Tactic.Ring
import Nvr.Lib.Run
import Nvr.Storage.Export

/-!
# Exports can be finished and restarted

`storage_ext_avi_finish` joins the export thread with the mutex in its hands, and the thread
takes the mutex when it has mounted the disk and with each I-frame. A finish goes well if it finds the
thread behind these places and the thread does not come to one of them any more: after the
frame that it is at, it sees that it has to end, but not before a frame of sound.

Besides that, a thread that cannot be created leaves the flag set; a thread that has cleared
the flag may still be there when the next one is created; and the percentage is right as long
as no more I-frames are read than there are in the list.
-/

namespace Nvr.Storage

/-! ## The law -/

/-- A caller of `storage_ext_avi_finish` waits for a thread that waits for the mutex. -/
def Export.Deadlocked (s : Export) : Prop :=
  s.joining = true ∧ ∃ t ∈ s.threads, t.thid = s.export_thid ∧ t.phase.Locks

/-- No deadlock, one thread at a time, a thread that has not ended its work while the flag is
set, and a percentage between 0 and 99 while an export runs without an error. -/
structure ExportLaw (s : Export) : Prop where
  no_deadlock : ¬s.Deadlocked
  one_thread : s.threads.length ≤ 1
  busy : s.export_flag = true → ∃ t ∈ s.threads, t.phase ≠ .cleared
  percent : ∀ p, s.reported = some p → 0 ≤ p ∧ p ≤ 99

/-- A hundred times the I-frames written, as a `long`, is less than a hundred times one more
than the I-frames in the list. -/
def PercentFits (write_iframe total_iframe : Int) : Prop :=
  total_iframe ≤ 0 ∨ total_iframe = 2147483647 ∨
    (-(total_iframe + 1) < long32 (write_iframe * 100) ∧
      long32 (write_iframe * 100) < 100 * (total_iframe + 1))

/-- An export is not started while the thread of the last one is still there or where no thread
can be created; a finish does not find the thread in front of the mutex; while it waits the
thread does not mount the disk and does not read an I-frame; and the percentage is asked for
when it fits. -/
def Export.Meets (s : Export) : ExportStep → Prop
  | .files query_info udisk malloc create =>
      query_info ≠ [] → udisk = true → s.export_flag = false → malloc = true →
        create = true ∧ s.threads = []
  | .finish => s.export_flag = true → ∀ t ∈ s.threads, ¬t.phase.Locks
  | .joined => True
  | .percent => s.Running → PercentFits s.write_iframe s.total_iframe
  | .thread k io =>
      s.joining = true → ∀ t, s.threads[k]? = some t →
        (t.phase = .begin → ¬(io.udisk = true ∧ io.mount = true)) ∧
          ∀ i, t.phase = .frames i → io.frame ≠ .iframe

/-! ## The percentage -/

theorem long32_of_lt {z : Int} (hlow : -2147483648 ≤ z) (hhigh : z < 2147483648) :
    long32 z = z := by
  rw [long32, Int.bmod_eq_of_le_mul_two] <;> omega

theorem long32_lt (z : Int) : long32 z < 2147483648 := by
  have hlt := @Int.bmod_lt z 4294967296 (by decide)
  unfold long32
  omega

theorem le_long32 (z : Int) : -2147483648 ≤ long32 z := by
  have hle := @Int.le_bmod z 4294967296 (by decide)
  unfold long32
  omega

theorem tdiv_range_iff {x n : Int} (hn : 0 < n) :
    (0 ≤ x.tdiv n ∧ x.tdiv n ≤ 99) ↔ -n < x ∧ x < 100 * n := by
  rcases Int.le_total 0 x with hx | hx
  · have hlt : x / n < 100 ↔ x < 100 * n := Int.ediv_lt_iff_lt_mul hn
    have hnonneg := Int.ediv_nonneg hx hn.le
    rw [Int.tdiv_eq_ediv_of_nonneg hx]
    omega
  · have hlt : -x / n < 1 ↔ -x < 1 * n := Int.ediv_lt_iff_lt_mul hn
    have hnonneg : 0 ≤ -x / n := Int.ediv_nonneg (by omega) hn.le
    have hneg : x.tdiv n = -(-x / n) := by
      rw [← Int.tdiv_eq_ediv_of_nonneg (show 0 ≤ -x by omega), Int.neg_tdiv, Int.neg_neg]
    rw [hneg]
    omega

theorem percent_fits_iff {s : Export} (h : s.export_status = storageErrOk)
    (ht : s.total_iframe < 2147483648) :
    (0 ≤ s.percent ∧ s.percent ≤ 99) ↔ PercentFits s.write_iframe s.total_iframe := by
  have hlow := le_long32 (s.write_iframe * 100)
  have hhigh := long32_lt (s.write_iframe * 100)
  unfold Export.percent PercentFits
  rw [if_pos h]
  generalize long32 (s.write_iframe * 100) = x at hlow hhigh ⊢
  split
  · next hpos =>
      by_cases hmax : s.total_iframe = 2147483647
      · -- the sum wraps, and the quotient is 0 or 1
        have hwrap : long32 (s.total_iframe + 1) = -2147483648 := by rw [hmax]; decide
        have hquot : 0 ≤ x.tdiv (-2147483648) ∧ x.tdiv (-2147483648) ≤ 99 := by
          have hsign : Int.sign 2147483648 = 1 := rfl
          rw [Int.tdiv_neg, Int.tdiv_eq_ediv, hsign]
          omega
        rw [hwrap]
        exact ⟨fun _ => .inr (.inl hmax), fun _ => hquot⟩
      · rw [long32_of_lt (by omega) (by omega), tdiv_range_iff (by omega)]
        constructor
        · intro hrange
          exact .inr (.inr hrange)
        · rintro (hle | hmax' | hrange)
          · omega
          · exact absurd hmax' hmax
          · exact hrange
  · next hneg =>
      exact ⟨fun _ => .inl (by omega), fun _ => by decide⟩

/-! ## The invariant -/

variable {s u : Export} {a : ExportStep}

/-- There is at most one thread, the one that was created last; the flag tells whether it is at
work; and it is not in front of the mutex while somebody waits for it. -/
structure ExportSound (s : Export) : Prop where
  one_thread : s.threads.length ≤ 1
  thids : ∀ t ∈ s.threads, t.thid = s.export_thid
  busy : s.export_flag = true ↔ ∃ t ∈ s.threads, t.phase ≠ .cleared
  waits : s.joining = true → ∀ t ∈ s.threads, ¬t.phase.Locks
  total_lt : s.total_iframe < 2147483648
  percent : ∀ p, s.reported = some p → 0 ≤ p ∧ p ≤ 99

theorem exportSound_init : ExportSound .init where
  one_thread := by decide
  thids := nofun
  busy := by decide
  waits := nofun
  total_lt := by decide
  percent := nofun

theorem ExportSound.law (h : ExportSound s) : ExportLaw s where
  no_deadlock := fun ⟨hjoin, t, ht, _, hlocks⟩ => h.waits hjoin t ht hlocks
  one_thread := h.one_thread
  busy := h.busy.1
  percent := h.percent

/-! ### The callers -/

/-- The variables that a start puts back. -/
def Export.fresh (s : Export) : Export :=
  { s with
    export_exit := false
    write_iframe := 0
    total_iframe := 0
    export_status := storageErrOk }

/-- What a start comes to: nothing, or no memory, or an attempt to create the thread. -/
theorem aviFiles_cases (s : Export) (query_info : List RecordQueryInfo)
    (udisk malloc create : Bool) :
    (s.aviFiles query_info udisk malloc create).1 = s ∨
      (s.export_flag = false ∧
        (s.aviFiles query_info udisk malloc create).1 = { s.fresh with export_flag := false }) ∨
      ((query_info ≠ [] ∧ udisk = true ∧ s.export_flag = false ∧ malloc = true) ∧
        (s.aviFiles query_info udisk malloc create).1 =
          if create then
            { s.fresh with
              export_flag := true, export_num := query_info.length,
              export_thid := s.export_thid + 1,
              threads := s.threads ++ [⟨s.export_thid + 1, query_info, .begin⟩] }
          else { s.fresh with export_flag := true, export_num := query_info.length }) := by
  unfold Export.aviFiles
  split
  · exact .inl rfl
  · next hsome =>
      split
      · exact .inl rfl
      · next hudisk =>
          split
          · exact .inl rfl
          · next hflag =>
              have hflag : s.export_flag = false := by simpa using hflag
              cases malloc with
              | false => exact .inr (.inl ⟨hflag, rfl⟩)
              | true =>
                  refine .inr (.inr ⟨⟨hsome, by simpa using hudisk, hflag, rfl⟩, ?_⟩)
                  cases create <;> rfl

theorem ExportSound.files (h : ExportSound s) (hfree : s.joining = false)
    {query_info : List RecordQueryInfo} {udisk malloc create : Bool}
    (hok : s.Meets (.files query_info udisk malloc create)) :
    ExportSound (s.aviFiles query_info udisk malloc create).1 := by
  rcases aviFiles_cases s query_info udisk malloc create with
    heq | ⟨hflag, heq⟩ | ⟨⟨hsome, hudisk, hflag, hmalloc⟩, heq⟩
  · rw [heq]
    exact h
  · rw [heq]
    have hbusy := h.busy
    rw [hflag] at hbusy
    exact ⟨h.one_thread, h.thids, hbusy, h.waits, show (0 : Int) < _ by decide, h.percent⟩
  · obtain ⟨rfl, hnone⟩ := hok hsome hudisk hflag hmalloc
    rw [heq, if_pos rfl, hnone, List.nil_append]
    refine ⟨le_rfl, by simp, by simp, ?_, show (0 : Int) < _ by decide, h.percent⟩
    intro hjoin
    exact absurd (hfree.symm.trans hjoin) (by decide)

/-- A start that gets as far and does not meet the condition leaves the flag without a thread,
or two threads. -/
theorem not_law_files (h : ExportSound s)
    {query_info : List RecordQueryInfo} {udisk malloc create : Bool}
    (hnot : ¬s.Meets (.files query_info udisk malloc create)) :
    ¬ExportLaw (s.aviFiles query_info udisk malloc create).1 := by
  simp only [Export.Meets, Classical.not_imp] at hnot
  obtain ⟨hsome, hudisk, hflag, hmalloc, hbad⟩ := hnot
  have hended : ∀ t ∈ s.threads, t.phase = .cleared := by
    intro t ht
    by_contra hne
    exact absurd (hflag.symm.trans (h.busy.2 ⟨t, ht, hne⟩)) (by decide)
  have heq : (s.aviFiles query_info udisk malloc create).1 =
      if create then
        { s.fresh with
          export_flag := true, export_num := query_info.length,
          export_thid := s.export_thid + 1,
          threads := s.threads ++ [⟨s.export_thid + 1, query_info, .begin⟩] }
      else { s.fresh with export_flag := true, export_num := query_info.length } := by
    rw [Export.aviFiles, if_neg hsome, hudisk, hflag, hmalloc]
    cases create <;> rfl
  intro hlaw
  rw [heq] at hlaw
  cases create with
  | false =>
      obtain ⟨t, ht, hne⟩ := hlaw.busy rfl
      exact hne (hended t ht)
  | true =>
      have hthreads : s.threads ≠ [] := fun hnil => hbad ⟨rfl, hnil⟩
      have hone := hlaw.one_thread
      have hpos := List.length_pos_iff.2 hthreads
      simp only [if_true, List.length_append, List.length_singleton] at hone
      omega

/-! ### The thread -/

/-- What a step of the thread keeps: it leaves the flag alone but for clearing it at its end,
takes the sum of the I-frames as a `long`, and comes to the mutex from two places only. -/
structure ThreadKeeps (s : Export) (t : ExportThread) (io : ExportIo)
    (next : Export × Option ExportPhase) : Prop where
  thid : next.1.export_thid = s.export_thid
  threads : next.1.threads = s.threads
  joining : next.1.joining = s.joining
  reported : next.1.reported = s.reported
  total_lt : s.total_iframe < 2147483648 → next.1.total_iframe < 2147483648
  flag : next.1.export_flag = (s.export_flag && decide (t.phase ≠ .statusSet))
  ended : next.2 = none ↔ t.phase = .cleared
  cleared : next.2 = some .cleared ↔ t.phase = .statusSet
  locks : (∃ phase, next.2 = some phase ∧ phase.Locks) ↔
    (t.phase = .begin ∧ io.udisk = true ∧ io.mount = true) ∨
      ∃ i, t.phase = .frames i ∧ io.frame = .iframe

theorem addUp_lt (s : Export) (query_info : List RecordQueryInfo)
    (h : s.total_iframe < 2147483648) : (s.addUp query_info).1 < 2147483648 := by
  unfold Export.addUp
  generalize query_info.take s.export_num = qs
  induction qs using List.reverseRecOn with
  | nil => exact h
  | append_singleton qs q _ =>
      rw [List.foldl_append]
      exact long32_lt _

theorem threadStep_keeps (s : Export) (t : ExportThread) (io : ExportIo) :
    ThreadKeeps s t io (s.threadStep t io) := by
  cases hphase : t.phase with
  | begin =>
      cases hudisk : io.udisk <;> cases hmount : io.mount <;>
        constructor <;> simp [Export.threadStep, hphase, hudisk, hmount, ExportPhase.Locks]
  | totals =>
      constructor <;> simp [Export.threadStep, hphase, ExportPhase.Locks]
      exact addUp_lt s t.query_info
  | space total_size =>
      cases hstatfs : io.statfs with
      | none => constructor <;> simp [Export.threadStep, hphase, hstatfs, ExportPhase.Locks]
      | some free =>
          by_cases hspace : free < total_size <;>
            constructor <;> simp [Export.threadStep, hphase, hstatfs, hspace, ExportPhase.Locks]
  | files i =>
      by_cases hmore : i < s.export_num && !s.export_exit
      · cases hopens : io.opens <;>
          constructor <;> simp only [Export.threadStep, hphase, hmore, hopens] <;>
            simp [ExportPhase.Locks]
      · constructor <;> simp only [Export.threadStep, hphase, if_neg hmore] <;>
          simp [ExportPhase.Locks]
  | frames i =>
      cases hframe : io.frame <;>
        constructor <;> simp [Export.threadStep, hphase, hframe, ExportPhase.Locks]
  | iframe i => constructor <;> simp [Export.threadStep, hphase, ExportPhase.Locks]
  | writing i =>
      cases hwrites : io.writes <;> cases hexit : s.export_exit <;>
        constructor <;> simp [Export.threadStep, hphase, hwrites, hexit, ExportPhase.Locks]
  | leaving result => constructor <;> simp [Export.threadStep, hphase, ExportPhase.Locks]
  | statusSet => constructor <;> simp [Export.threadStep, hphase, ExportPhase.Locks]
  | cleared => constructor <;> simp [Export.threadStep, hphase, ExportPhase.Locks]

theorem ExportSound.only (h : ExportSound s) {k : Nat} {t : ExportThread}
    (hk : s.threads[k]? = some t) : s.threads = [t] ∧ k = 0 := by
  have hone := h.one_thread
  obtain ⟨hlt, hget⟩ := List.getElem?_eq_some_iff.1 hk
  have hlen : s.threads.length = 1 := by omega
  obtain ⟨t', ht'⟩ := List.length_eq_one_iff.1 hlen
  obtain rfl : k = 0 := by omega
  simp only [ht', List.getElem_cons_zero] at hget
  exact ⟨by rw [ht', hget], rfl⟩

/-- The variables and the one thread after a step. -/
theorem ExportSound.putThread (h : ExportSound s) {k : Nat} {t : ExportThread} {io : ExportIo}
    (hk : s.threads[k]? = some t)
    (hlocks : s.joining = true → ∀ phase, (s.threadStep t io).2 = some phase → ¬phase.Locks) :
    ExportSound ((s.threadStep t io).1.putThread k t (s.threadStep t io).2) := by
  obtain ⟨honly, rfl⟩ := h.only hk
  have hkeeps := threadStep_keeps s t io
  have hbusy := h.busy
  have hthid := h.thids t (by simp [honly])
  simp only [honly, List.mem_singleton, exists_eq_left] at hbusy
  cases hnext : (s.threadStep t io).2 with
  | none =>
      have hended := hkeeps.ended.1 hnext
      have hflag : s.export_flag = false := by
        cases hf : s.export_flag with
        | false => rfl
        | true => exact absurd hended (hbusy.1 hf)
      have hthreads : ((s.threadStep t io).1.putThread 0 t none).threads = [] := by
        simp [Export.putThread, hkeeps.threads, honly]
      refine ⟨by simp [hthreads], by simp [hthreads], ?_, by simp [hthreads],
        hkeeps.total_lt h.total_lt, ?_⟩
      · show (s.threadStep t io).1.export_flag = true ↔ _
        simp [hthreads, hkeeps.flag, hflag]
      · show ∀ p, (s.threadStep t io).1.reported = some p → _
        rw [hkeeps.reported]
        exact h.percent
  | some phase =>
      have hcleared : phase = .cleared ↔ t.phase = .statusSet := by
        rw [← hkeeps.cleared, hnext, Option.some.injEq]
      have hwork : t.phase ≠ .cleared := fun hended => by
        rw [hkeeps.ended.2 hended] at hnext
        cases hnext
      have hthreads : ((s.threadStep t io).1.putThread 0 t (some phase)).threads =
          [{ t with phase := phase }] := by
        simp [Export.putThread, hkeeps.threads, honly]
      refine ⟨by simp [hthreads], ?_, ?_, ?_, hkeeps.total_lt h.total_lt, ?_⟩
      · rw [hthreads]
        simpa [Export.putThread, hkeeps.thid] using hthid
      · show (s.threadStep t io).1.export_flag = true ↔ _
        simp [hthreads, hkeeps.flag, hbusy.2 hwork, hcleared]
      · show (s.threadStep t io).1.joining = true → _
        rw [hkeeps.joining, hthreads]
        intro hjoin t' ht'
        obtain rfl := List.mem_singleton.1 ht'
        exact hlocks hjoin phase hnext
      · show ∀ p, (s.threadStep t io).1.reported = some p → _
        rw [hkeeps.reported]
        exact h.percent

/-- A thread that comes to the mutex while somebody waits for it stays there. -/
theorem deadlocked_putThread (h : ExportSound s) {k : Nat} {t : ExportThread} {io : ExportIo}
    (hk : s.threads[k]? = some t) (hjoin : s.joining = true) {phase : ExportPhase}
    (hnext : (s.threadStep t io).2 = some phase) (hlocks : phase.Locks) :
    ((s.threadStep t io).1.putThread k t (s.threadStep t io).2).Deadlocked := by
  obtain ⟨honly, rfl⟩ := h.only hk
  have hkeeps := threadStep_keeps s t io
  have hthid := h.thids t (by simp [honly])
  rw [hnext]
  refine ⟨hkeeps.joining.trans hjoin, { t with phase := phase }, ?_, ?_, hlocks⟩
  · simp [Export.putThread, hkeeps.threads, honly]
  · exact hthid.trans hkeeps.thid.symm

/-! ## Runs -/

theorem exportSound_step (h : ExportSound s) (hstep : s.step a = some u) (hok : s.Meets a) :
    ExportSound u := by
  cases a with
  | files query_info udisk malloc create =>
      simp only [Export.step] at hstep
      split at hstep
      · cases hstep
      · next hfree =>
          obtain rfl := Option.some.inj hstep
          exact h.files (by simpa using hfree) hok
  | finish =>
      simp only [Export.step] at hstep
      split at hstep
      · cases hstep
      · obtain rfl := Option.some.inj hstep
        unfold Export.aviFinish
        split
        · next hflag =>
            exact ⟨h.one_thread, h.thids, h.busy, fun _ => hok hflag, h.total_lt, h.percent⟩
        · exact h
  | joined =>
      obtain ⟨⟨-, hended⟩, heq⟩ := Option.ite_none_right_eq_some.1 hstep
      obtain rfl := Option.some.inj heq
      -- the thread that has ended was the only one
      have hnone : s.threads = [] := by
        rw [List.eq_nil_iff_forall_not_mem]
        exact fun t ht => hended t ht (h.thids t ht)
      refine ⟨h.one_thread, h.thids, ?_, nofun, h.total_lt, h.percent⟩
      simp [Export.joined, hnone]
  | percent =>
      simp only [Export.step] at hstep
      split at hstep
      · cases hstep
      · obtain rfl := Option.some.inj hstep
        refine ⟨h.one_thread, h.thids, h.busy, h.waits, h.total_lt, ?_⟩
        intro p hp
        simp only [Export.getPercent, Option.ite_none_right_eq_some, Option.some.injEq] at hp
        obtain ⟨hrunning, rfl⟩ := hp
        exact (percent_fits_iff hrunning.2 h.total_lt).2 (hok hrunning)
  | thread k io =>
      simp only [Export.step] at hstep
      split at hstep
      · cases hstep
      · next t hk =>
          split at hstep
          · cases hstep
          · obtain rfl := Option.some.inj hstep
            refine h.putThread hk fun hjoin phase hnext hlocks => ?_
            obtain ⟨hmount, hread⟩ := hok hjoin t hk
            rcases (threadStep_keeps s t io).locks.1 ⟨phase, hnext, hlocks⟩ with
              ⟨hphase, hudisk, hmounted⟩ | ⟨i, hphase, hframe⟩
            · exact hmount hphase ⟨hudisk, hmounted⟩
            · exact hread i hphase hframe

theorem not_law_step (h : ExportSound s) (hstep : s.step a = some u) (hnot : ¬s.Meets a) :
    ¬ExportLaw u := by
  intro hlaw
  cases a with
  | files query_info udisk malloc create =>
      simp only [Export.step] at hstep
      split at hstep
      · cases hstep
      · obtain rfl := Option.some.inj hstep
        exact not_law_files h hnot hlaw
  | finish =>
      simp only [Export.step] at hstep
      split at hstep
      · cases hstep
      · obtain rfl := Option.some.inj hstep
        obtain ⟨hflag, hsome⟩ := Classical.not_imp.1 hnot
        obtain ⟨t, ht⟩ := Classical.not_forall.1 hsome
        obtain ⟨hmem, hlocks⟩ := Classical.not_imp.1 ht
        have heq : s.aviFinish = { s with export_exit := true, joining := true } := if_pos hflag
        rw [heq] at hlaw
        exact hlaw.no_deadlock ⟨rfl, t, hmem, h.thids t hmem, not_not.1 hlocks⟩
  | joined => exact hnot trivial
  | percent =>
      simp only [Export.step] at hstep
      split at hstep
      · cases hstep
      · obtain rfl := Option.some.inj hstep
        obtain ⟨hrunning, hbad⟩ := Classical.not_imp.1 hnot
        refine hbad ((percent_fits_iff hrunning.2 h.total_lt).1 (hlaw.percent s.percent ?_))
        exact if_pos hrunning
  | thread k io =>
      simp only [Export.step] at hstep
      split at hstep
      · cases hstep
      · next t hk =>
          split at hstep
          · cases hstep
          · obtain rfl := Option.some.inj hstep
            simp only [Export.Meets, Classical.not_imp] at hnot
            obtain ⟨hjoin, hbad⟩ := hnot
            have hkeeps := threadStep_keeps s t io
            by_cases hcomes : (t.phase = .begin ∧ io.udisk = true ∧ io.mount = true) ∨
                ∃ i, t.phase = .frames i ∧ io.frame = .iframe
            · obtain ⟨phase, hnext, hlocks⟩ := hkeeps.locks.2 hcomes
              exact hlaw.no_deadlock (deadlocked_putThread h hk hjoin hnext hlocks)
            · refine hbad fun t' hk' => ?_
              obtain rfl : t' = t := Option.some.inj (hk'.symm.trans hk)
              exact ⟨fun hphase hmounted => hcomes (.inl ⟨hphase, hmounted⟩),
                fun i hphase hframe => hcomes (.inr ⟨i, hphase, hframe⟩)⟩

/-- In every state of a run the law holds if and only if all the steps meet the condition. -/
theorem export_law_iff {steps : List ExportStep} (hrun : steps.foldlM Export.step .init = some u) :
    (∀ pre s, pre <+: steps → pre.foldlM Export.step .init = some s → ExportLaw s) ↔
      ∀ pre a s, pre ++ [a] <+: steps → pre.foldlM Export.step .init = some s → s.Meets a :=
  Run.good_iff_meets ExportSound.law exportSound_step not_law_step exportSound_init hrun

/-- A recording with one I-frame. -/
def oneIframe : RecordQueryInfo := { (default : RecordQueryInfo) with iframeNum := 1 }

/-- Nothing fails, and an I-frame is read. -/
def goodIo : ExportIo where
  udisk := true
  mount := true
  statfs := some 1000
  opens := true
  frame := .iframe
  writes := true

/-- The recording is exported while somebody asks how far that is. -/
def oneExport : List ExportStep :=
  [.files [oneIframe] true true true, .thread 0 goodIo, .thread 0 goodIo, .thread 0 goodIo,
    .thread 0 goodIo, .thread 0 goodIo, .thread 0 goodIo, .percent, .thread 0 goodIo,
    .thread 0 { goodIo with frame := .none }, .thread 0 goodIo, .thread 0 goodIo,
    .thread 0 goodIo, .thread 0 goodIo]

theorem export_law_iff_oneExport : ∃ u, oneExport.foldlM Export.step .init = some u ∧
    ((∀ pre s, pre <+: oneExport → pre.foldlM Export.step .init = some s → ExportLaw s) ↔
      ∀ pre a s, pre ++ [a] <+: oneExport → pre.foldlM Export.step .init = some s →
        s.Meets a) :=
  ⟨_, rfl, export_law_iff rfl⟩

/-- The export is to be finished when the thread has just mounted the disk. -/
theorem not_export_law : ¬∀ (steps : List ExportStep) (s : Export),
    steps.foldlM Export.step .init = some s → ExportLaw s := by
  intro hall
  have hlaw := hall [.files [oneIframe] true true true, .thread 0 goodIo, .finish] _ rfl
  exact hlaw.no_deadlock ⟨rfl, _, List.mem_singleton.2 rfl, rfl, trivial⟩

end Nvr.Storage
