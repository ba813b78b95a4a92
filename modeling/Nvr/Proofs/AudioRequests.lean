import Mathlib.Data.List.Induction
import Nvr.Lib.BitString
import Nvr.Player.AudioThread

/-!
# What is asked for and what is played

Between two polls the byte of the requests holds what was last asked for each
type (`Pending`). The poll takes any bit of the low half for all the types of the high
half, so it does what was asked only if nothing is to play while something else is to stop,
and it forgets to stop an alarm whose file is not open (`Clear`).
-/

namespace Nvr.Player

/-- What was last asked for a type. -/
def lastAsked (asked : List (AudioType × Bool)) (t : AudioType) : Option Bool :=
  (asked.filter fun a => a.1 = t).getLast?.map Prod.snd

/-- A thread with what has been asked for so far, and how much of it the last poll has
seen. -/
structure AudioHistory where
  thread : AudioThread
  asked : List (AudioType × Bool)
  seen : Nat

/-- What no poll has seen. -/
def AudioHistory.pending (h : AudioHistory) : List (AudioType × Bool) := h.asked.drop h.seen

def AudioHistory.step (h : AudioHistory) (e : AudioEvent) : AudioHistory where
  thread := (h.thread.step e).1
  asked := h.asked ++ (h.thread.step e).2
  seen := match e with
    | .poll => h.asked.length
    | _ => h.seen

/-- The flag of every type is what was last asked for it. -/
def AsAsked (h : AudioHistory) : Prop :=
  ∀ t : AudioType, h.thread.hdl.playFlag &&& t.bit ≠ 0 ↔ lastAsked h.asked t = some true

/-- Nothing pending is to play if something is to stop, and an alarm that is to stop has its
file open. -/
structure Clear (h : AudioHistory) : Prop where
  unmixed : ∀ t u, lastAsked h.pending t = some true → lastAsked h.pending u ≠ some false
  open_file : lastAsked h.pending .alarm = some false →
    h.thread.hdl.playFlag &&& AudioType.alarm.bit ≠ 0 → h.thread.hdl.fdAlarm = true

/-! ## Requests -/

@[simp] theorem lastAsked_nil (t : AudioType) : lastAsked [] t = none := rfl

theorem lastAsked_append (xs ys : List (AudioType × Bool)) (t : AudioType) :
    lastAsked (xs ++ ys) t = (lastAsked ys t).or (lastAsked xs t) := by
  rw [lastAsked, List.filter_append, List.getLast?_append]
  cases h : (ys.filter fun a => a.1 = t).getLast? with
  | none => simp [lastAsked, h]
  | some a => simp [lastAsked, h]

theorem lastAsked_single (t u : AudioType) (play : Bool) :
    lastAsked [(t, play)] u = if t = u then some play else none := by
  rw [lastAsked, List.filter_singleton]
  by_cases h : t = u
  · simp [h]
  · simp [h]

/-! ## The byte -/

/-- The bit of a type. -/
def AudioType.idx (t : AudioType) : Nat := t.code.toNat

theorem AudioType.idx_lt (t : AudioType) : t.idx < 3 := by
  cases t <;> decide

theorem AudioType.idx_inj {t u : AudioType} : t.idx = u.idx ↔ t = u := by
  cases t <;> cases u <;> decide

theorem AudioType.bit_eq (t : AudioType) : t.bit.toBitVec = BitVec.twoPow 8 t.idx := by
  cases t <;> rfl

theorem AudioType.changed_eq (t : AudioType) :
    (1 <<< (t.code + 4) : UInt8).toBitVec = BitVec.twoPow 8 (t.idx + 4) := by
  cases t <;> rfl

theorem playing_iff {x : UInt8} {t : AudioType} :
    x &&& t.bit ≠ 0 ↔ Byte.bit x t.idx = true :=
  Byte.and_mask_ne_zero (Nat.lt_trans t.idx_lt (by decide)) t.bit_eq

/-- The byte of the requests holds what is pending. -/
structure Pending (ctl : UInt8) (asked : List (AudioType × Bool)) : Prop where
  changed : ∀ t : AudioType, Byte.bit ctl (t.idx + 4) = (lastAsked asked t).isSome
  wanted : ∀ t : AudioType, Byte.bit ctl t.idx = (lastAsked asked t == some true)
  others : Byte.bit ctl 3 = false ∧ Byte.bit ctl 7 = false

theorem pending_zero : Pending 0 [] := by
  refine ⟨fun t => ?_, fun t => ?_, ?_⟩
  · simp
  · simp
  · simp

theorem bit_audioPlay (ctl : UInt8) (t : AudioType) (i : Nat) :
    Byte.bit (audioPlay ctl t) i =
      ((Byte.bit ctl i || decide (t.idx + 4 = i)) || decide (t.idx = i)) := by
  have ht := t.idx_lt
  rw [audioPlay, Byte.bit_or, Byte.bit_or, Byte.bit_mask (by omega) t.changed_eq,
    Byte.bit_mask (by omega) t.bit_eq]

theorem bit_audioStop (ctl : UInt8) (t : AudioType) {i : Nat} (hi : i < 8) :
    Byte.bit (audioStop ctl t) i =
      ((Byte.bit ctl i || decide (t.idx + 4 = i)) && !decide (t.idx = i)) := by
  have ht := t.idx_lt
  rw [audioStop, Byte.bit_and, Byte.bit_or, Byte.bit_not hi,
    Byte.bit_mask (by omega) t.changed_eq, Byte.bit_mask (by omega) t.bit_eq]

/-- A request takes the place of those of its type. -/
theorem Pending.ask {s : AudioThread} {asked : List (AudioType × Bool)}
    (h : Pending s.ctl asked) (t : AudioType) (play : Bool) :
    Pending (s.ask t play).ctl (asked ++ [(t, play)]) := by
  have ht := t.idx_lt
  have hbit : ∀ i < 8, Byte.bit (s.ask t play).ctl i =
      if t.idx = i then play else Byte.bit s.ctl i || decide (t.idx + 4 = i) := by
    intro i hi
    cases play with
    | true =>
        show Byte.bit (audioPlay s.ctl t) i = _
        rw [bit_audioPlay]
        by_cases h : t.idx = i <;> simp [h]
    | false =>
        show Byte.bit (audioStop s.ctl t) i = _
        rw [bit_audioStop _ _ hi]
        by_cases h : t.idx = i <;> simp [h]
  refine ⟨fun u => ?_, fun u => ?_, ?_, ?_⟩
  · have hu := u.idx_lt
    rw [hbit _ (by omega), if_neg (by omega), h.changed, lastAsked_append, lastAsked_single]
    by_cases htu : t = u
    · simp [htu]
    · have hne : t.idx ≠ u.idx := fun h => htu (AudioType.idx_inj.1 h)
      simp [htu, hne]
  · have hu := u.idx_lt
    rw [hbit _ (by omega), h.wanted, lastAsked_append, lastAsked_single]
    by_cases htu : t = u
    · simp [htu]
    · have hne : t.idx ≠ u.idx := fun h => htu (AudioType.idx_inj.1 h)
      have hne' : t.idx + 4 ≠ u.idx := by omega
      simp [htu, hne, hne']
  · rw [hbit _ (by omega), if_neg (by omega), h.others.1]
    simp
  · rw [hbit _ (by omega), if_neg (by omega), h.others.2]
    simp
    omega

/-! ## A poll -/

/-- What a poll does to the flag of a type, where `kept` says that it is not cleared. -/
def nextFlag (typeCmd : UInt8) (t : AudioType) (kept : Bool) (flag : UInt8) : UInt8 :=
  if (typeCmd >>> 4) &&& t.bit ≠ 0 then
    if typeCmd &&& 0x0f ≠ 0 then flag ||| t.bit else if kept then flag else flag &&& ~~~t.bit
  else flag

theorem audioPlayCmdPro_playFlag (hdl : AudioRun) (typeCmd : UInt8) :
    (audioPlayCmdPro hdl typeCmd).playFlag =
      nextFlag typeCmd .channel false (nextFlag typeCmd .alarm (!hdl.fdAlarm)
        (nextFlag typeCmd .phone false hdl.playFlag)) := by
  cases hfile : hdl.fdAlarm <;>
    simp [audioPlayCmdPro, nextFlag, apply_ite AudioRun.playFlag, apply_ite AudioRun.fdAlarm,
      AudioRun.plays, hfile]

theorem bit_nextFlag_self (typeCmd : UInt8) (t : AudioType) (kept : Bool) (flag : UInt8) :
    Byte.bit (nextFlag typeCmd t kept flag) t.idx =
      if (typeCmd >>> 4) &&& t.bit ≠ 0 then
        (typeCmd &&& 0x0f ≠ 0) || (kept && Byte.bit flag t.idx)
      else Byte.bit flag t.idx := by
  have ht := t.idx_lt
  rw [nextFlag]
  split
  · by_cases hcmd : typeCmd &&& 0x0f = 0
    · cases kept
      · simp [hcmd, Byte.bit_not (show t.idx < 8 by omega),
          Byte.bit_mask (show t.idx < 8 by omega) t.bit_eq]
      · simp [hcmd]
    · simp [hcmd, Byte.bit_mask (show t.idx < 8 by omega) t.bit_eq]
  · rfl

theorem bit_nextFlag_of_ne (typeCmd : UInt8) {t u : AudioType} (kept : Bool) (flag : UInt8)
    (h : t ≠ u) : Byte.bit (nextFlag typeCmd t kept flag) u.idx = Byte.bit flag u.idx := by
  have ht := t.idx_lt
  have hu := u.idx_lt
  have hne : t.idx ≠ u.idx := fun heq => h (AudioType.idx_inj.1 heq)
  have hmask := Byte.bit_mask (show t.idx < 8 by omega) t.bit_eq u.idx
  rw [nextFlag]
  split
  · split
    · simp [hmask, hne]
    · split
      · rfl
      · simp [Byte.bit_not (show u.idx < 8 by omega), hmask, hne]
  · rfl

/-- What a poll does to the flag of a type. -/
theorem bit_audioPlayCmdPro (hdl : AudioRun) (typeCmd : UInt8) (t : AudioType) :
    Byte.bit (audioPlayCmdPro hdl typeCmd).playFlag t.idx =
      if (typeCmd >>> 4) &&& t.bit ≠ 0 then
        (typeCmd &&& 0x0f ≠ 0) ||
          ((decide (t = .alarm) && !hdl.fdAlarm) && Byte.bit hdl.playFlag t.idx)
      else Byte.bit hdl.playFlag t.idx := by
  rw [audioPlayCmdPro_playFlag]
  cases t with
  | phone =>
      rw [bit_nextFlag_of_ne _ _ _ (by decide), bit_nextFlag_of_ne _ _ _ (by decide),
        bit_nextFlag_self]
      simp
  | alarm =>
      rw [bit_nextFlag_of_ne _ _ _ (by decide), bit_nextFlag_self,
        bit_nextFlag_of_ne _ _ _ (by decide)]
      simp
  | channel =>
      rw [bit_nextFlag_self, bit_nextFlag_of_ne _ _ _ (by decide),
        bit_nextFlag_of_ne _ _ _ (by decide)]
      simp

/-! ## What the byte says -/

variable {ctl : UInt8} {asked : List (AudioType × Bool)}

theorem shiftRight_four (ctl : UInt8) (t : AudioType) :
    (ctl >>> 4) &&& t.bit ≠ 0 ↔ Byte.bit ctl (t.idx + 4) = true := by
  have hshift : Byte.bit (ctl >>> 4) t.idx = Byte.bit ctl (t.idx + 4) := by
    simp [Byte.bit, Nat.add_comm]
  rw [playing_iff, hshift]

theorem Pending.type_iff (h : Pending ctl asked) (t : AudioType) :
    (ctl >>> 4) &&& t.bit ≠ 0 ↔ (lastAsked asked t).isSome = true := by
  rw [shiftRight_four, ← h.changed]

/-- The low half is not empty just if something is to play. -/
theorem Pending.cmd_iff (h : Pending ctl asked) :
    ctl &&& 0x0f ≠ 0 ↔ ∃ t, lastAsked asked t = some true := by
  have hlow : ∀ i, Byte.bit 0x0f i = decide (i < 4) := by
    intro i
    by_cases hi : i < 8
    · revert i
      decide
    · rw [Byte.bit_of_le (by omega), decide_eq_false (by omega)]
  constructor
  · intro hcmd
    by_contra hnone
    refine hcmd (Byte.ext fun i hi => ?_)
    have hwanted : ∀ t : AudioType, Byte.bit ctl t.idx = false := by
      intro t
      rw [h.wanted]
      simp only [not_exists] at hnone
      simp [hnone t]
    rw [Byte.bit_and, hlow, Byte.bit_zero]
    have hphone : Byte.bit ctl 0 = false := hwanted .phone
    have halarm : Byte.bit ctl 1 = false := hwanted .alarm
    have hchannel : Byte.bit ctl 2 = false := hwanted .channel
    match i with
    | 0 => rw [hphone, Bool.false_and]
    | 1 => rw [halarm, Bool.false_and]
    | 2 => rw [hchannel, Bool.false_and]
    | 3 => rw [h.others.1, Bool.false_and]
    | i + 4 => simp
  · rintro ⟨t, ht⟩ h0
    have hbit := congrArg (fun x => Byte.bit x t.idx) h0
    have hlt := t.idx_lt
    rw [Byte.bit_and, h.wanted, ht, hlow, Byte.bit_zero] at hbit
    simp at hbit
    omega

/-- A poll that fetches nothing does to the flags what a command without types would do. -/
theorem bit_audioPoll (hdl : AudioRun) (ctl : UInt8) (t : AudioType) :
    Byte.bit (audioPoll hdl ctl).playFlag t.idx =
      if (ctl >>> 4) &&& t.bit ≠ 0 then
        (ctl &&& 0x0f ≠ 0) || ((decide (t = .alarm) && !hdl.fdAlarm) && Byte.bit hdl.playFlag t.idx)
      else Byte.bit hdl.playFlag t.idx := by
  rw [← bit_audioPlayCmdPro, audioPoll]
  split
  · rfl
  · rename_i hnone
    have hhigh : ∀ t : AudioType, Byte.bit 0xf0 (t.idx + 4) = true := by
      intro t
      cases t <;> rfl
    have hno : ¬((ctl >>> 4) &&& t.bit ≠ 0) := by
      rw [shiftRight_four]
      intro hbit
      have hzero := congrArg (fun x => Byte.bit x (t.idx + 4)) (not_not.1 hnone)
      rw [Byte.bit_and, hbit, hhigh, Byte.bit_zero] at hzero
      exact Bool.noConfusion hzero
    rw [bit_audioPlayCmdPro, if_neg hno]

variable {h : AudioHistory}

/-- Between polls the flags are what was asked in front of the last one. -/
def FlagsSeen (h : AudioHistory) : Prop :=
  ∀ t : AudioType, h.thread.hdl.playFlag &&& t.bit ≠ 0 ↔
    lastAsked (h.asked.take h.seen) t = some true

/-- A poll goes wrong just with a type that is to stop. -/
theorem asAsked_poll_iff (hp : Pending h.thread.ctl h.pending) (hflags : FlagsSeen h) :
    AsAsked (h.step .poll) ↔
      ∀ t, lastAsked h.pending t = some false →
        Byte.bit (audioPoll h.thread.hdl h.thread.ctl).playFlag t.idx = false := by
  have hlast : ∀ t, lastAsked (h.step .poll).asked t =
      (lastAsked h.pending t).or (lastAsked (h.asked.take h.seen) t) := by
    intro t
    show lastAsked (h.asked ++ []) t = _
    rw [List.append_nil, AudioHistory.pending, ← lastAsked_append, List.take_append_drop]
  refine forall_congr' fun t => ?_
  have hflag := bit_audioPoll h.thread.hdl h.thread.ctl t
  rw [hlast]
  show ((audioPoll h.thread.hdl h.thread.ctl).playFlag &&& t.bit ≠ 0 ↔ _) ↔ _
  rw [playing_iff]
  cases hpending : lastAsked h.pending t with
  | none =>
      have hno : ¬((h.thread.ctl >>> 4) &&& t.bit ≠ 0) := by
        rw [hp.type_iff, hpending]
        exact Bool.false_ne_true
      rw [hflag, if_neg hno, ← playing_iff, hflags t]
      simp
  | some play =>
      cases play with
      | true =>
          have hyes : (h.thread.ctl >>> 4) &&& t.bit ≠ 0 := by
            rw [hp.type_iff, hpending]
            rfl
          have hcmd := hp.cmd_iff.2 ⟨t, hpending⟩
          rw [hflag, if_pos hyes]
          simp [hcmd]
      | false => simp

/-- The flags behind a poll, when those in front of it were as asked. -/
theorem asAsked_poll (hp : Pending h.thread.ctl h.pending) (hflags : FlagsSeen h) :
    AsAsked (h.step .poll) ↔ Clear h := by
  have hbit : ∀ t, lastAsked h.pending t = some false →
      Byte.bit (audioPoll h.thread.hdl h.thread.ctl).playFlag t.idx =
        ((h.thread.ctl &&& 0x0f ≠ 0) || ((decide (t = .alarm) && !h.thread.hdl.fdAlarm) &&
          Byte.bit h.thread.hdl.playFlag t.idx)) := by
    intro t ht
    rw [bit_audioPoll, if_pos]
    rw [hp.type_iff, ht]
    rfl
  rw [asAsked_poll_iff hp hflags]
  constructor
  · intro hall
    refine ⟨fun t u ht hu => ?_, fun hstop hplays => ?_⟩
    · have hfalse := hall u hu
      rw [hbit u hu, decide_eq_true (hp.cmd_iff.2 ⟨t, ht⟩), Bool.true_or] at hfalse
      exact Bool.noConfusion hfalse
    · have hfalse := hall .alarm hstop
      rw [playing_iff] at hplays
      rw [hbit .alarm hstop, hplays] at hfalse
      simpa using (Bool.or_eq_false_iff.1 hfalse).2
  · intro hclear t ht
    have hcmd : ¬(h.thread.ctl &&& 0x0f ≠ 0) := by
      rw [hp.cmd_iff]
      rintro ⟨u, hu⟩
      exact hclear.unmixed u t hu ht
    rw [hbit t ht, decide_eq_false hcmd, Bool.false_or]
    by_cases halarm : t = .alarm
    · subst halarm
      cases hplays : Byte.bit h.thread.hdl.playFlag AudioType.alarm.idx with
      | false => simp
      | true => simp [hclear.open_file ht (playing_iff.2 hplays)]
    · simp [halarm]

/-! ## Runs -/

/-- The thread before anything was asked for. Whether the file is open is not known:
`fd_alarm` is not initialised. -/
def AudioHistory.start (hdl : AudioRun) : AudioHistory where
  thread := { ctl := 0, hdl := { hdl with playFlag := 0 } }
  asked := []
  seen := 0

def AudioHistory.run (h : AudioHistory) (es : List AudioEvent) : AudioHistory :=
  es.foldl AudioHistory.step h

theorem run_concat (es : List AudioEvent) (e : AudioEvent) :
    h.run (es ++ [e]) = (h.run es).step e := by
  rw [AudioHistory.run, List.foldl_append]
  rfl

/-- The byte holds what is pending, in every state. -/
structure Kept (h : AudioHistory) : Prop where
  pending : Pending h.thread.ctl h.pending
  seen_le : h.seen ≤ h.asked.length

theorem kept_start (hdl : AudioRun) : Kept (.start hdl) := ⟨pending_zero, Nat.le_refl 0⟩

theorem pending_append {asked' : List (AudioType × Bool)} (hle : h.seen ≤ h.asked.length) :
    (h.asked ++ asked').drop h.seen = h.pending ++ asked' :=
  List.drop_append_of_le_length hle

theorem audioCombineAlarmData_playFlag (hdl : AudioRun) (io : AlarmIo) :
    (audioCombineAlarmData hdl io).1.playFlag = hdl.playFlag := by
  have hopened : (audioOpenAlarmFile hdl io).2.playFlag = hdl.playFlag := by
    rw [audioOpenAlarmFile]
    split
    · rfl
    · split <;> rfl
  rw [audioCombineAlarmData]
  cases hdl.fdAlarm <;> dsimp only <;> split_ifs <;> first | rfl | exact hopened

/-- A step that is no poll. -/
theorem step_of_ne_poll (hp : Pending h.thread.ctl h.pending) {e : AudioEvent} (he : e ≠ .poll) :
    ∃ asked', (h.step e).asked = h.asked ++ asked' ∧ (h.step e).seen = h.seen ∧
      Pending (h.step e).thread.ctl (h.pending ++ asked') ∧
      (h.step e).thread.hdl.playFlag = h.thread.hdl.playFlag := by
  cases e with
  | ask t play => exact ⟨_, rfl, rfl, hp.ask t play, rfl⟩
  | poll => exact absurd rfl he
  | combine io =>
      have hflag := audioCombineAlarmData_playFlag h.thread.hdl io
      have hstep : h.thread.step (.combine io) =
          if h.thread.hdl.playType = some .alarm then
            if (audioCombineAlarmData h.thread.hdl io).2 then
              ({ h.thread with hdl := (audioCombineAlarmData h.thread.hdl io).1 }.ask .alarm false,
                [(.alarm, false)])
            else ({ h.thread with hdl := (audioCombineAlarmData h.thread.hdl io).1 }, [])
          else (h.thread, []) := rfl
      refine ⟨_, rfl, rfl, ?_⟩
      simp only [AudioHistory.step, hstep]
      split
      · split
        · exact ⟨hp.ask (s := { h.thread with hdl := _ }) .alarm false, hflag⟩
        · rw [List.append_nil]
          exact ⟨hp, hflag⟩
      · rw [List.append_nil]
        exact ⟨hp, rfl⟩

theorem Kept.step (hk : Kept h) (e : AudioEvent) : Kept (h.step e) := by
  by_cases he : e = .poll
  · subst he
    have hasked : (h.step .poll).asked = h.asked := List.append_nil _
    refine ⟨?_, ?_⟩
    · rw [AudioHistory.pending, hasked]
      show Pending 0 (h.asked.drop h.asked.length)
      rw [List.drop_length]
      exact pending_zero
    · rw [hasked]
      exact Nat.le_refl _
  · obtain ⟨asked', hasked, hseen, hp, -⟩ := step_of_ne_poll hk.pending he
    refine ⟨?_, ?_⟩
    · rw [AudioHistory.pending, hasked, hseen, pending_append hk.seen_le]
      exact hp
    · rw [hasked, hseen, List.length_append]
      exact Nat.le_trans hk.seen_le (Nat.le_add_right _ _)

theorem FlagsSeen.step (hf : FlagsSeen h) (hk : Kept h) {e : AudioEvent} (he : e ≠ .poll) :
    FlagsSeen (h.step e) := by
  obtain ⟨asked', hasked, hseen, -, hflag⟩ := step_of_ne_poll hk.pending he
  intro t
  rw [hasked, hseen, hflag, List.take_append_of_le_length hk.seen_le]
  exact hf t

/-- Right behind a poll they are what was asked at all. -/
theorem flagsSeen_poll : FlagsSeen (h.step .poll) ↔ AsAsked (h.step .poll) := by
  have hasked : (h.step .poll).asked.take (h.step .poll).seen = (h.step .poll).asked := by
    show (h.asked ++ []).take h.asked.length = h.asked ++ []
    rw [List.append_nil, List.take_length]
  rw [FlagsSeen, AsAsked, hasked]

theorem kept_run (hdl : AudioRun) (es : List AudioEvent) : Kept ((AudioHistory.start hdl).run es) := by
  induction es using List.reverseRecOn with
  | nil => exact kept_start hdl
  | append_singleton es e ih =>
      rw [run_concat]
      exact ih.step e

/-- As long as the polls do what was asked, so do the flags between them. -/
theorem flagsSeen_run {hdl : AudioRun} {es : List AudioEvent}
    (hpolls : ∀ pre, pre ++ [.poll] <+: es → FlagsSeen ((AudioHistory.start hdl).run pre) →
      AsAsked ((AudioHistory.start hdl).run (pre ++ [.poll]))) :
    ∀ pre, pre <+: es → FlagsSeen ((AudioHistory.start hdl).run pre) := by
  intro pre
  induction pre using List.reverseRecOn with
  | nil =>
      intro _ t
      show (0 : UInt8) &&& t.bit ≠ 0 ↔ lastAsked [] t = some true
      simp
  | append_singleton pre e ih =>
      intro hpre
      have hbefore := ih ((List.prefix_append pre [e]).trans hpre)
      by_cases he : e = .poll
      · subst he
        have hafter := hpolls pre hpre hbefore
        rw [run_concat] at hafter ⊢
        exact flagsSeen_poll.2 hafter
      · rw [run_concat]
        exact hbefore.step (kept_run hdl pre) he

/-- What is played after each poll. -/
def RequestLaw (hdl : AudioRun) (es : List AudioEvent) : Prop :=
  ∀ pre, pre ++ [.poll] <+: es → AsAsked ((AudioHistory.start hdl).run (pre ++ [.poll]))

/-- After every poll the flags are what was last asked for, just if every poll is clear. -/
theorem requestLaw_iff (hdl : AudioRun) (es : List AudioEvent) :
    RequestLaw hdl es ↔
      ∀ pre, pre ++ [.poll] <+: es → Clear ((AudioHistory.start hdl).run pre) := by
  constructor
  · intro hlaw pre hpre
    have hflags := flagsSeen_run (fun pre hpre _ => hlaw pre hpre) pre
      ((List.prefix_append _ _).trans hpre)
    have hpoll := hlaw pre hpre
    rw [run_concat] at hpoll
    exact (asAsked_poll (kept_run hdl pre).pending hflags).1 hpoll
  · intro hclear pre hpre
    have hstep : ∀ pre, pre ++ [.poll] <+: es → FlagsSeen ((AudioHistory.start hdl).run pre) →
        AsAsked ((AudioHistory.start hdl).run (pre ++ [.poll])) := by
      intro pre hpre hflags
      rw [run_concat]
      exact (asAsked_poll (kept_run hdl pre).pending hflags).2 (hclear pre hpre)
    exact hstep pre hpre (flagsSeen_run hstep pre ((List.prefix_append _ _).trans hpre))

/-- The alarm is to play while the live audio is to stop. -/
def alarmForChannel : List AudioEvent :=
  [.ask .channel true, .poll, .ask .channel false, .ask .alarm true, .poll]

theorem not_requestLaw : ¬∀ hdl es, RequestLaw hdl es := by
  intro h
  have hlaw := h ⟨false, false, 0, false, .idle, none, false⟩ alarmForChannel
    [.ask .channel true, .poll, .ask .channel false, .ask .alarm true] (List.prefix_refl _) .channel
  revert hlaw
  decide

end Nvr.Player
