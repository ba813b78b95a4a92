import Nvr.Lib.Alternate
import Nvr.Lib.Run
import Nvr.Lib.Slot
import Nvr.Proofs.RecCtrl
import Nvr.Server.Alarm
import Mathlib.Data.List.DropRight

/-!
# The alarm events of a channel

What a channel sees of a run is the list of its polls: the level, and the calls
of `nvr_alarm_ipnc` for it. Whatever the levels, and whatever happens to the
other channels and in the recorder between the polls, the calls alternate, an
alarm begins at the first level after the last one ended, and it ends with the
eleventh poll in a row without one.

The three values of `ipncAlarmStatus` are three kinds of list: since the last end
there was no alarm; the last poll had one; the polls since then had none and are
as many as the countdown is short of eleven (`Tracked`).
-/

namespace Nvr.Server

open Nvr.Storage Slot

/-- A poll of one channel: whether there was an alarm, and the calls of
`nvr_alarm_ipnc` for the channel. -/
structure Poll where
  alarm : Bool
  events : List Bool
  deriving DecidableEq

/-- What happens, one step at a time. -/
inductive AlarmLabel where
  | poll (chnNum : Nat) (alarm : Chn → Int) (calls : List AlarmCall)
  | other

/-- The program: a poll, a look of the recorder at a channel, and a key. -/
inductive AlarmStep : Alarms → AlarmLabel → Alarms → Prop
  | poll (s : Alarms) (chnNum : Nat) (linkAct : Chn → LinkAct) (alarm : Chn → Int) :
      AlarmStep s (.poll chnNum alarm (nvrAlarmCheckTimeout chnNum linkAct alarm s).2)
        (nvrAlarmCheckTimeout chnNum linkAct alarm s).1
  | recCtrl (s : Alarms) (chn : Chn) (recCfg : RecCfg) (clock : Clock) (replies : Replies) :
      AlarmStep s .other { s with nvrRec := (nvrRecCtrl chn recCfg clock replies s.nvrRec).1 }
  | recManual (s : Alarms) (chn : Chn) (start : Int) :
      AlarmStep s .other { s with nvrRec := nvrRecManual chn start s.nvrRec }

/-- The calls of `nvr_alarm_ipnc` for a channel. -/
def eventsOf (chn : Chn) (calls : List AlarmCall) : List Bool :=
  calls.filterMap fun
    | .alarmIpnc c happen => if c = chn then some happen else none
    | .sendMail => none

/-- The polls of a channel in a run. -/
def pollsOf (chn : Chn) (labels : List AlarmLabel) : List Poll :=
  labels.filterMap fun
    | .poll chnNum alarm calls =>
        if chn.val < chnNum then some ⟨decide (alarm chn ≠ 0), eventsOf chn calls⟩ else none
    | .other => none

/-- All events of some polls. -/
def allEvents (polls : List Poll) : List Bool := polls.flatMap Poll.events

/-- The polls since the last one with an off event, or since the start. -/
def sinceOff (polls : List Poll) : List Poll :=
  polls.rtakeWhile fun p => !p.events.contains false

/-- The polls without an alarm at the end. -/
def quietRun (polls : List Poll) : List Poll := polls.rtakeWhile fun p => !p.alarm

/-- The polls up to the last one with an alarm. -/
def upToAlarm (polls : List Poll) : List Poll := polls.rdropWhile fun p => !p.alarm

/-- What the events of a channel have to be. -/
structure AlarmLaw (polls : List Poll) : Prop where
  alternate : Alternate (allEvents polls)
  /-- An on event is at the first alarm since the start or since the last off event. -/
  on : ∀ pre p post, polls = pre ++ p :: post →
    (true ∈ p.events ↔ p.alarm ∧ ∀ q ∈ sinceOff pre, ¬ q.alarm)
  /-- An off event is at the end of eleven polls without an alarm, behind one with an
  alarm that is not in front of the first on event. -/
  off : ∀ pre p post, polls = pre ++ p :: post →
    (false ∈ p.events ↔ (quietRun (pre ++ [p])).length = 11 ∧
      ∃ q ∈ upToAlarm (pre ++ [p]), true ∈ q.events)

/-! ## One poll more -/

section Concat

variable {polls : List Poll} {p : Poll}

theorem sinceOff_off (h : false ∈ p.events) : sinceOff (polls ++ [p]) = [] :=
  List.rtakeWhile_concat_neg _ _ _ (by simpa using h)

theorem sinceOff_concat (h : false ∉ p.events) :
    sinceOff (polls ++ [p]) = sinceOff polls ++ [p] :=
  List.rtakeWhile_concat_pos _ _ _ (by simpa using h)

theorem quietRun_alarm (h : p.alarm = true) : quietRun (polls ++ [p]) = [] :=
  List.rtakeWhile_concat_neg _ _ _ (by simpa using h)

theorem quietRun_quiet (h : p.alarm = false) :
    quietRun (polls ++ [p]) = quietRun polls ++ [p] :=
  List.rtakeWhile_concat_pos _ _ _ (by simpa using h)

theorem upToAlarm_alarm (h : p.alarm = true) : upToAlarm (polls ++ [p]) = polls ++ [p] :=
  List.rdropWhile_concat_neg _ _ _ (by simpa using h)

theorem upToAlarm_quiet (h : p.alarm = false) : upToAlarm (polls ++ [p]) = upToAlarm polls :=
  List.rdropWhile_concat_pos _ _ _ (by simpa using h)

theorem allEvents_concat (polls : List Poll) (p : Poll) :
    allEvents (polls ++ [p]) = allEvents polls ++ p.events := by
  simp [allEvents]

theorem mem_of_mem_upToAlarm {q : Poll} (h : q ∈ upToAlarm polls) : q ∈ polls :=
  (List.rdropWhile_prefix _ _).mem h

theorem upToAlarm_of_quietRun_nil (h : quietRun polls = []) : upToAlarm polls = polls := by
  have hall := List.rdropWhile_append_rtakeWhile (l := polls) (p := fun p => !p.alarm)
  rw [show polls.rtakeWhile (fun p => !p.alarm) = [] from h, List.append_nil] at hall
  exact hall

theorem split_concat {pre post : List Poll} {q : Poll}
    (h : polls ++ [p] = pre ++ q :: post) :
    (pre = polls ∧ q = p) ∨ ∃ post', polls = pre ++ q :: post' := by
  rcases List.eq_nil_or_concat post with rfl | ⟨post', r, rfl⟩
  · obtain ⟨hpre, hq⟩ := List.append_inj' h rfl
    exact .inl ⟨hpre.symm, (List.singleton_inj.1 hq).symm⟩
  · rw [List.concat_eq_append, ← List.cons_append, ← List.append_assoc] at h
    exact .inr ⟨post', (List.append_inj' h rfl).1⟩

/-- The law for one poll more. -/
theorem AlarmLaw.concat (h : AlarmLaw polls) (halternate : Alternate (allEvents (polls ++ [p])))
    (hon : true ∈ p.events ↔ p.alarm ∧ ∀ q ∈ sinceOff polls, ¬ q.alarm)
    (hoff : false ∈ p.events ↔ (quietRun (polls ++ [p])).length = 11 ∧
      ∃ q ∈ upToAlarm (polls ++ [p]), true ∈ q.events) : AlarmLaw (polls ++ [p]) where
  alternate := halternate
  on := by
    intro pre q post hsplit
    obtain ⟨rfl, rfl⟩ | ⟨post', hbefore⟩ := split_concat hsplit
    · exact hon
    · exact h.on pre q post' hbefore
  off := by
    intro pre q post hsplit
    obtain ⟨rfl, rfl⟩ | ⟨post', hbefore⟩ := split_concat hsplit
    · exact hoff
    · exact h.off pre q post' hbefore

end Concat

/-! ## The states of a channel -/

/-- What the statics of a channel and its `gAlarmHappen` say of its polls. -/
inductive Tracked (polls : List Poll) : IpncAlarm → Int → Prop
  | idle {time : Int} :
      (∀ q ∈ sinceOff polls, ¬ q.alarm) →
      11 ≤ (quietRun polls).length ∨ (∀ q ∈ polls, true ∉ q.events) →
      (allEvents polls).length % 2 = 0 → Tracked polls ⟨0, time⟩ 0
  | active {time : Int} :
      (∃ q ∈ sinceOff polls, q.alarm) → quietRun polls = [] →
      (∃ q ∈ polls, true ∈ q.events) →
      (allEvents polls).length % 2 = 1 → Tracked polls ⟨1, time⟩ 1
  | ending {time : Int} :
      (∃ q ∈ sinceOff polls, q.alarm) → (quietRun polls).length + time = 11 →
      1 ≤ time → time ≤ 10 → (∃ q ∈ upToAlarm polls, true ∈ q.events) →
      (allEvents polls).length % 2 = 1 → Tracked polls ⟨2, time⟩ 1

/-- `gAlarmHappen` of a channel after an event. -/
def afterEvent (happened : Int) : Option Bool → Int
  | none => happened
  | some happen => if happen then 1 else 0

/-- The poll that `checkIpnc` makes. -/
def pollOf (alarm : Int) (c : IpncAlarm) : Poll :=
  ⟨decide (alarm ≠ 0), (checkIpnc alarm c).2.toList⟩

section Polls

variable {polls : List Poll} {time alarm : Int}

theorem tracked_idle_alarm (hlaw : AlarmLaw polls) (hsince : ∀ q ∈ sinceOff polls, ¬ q.alarm)
    (heven : (allEvents polls).length % 2 = 0) :
    Tracked (polls ++ [⟨true, [true]⟩]) ⟨1, time⟩ 1 ∧ AlarmLaw (polls ++ [⟨true, [true]⟩]) := by
  constructor
  · refine .active ⟨⟨true, [true]⟩, ?_, rfl⟩ (quietRun_alarm rfl) ⟨⟨true, [true]⟩, by simp, by simp⟩ ?_
    · rw [sinceOff_concat (by simp)]
      simp
    · rw [allEvents_concat, List.length_append]
      simp only [List.length_cons, List.length_nil]
      omega
  · refine hlaw.concat ?_ ?_ ?_
    · rw [allEvents_concat]
      exact hlaw.alternate.concat (by simp [heven])
    · exact ⟨fun _ => ⟨rfl, hsince⟩, fun _ => List.mem_singleton.2 rfl⟩
    · rw [quietRun_alarm rfl]
      simp

/-- A poll without an event. -/
theorem AlarmLaw.still {a : Bool} (hlaw : AlarmLaw polls)
    (hon : a = true → ∃ q ∈ sinceOff polls, q.alarm)
    (hoff : a = false → (quietRun polls).length ≠ 10 ∨ ∀ q ∈ upToAlarm polls, true ∉ q.events) :
    AlarmLaw (polls ++ [⟨a, []⟩]) := by
  refine hlaw.concat ?_ ?_ ?_
  · rw [allEvents_concat, List.append_nil]
    exact hlaw.alternate
  · refine ⟨fun h => (by cases h), fun ⟨halarm, hnone⟩ => ?_⟩
    obtain ⟨q, hq, hqalarm⟩ := hon halarm
    exact absurd hqalarm (hnone q hq)
  · refine ⟨fun h => (by cases h), fun ⟨hlength, q, hq, hevent⟩ => ?_⟩
    cases a with
    | true =>
        rw [quietRun_alarm rfl] at hlength
        simp at hlength
    | false =>
        rw [quietRun_quiet rfl, List.length_append, List.length_singleton] at hlength
        rw [upToAlarm_quiet rfl] at hq
        obtain hne | hnone := hoff rfl
        · omega
        · exact absurd hevent (hnone q hq)

theorem tracked_idle_quiet (hlaw : AlarmLaw polls) (hsince : ∀ q ∈ sinceOff polls, ¬ q.alarm)
    (hquiet : 11 ≤ (quietRun polls).length ∨ ∀ q ∈ polls, true ∉ q.events)
    (heven : (allEvents polls).length % 2 = 0) :
    Tracked (polls ++ [⟨false, []⟩]) ⟨0, time⟩ 0 ∧ AlarmLaw (polls ++ [⟨false, []⟩]) := by
  constructor
  · refine .idle ?_ ?_ ?_
    · intro q hq
      rw [sinceOff_concat (by simp)] at hq
      obtain hq' | hq' := List.mem_append.1 hq
      · exact hsince q hq'
      · simp [List.mem_singleton.1 hq']
    · obtain hlong | hnone := hquiet
      · rw [quietRun_quiet rfl, List.length_append]
        exact .inl (Nat.le_add_right_of_le hlong)
      · refine .inr fun q hq => ?_
        obtain hq' | hq' := List.mem_append.1 hq
        · exact hnone q hq'
        · simp [List.mem_singleton.1 hq']
    · rw [allEvents_concat, List.append_nil]
      exact heven
  · refine hlaw.still (fun h => by cases h) fun _ => ?_
    obtain hlong | hnone := hquiet
    · exact .inl (by omega)
    · exact .inr fun q hq => hnone q (mem_of_mem_upToAlarm hq)

/-- An alarm while there is one already. -/
theorem tracked_alarm_again (hlaw : AlarmLaw polls) (hsince : ∃ q ∈ sinceOff polls, q.alarm)
    (hon : ∃ q ∈ polls, true ∈ q.events) (hodd : (allEvents polls).length % 2 = 1) :
    Tracked (polls ++ [⟨true, []⟩]) ⟨1, time⟩ 1 ∧ AlarmLaw (polls ++ [⟨true, []⟩]) := by
  obtain ⟨q, hq, hqalarm⟩ := hsince
  obtain ⟨r, hr, hrevent⟩ := hon
  constructor
  · refine .active ⟨q, ?_, hqalarm⟩ (quietRun_alarm rfl)
      ⟨r, List.mem_append_left _ hr, hrevent⟩ ?_
    · rw [sinceOff_concat (by simp)]
      exact List.mem_append_left _ hq
    · rw [allEvents_concat, List.append_nil]
      exact hodd
  · exact hlaw.still (fun _ => ⟨q, hq, hqalarm⟩) fun h => by cases h

/-- A poll without an alarm that is not the eleventh. -/
theorem tracked_quiet (hlaw : AlarmLaw polls) (hsince : ∃ q ∈ sinceOff polls, q.alarm)
    (hlength : (quietRun polls).length + 1 + time = 11) (hlo : 1 ≤ time) (hhi : time ≤ 10)
    (hon : ∃ q ∈ upToAlarm polls, true ∈ q.events) (hodd : (allEvents polls).length % 2 = 1) :
    Tracked (polls ++ [⟨false, []⟩]) ⟨2, time⟩ 1 ∧ AlarmLaw (polls ++ [⟨false, []⟩]) := by
  obtain ⟨q, hq, hqalarm⟩ := hsince
  constructor
  · refine .ending ⟨q, ?_, hqalarm⟩ ?_ hlo hhi ?_ ?_
    · rw [sinceOff_concat (by simp)]
      exact List.mem_append_left _ hq
    · rw [quietRun_quiet rfl, List.length_append, List.length_singleton]
      omega
    · rw [upToAlarm_quiet rfl]
      exact hon
    · rw [allEvents_concat, List.append_nil]
      exact hodd
  · exact hlaw.still (fun h => by cases h) fun _ => .inl (by omega)

/-- The eleventh poll without an alarm. -/
theorem tracked_eleventh (hlaw : AlarmLaw polls) (hlength : (quietRun polls).length = 10)
    (hon : ∃ q ∈ upToAlarm polls, true ∈ q.events) (hodd : (allEvents polls).length % 2 = 1) :
    Tracked (polls ++ [⟨false, [false]⟩]) ⟨0, time⟩ 0 ∧
      AlarmLaw (polls ++ [⟨false, [false]⟩]) := by
  have heleven : (quietRun (polls ++ [⟨false, [false]⟩])).length = 11 := by
    rw [quietRun_quiet rfl, List.length_append, List.length_singleton, hlength]
  constructor
  · refine .idle ?_ (.inl (by omega)) ?_
    · rw [sinceOff_off (by simp)]
      exact fun q hq => by cases hq
    · rw [allEvents_concat, List.length_append]
      simp only [List.length_cons, List.length_nil]
      omega
  · refine hlaw.concat ?_ ?_ ?_
    · rw [allEvents_concat]
      exact hlaw.alternate.concat (by simp [hodd])
    · exact ⟨fun h => by simp at h, fun h => by cases h.1⟩
    · rw [upToAlarm_quiet rfl]
      exact ⟨fun _ => ⟨heleven, hon⟩, fun _ => List.mem_singleton.2 rfl⟩

end Polls

theorem Tracked.poll {polls : List Poll} {c : IpncAlarm} {happened : Int}
    (h : Tracked polls c happened) (hlaw : AlarmLaw polls) (alarm : Int) :
    Tracked (polls ++ [pollOf alarm c]) (checkIpnc alarm c).1
        (afterEvent happened (checkIpnc alarm c).2) ∧
      AlarmLaw (polls ++ [pollOf alarm c]) := by
  by_cases halarm : alarm = 0
  · cases h with
    | idle hsince hquiet heven =>
        simpa [pollOf, checkIpnc, halarm, afterEvent] using
          tracked_idle_quiet hlaw hsince hquiet heven
    | active hsince hquiet hon hodd =>
        have hup : ∃ q ∈ upToAlarm polls, true ∈ q.events := by
          rw [upToAlarm_of_quietRun_nil hquiet]
          exact hon
        simpa [pollOf, checkIpnc, halarm, afterEvent] using
          @tracked_quiet _ 10 hlaw hsince (by rw [hquiet]; rfl) (by decide) (by decide) hup hodd
    | ending hsince hlength hlo hhi hon hodd =>
        next time =>
        by_cases hlast : time - 1 = 0
        · simpa [pollOf, checkIpnc, halarm, afterEvent, hlast] using
            @tracked_eleventh _ (time - 1) hlaw (by omega) hon hodd
        · simpa [pollOf, checkIpnc, halarm, afterEvent, hlast] using
            @tracked_quiet _ (time - 1) hlaw hsince (by omega) (by omega) (by omega) hon hodd
  · cases h with
    | idle hsince hquiet heven =>
        simpa [pollOf, checkIpnc, halarm, afterEvent] using tracked_idle_alarm hlaw hsince heven
    | active hsince hquiet hon hodd =>
        simpa [pollOf, checkIpnc, halarm, afterEvent] using
          tracked_alarm_again hlaw hsince hon hodd
    | ending hsince hlength hlo hhi hon hodd =>
        obtain ⟨q, hq, hevent⟩ := hon
        simpa [pollOf, checkIpnc, halarm, afterEvent] using
          tracked_alarm_again hlaw hsince ⟨q, mem_of_mem_upToAlarm hq, hevent⟩ hodd

/-! ## The loop over the channels -/

section Loop

variable {linkAct : Chn → LinkAct} {chn : Chn} {s : Alarms}

/-- What a channel sees of the state: its statics and its alarm flag. -/
def Alarms.seen (s : Alarms) (chn : Chn) : IpncAlarm × Int :=
  (s.ipnc chn, (s.nvrRec.chn chn).alarmHappen)

theorem eventsOf_append (chn : Chn) (a b : List AlarmCall) :
    eventsOf chn (a ++ b) = eventsOf chn a ++ eventsOf chn b := List.filterMap_append

theorem eventsOf_nvrAlarmAction (chn : Chn) (actionCfg : LinkAct) :
    eventsOf chn (nvrAlarmAction actionCfg) = [] := by
  unfold nvrAlarmAction
  split <;> rfl

theorem nvrAlarmIpnc_self (happen : Bool) (r : NvrRec) :
    ((nvrAlarmIpnc linkAct chn happen r).1.chn chn).alarmHappen = (if happen then 1 else 0) ∧
      eventsOf chn (nvrAlarmIpnc linkAct chn happen r).2 = [happen] := by
  cases happen with
  | true =>
      have haction := eventsOf_nvrAlarmAction chn (linkAct chn)
      refine ⟨by simp [nvrAlarmIpnc, nvrRecAlarm], ?_⟩
      simpa [nvrAlarmIpnc, eventsOf] using haction
  | false => simp [nvrAlarmIpnc, nvrRecAlarm, eventsOf]

theorem nvrAlarmIpnc_of_ne {c : Chn} (h : chn ≠ c) (happen : Bool) (r : NvrRec) :
    (nvrAlarmIpnc linkAct c happen r).1.chn chn = r.chn chn ∧
      eventsOf chn (nvrAlarmIpnc linkAct c happen r).2 = [] := by
  cases happen with
  | true =>
      have haction := eventsOf_nvrAlarmAction chn (linkAct c)
      refine ⟨NvrRec.setChn_of_ne _ h _, ?_⟩
      simpa [nvrAlarmIpnc, eventsOf, h.symm] using haction
  | false => exact ⟨NvrRec.setChn_of_ne _ h _, by simp [nvrAlarmIpnc, eventsOf, h.symm]⟩

theorem checkChn_self (alarm : Int) :
    (checkChn linkAct chn alarm s).1.seen chn =
        ((checkIpnc alarm (s.ipnc chn)).1,
          afterEvent (s.nvrRec.chn chn).alarmHappen (checkIpnc alarm (s.ipnc chn)).2) ∧
      eventsOf chn (checkChn linkAct chn alarm s).2 =
        (checkIpnc alarm (s.ipnc chn)).2.toList := by
  cases hevent : (checkIpnc alarm (s.ipnc chn)).2 with
  | none => simp [checkChn, hevent, Alarms.seen, afterEvent, eventsOf]
  | some happen =>
      have hself := @nvrAlarmIpnc_self linkAct chn happen s.nvrRec
      simp [checkChn, hevent, Alarms.seen, afterEvent, hself]

theorem checkChn_of_ne {c : Chn} (h : chn ≠ c) (alarm : Int) :
    (checkChn linkAct c alarm s).1.seen chn = s.seen chn ∧
      eventsOf chn (checkChn linkAct c alarm s).2 = [] := by
  cases hevent : (checkIpnc alarm (s.ipnc c)).2 with
  | none => simp [checkChn, hevent, Alarms.seen, eventsOf, Function.update_of_ne h]
  | some happen =>
      have hne := @nvrAlarmIpnc_of_ne linkAct _ _ h happen s.nvrRec
      simp [checkChn, hevent, Alarms.seen, Function.update_of_ne h, hne]

theorem checkChns_of_not_mem {alarm : Chn → Int} {chns : List Chn} (h : chn ∉ chns) :
    ∀ {s : Alarms}, (checkChns linkAct alarm chns s).1.seen chn = s.seen chn ∧
      eventsOf chn (checkChns linkAct alarm chns s).2 = [] := by
  induction chns with
  | nil => exact ⟨rfl, rfl⟩
  | cons c chns ih =>
      intro s
      obtain ⟨hne, hrest⟩ := not_or.1 (mt List.mem_cons.2 h)
      obtain ⟨hseen, hevents⟩ := @checkChn_of_ne linkAct _ s _ hne (alarm c)
      obtain ⟨hseen', hevents'⟩ := ih hrest (s := (checkChn linkAct c (alarm c) s).1)
      refine ⟨hseen'.trans hseen, ?_⟩
      rw [checkChns, eventsOf_append, hevents, hevents']
      rfl

/-- The loop does to a channel that it comes to what its pass does. -/
theorem checkChns_of_mem {alarm : Chn → Int} {chns : List Chn} (hnodup : chns.Nodup)
    (h : chn ∈ chns) : ∀ {s : Alarms},
    (checkChns linkAct alarm chns s).1.seen chn =
        ((checkIpnc (alarm chn) (s.ipnc chn)).1,
          afterEvent (s.nvrRec.chn chn).alarmHappen (checkIpnc (alarm chn) (s.ipnc chn)).2) ∧
      eventsOf chn (checkChns linkAct alarm chns s).2 =
        (checkIpnc (alarm chn) (s.ipnc chn)).2.toList := by
  induction chns with
  | nil => cases h
  | cons c chns ih =>
      intro s
      obtain ⟨hnot, hnodup'⟩ := List.nodup_cons.1 hnodup
      by_cases hc : chn = c
      · subst hc
        obtain ⟨hseen, hevents⟩ := @checkChn_self linkAct chn s (alarm chn)
        obtain ⟨hseen', hevents'⟩ :=
          @checkChns_of_not_mem linkAct _ alarm _ hnot (checkChn linkAct chn (alarm chn) s).1
        refine ⟨hseen'.trans hseen, ?_⟩
        rw [checkChns, eventsOf_append, hevents, hevents', List.append_nil]
      · obtain ⟨hseen, hevents⟩ := @checkChn_of_ne linkAct _ s _ hc (alarm c)
        have hrest := ih hnodup' ((List.mem_cons.1 h).resolve_left hc)
          (s := (checkChn linkAct c (alarm c) s).1)
        have hipnc : (checkChn linkAct c (alarm c) s).1.ipnc chn = s.ipnc chn :=
          congrArg Prod.fst hseen
        have hhappen : ((checkChn linkAct c (alarm c) s).1.nvrRec.chn chn).alarmHappen =
            (s.nvrRec.chn chn).alarmHappen := congrArg Prod.snd hseen
        rw [hipnc, hhappen] at hrest
        rw [checkChns, eventsOf_append, hevents]
        exact hrest

end Loop

/-! ## Runs -/

theorem nvrAlarmCheckTimeout_chn {chn : Chn} {chnNum : Nat} (hchn : chn.val < chnNum)
    (linkAct : Chn → LinkAct) (alarm : Chn → Int) (s : Alarms) :
    (nvrAlarmCheckTimeout chnNum linkAct alarm s).1.seen chn =
        ((checkIpnc (alarm chn) (s.ipnc chn)).1,
          afterEvent (s.nvrRec.chn chn).alarmHappen (checkIpnc (alarm chn) (s.ipnc chn)).2) ∧
      eventsOf chn (nvrAlarmCheckTimeout chnNum linkAct alarm s).2 =
        (checkIpnc (alarm chn) (s.ipnc chn)).2.toList :=
  checkChns_of_mem ((List.nodup_finRange maxChn).filter _)
    (List.mem_filter.2 ⟨List.mem_finRange chn, decide_eq_true hchn⟩)

theorem nvrAlarmCheckTimeout_not_chn {chn : Chn} {chnNum : Nat} (hchn : ¬ chn.val < chnNum)
    (linkAct : Chn → LinkAct) (alarm : Chn → Int) (s : Alarms) :
    (nvrAlarmCheckTimeout chnNum linkAct alarm s).1.seen chn = s.seen chn :=
  (checkChns_of_not_mem fun hmem => hchn (of_decide_eq_true (List.mem_filter.1 hmem).2)).1

theorem pollsOf_concat (chn : Chn) (labels : List AlarmLabel) (label : AlarmLabel) :
    pollsOf chn (labels ++ [label]) = pollsOf chn labels ++ pollsOf chn [label] :=
  List.filterMap_append

theorem AlarmStep.tracked {chn : Chn} {s t : Alarms} {label : AlarmLabel} {polls : List Poll}
    (hstep : AlarmStep s label t)
    (h : Tracked polls (s.seen chn).1 (s.seen chn).2 ∧ AlarmLaw polls) :
    Tracked (polls ++ pollsOf chn [label]) (t.seen chn).1 (t.seen chn).2 ∧
      AlarmLaw (polls ++ pollsOf chn [label]) := by
  cases hstep with
  | poll chnNum linkAct alarm =>
      by_cases hchn : chn.val < chnNum
      · obtain ⟨hseen, hevents⟩ := nvrAlarmCheckTimeout_chn hchn linkAct alarm s
        have hpoll : pollsOf chn
            [.poll chnNum alarm (nvrAlarmCheckTimeout chnNum linkAct alarm s).2] =
              [pollOf (alarm chn) (s.ipnc chn)] := by
          simp [pollsOf, hchn, hevents, pollOf]
        rw [hpoll, hseen]
        exact h.1.poll h.2 (alarm chn)
      · have hpoll : pollsOf chn
            [.poll chnNum alarm (nvrAlarmCheckTimeout chnNum linkAct alarm s).2] = [] := by
          simp [pollsOf, hchn]
        rw [hpoll, List.append_nil, nvrAlarmCheckTimeout_not_chn hchn]
        exact h
  | recCtrl c recCfg clock replies =>
      have hseen : ({ s with nvrRec := (nvrRecCtrl c recCfg clock replies s.nvrRec).1 } :
          Alarms).seen chn = s.seen chn :=
        Prod.ext rfl (nvrRecCtrl_alarmHappen c recCfg clock replies s.nvrRec chn)
      rw [hseen]
      simpa [pollsOf] using h
  | recManual c start =>
      have hseen : ({ s with nvrRec := nvrRecManual c start s.nvrRec } : Alarms).seen chn =
          s.seen chn := by
        by_cases hc : chn = c
        · subst hc
          simp [Alarms.seen, nvrRecManual]
        · simp [Alarms.seen, nvrRecManual, NvrRec.setChn_of_ne _ hc]
      rw [hseen]
      simpa [pollsOf] using h

theorem tracked_of_run {chn : Chn} {labels : List AlarmLabel} {s : Alarms}
    (hrun : Run AlarmStep alarmsInit labels s) :
    Tracked (pollsOf chn labels) (s.seen chn).1 (s.seen chn).2 ∧
      AlarmLaw (pollsOf chn labels) := by
  induction hrun with
  | nil =>
      refine ⟨.idle (fun q hq => by cases hq) (.inr fun q hq => by cases hq) rfl, ?_, ?_, ?_⟩
      · exact fun i happen hi => by cases hi
      · exact fun pre p post h => absurd h (by simp [pollsOf])
      · exact fun pre p post h => absurd h (by simp [pollsOf])
  | snoc _ hstep ih =>
      rw [pollsOf_concat]
      exact hstep.tracked ih

/-- In every run the events of a channel follow the law, and the recorder sees the
alarm from each on event to the next off event. -/
theorem alarmLaw_of_run (chn : Chn) {labels : List AlarmLabel} {s : Alarms}
    (hrun : Run AlarmStep alarmsInit labels s) :
    AlarmLaw (pollsOf chn labels) ∧
      (s.nvrRec.chn chn).alarmHappen =
        (if (allEvents (pollsOf chn labels)).getLast? = some true then 1 else 0) := by
  obtain ⟨htracked, hlaw⟩ := @tracked_of_run chn _ _ hrun
  have hlast := hlaw.alternate.getLast?_eq
  refine ⟨hlaw, ?_⟩
  change (s.seen chn).2 = _
  generalize (s.seen chn).1 = c at htracked
  generalize (s.seen chn).2 = happened at htracked
  cases htracked with
  | idle _ _ heven => rw [if_neg fun h => by have hodd := hlast.1 h; omega]
  | active _ _ _ hodd => rw [if_pos (hlast.2 hodd)]
  | ending _ _ _ _ _ hodd => rw [if_pos (hlast.2 hodd)]

/-- The levels of a run with nothing else in it, one poll after the other. -/
def pollRun (chnNum : Nat) (linkAct : Chn → LinkAct) : List (Chn → Int) → Alarms →
    List AlarmLabel × Alarms
  | [], s => ([], s)
  | alarm :: alarms, s =>
      let polled := nvrAlarmCheckTimeout chnNum linkAct alarm s
      let rest := pollRun chnNum linkAct alarms polled.1
      (.poll chnNum alarm polled.2 :: rest.1, rest.2)

theorem pollRun_run (chnNum : Nat) (linkAct : Chn → LinkAct) :
    ∀ (alarms : List (Chn → Int)) (s : Alarms),
      Run AlarmStep s (pollRun chnNum linkAct alarms s).1 (pollRun chnNum linkAct alarms s).2 := by
  intro alarms
  induction alarms with
  | nil => exact fun _ => .nil
  | cons alarm alarms ih =>
      intro s
      exact (Run.single (.poll s chnNum linkAct alarm)).append (ih _)

/-- The first channel has an alarm at the second poll and again at the fifth, and then
none for eleven polls. -/
def twoLevels : List (Chn → Int) :=
  [0, 1, 0, 0, 2, 0, 0, 0, 0, 0, 0, 0, 0, 0, 0, 0].map fun level chn =>
    if chn = 0 then level else 0

theorem alarmLaw_of_run_twoLevels :
    ∃ labels s, Run AlarmStep alarmsInit labels s ∧
      allEvents (pollsOf 0 labels) = [true, false] ∧ AlarmLaw (pollsOf 0 labels) ∧
      (s.nvrRec.chn 0).alarmHappen = 0 := by
  have hrun := pollRun_run 4 (fun _ => ⟨1⟩) twoLevels alarmsInit
  have hevents : allEvents (pollsOf 0 (pollRun 4 (fun _ => ⟨1⟩) twoLevels alarmsInit).1) =
      [true, false] := by
    decide
  obtain ⟨hlaw, hhappen⟩ := alarmLaw_of_run 0 hrun
  refine ⟨_, _, hrun, hevents, hlaw, ?_⟩
  rw [hhappen, hevents]
  rfl

end Nvr.Server
