import Nvr.Lib.Run
import Nvr.Storage.ReadSessions

/-!
# Playback while a disk is formatted

A handle is gone to without a look into `read_list`, so a request is safe as long as its session
is there, which nothing but its client's restraint sees to. The loop of a format takes a node out
of the list and then asks it for the next one. It only goes well on a list that is empty when it
begins, and stays so until the disk is worked on: the starting of a session is not refused.
-/

namespace Nvr.StorageServer

open Nvr.Storage

/-! ## The law -/

/-- The server has only gone to handles of sessions in `read_list`, no loop to a node that is
removed, and no format to work while there was a session. What has been started is in `read_list`,
or has been stopped, once, by its client or a format. -/
structure SessionLaw (s : Server) : Prop where
  handles : ∀ listed, Event.session listed ∈ s.events → listed = true
  nodes : ∀ removed, Event.node removed ∈ s.events → removed = false
  formats : ∀ n, Event.format n ∈ s.events → n = 0
  once : s.started.Perm (s.readList ++ s.stopped.map (·.1))
  stopper : ∀ x ∈ s.stopped, x.2 = .format ∨ x.2 = .client x.1.client

/-- A handle is used while its session is in `read_list`, and stopped by its client; the loop of
a format has nothing to visit, and no session is there until it works on the disk. -/
def Server.Meets (s : Server) : Act → Prop
  | .readStop client handle => ∃ r, s.sessionAt handle = some r ∧ r.client = client
  | .readSet _ handle | .readSeek _ handle => (s.sessionAt handle).isSome
  | .readFrame _ handle => s.formatStatus = true ∨ (s.sessionAt handle).isSome
  | .formatStep _ _ =>
      match s.formatThread with
      | .visiting (some _) => False
      | .freeing | .starting => s.readList = []
      | _ => True
  | .readStart _ _ | .formatDiskStart | .formatDiskStop | .formatPercent => True

/-! ## What is kept -/

structure Kept (s : Server) : Prop where
  law : SessionLaw s
  addr : ∀ r ∈ s.started, r.addr ≠ 0

theorem kept_init : Kept init where
  law :=
    { handles := fun _ h => by cases h
      nodes := fun _ h => by cases h
      formats := fun _ h => by cases h
      once := .nil
      stopper := fun _ h => by cases h }
  addr := fun _ h => by cases h

/-- What only concerns the format leaves the sessions as they are. -/
theorem Kept.withFormat {s : Server} (h : Kept s) (formatStatus : Bool)
    (formatThread : FormatThread) :
    Kept { s with formatStatus := formatStatus, formatThread := formatThread } :=
  ⟨⟨h.law.handles, h.law.nodes, h.law.formats, h.law.once, h.law.stopper⟩, h.addr⟩

theorem Kept.returned_ne {s : Server} (h : Kept s) {handle : Int} (hret : s.Returned handle) :
    handle ≠ 0 := by
  obtain ⟨r, hr, rfl⟩ := List.mem_map.1 hret
  exact h.addr r hr

theorem Kept.deref {s : Server} (h : Kept s) {handle : Int}
    (hlisted : (s.sessionAt handle).isSome = true) : Kept (s.deref handle) := by
  refine ⟨⟨fun listed hmem => ?_, fun removed hmem => ?_, fun n hmem => ?_, h.law.once,
    h.law.stopper⟩, h.addr⟩
  · rcases List.mem_append.1 hmem with hold | hnew
    · exact h.law.handles listed hold
    · rw [Event.session.inj (List.mem_singleton.1 hnew), hlisted]
  · rcases List.mem_append.1 hmem with hold | hnew
    · exact h.law.nodes removed hold
    · cases List.mem_singleton.1 hnew
  · rcases List.mem_append.1 hmem with hold | hnew
    · exact h.law.formats n hold
    · cases List.mem_singleton.1 hnew

/-- Going to a handle whose session is not in the list breaks the law, whatever comes of it. -/
theorem not_law_deref {s : Server} {handle : Int} (hnone : ¬ (s.sessionAt handle).isSome = true) :
    ¬ SessionLaw (s.deref handle) := fun hlaw =>
  hnone (hlaw.handles _ (List.mem_append_right _ (List.mem_singleton.2 rfl)))

theorem sessionAt_mem {s : Server} {handle : Int} {r : RecordReadInfo}
    (h : s.sessionAt handle = some r) : r ∈ s.readList := List.mem_of_find?_eq_some h

theorem Kept.stop {s : Server} (h : Kept s) {r : RecordReadInfo} {by_ : StoppedBy}
    (hr : r ∈ s.readList) (hby : by_ = .format ∨ by_ = .client r.client) : Kept (s.stop r by_) := by
  refine ⟨⟨h.law.handles, h.law.nodes, h.law.formats, ?_, fun x hx => ?_⟩, h.addr⟩
  · rw [Server.stop, List.map_append, List.map_singleton, ← List.append_assoc]
    refine (h.law.once.trans ((List.perm_cons_erase hr).append_right _)).trans ?_
    exact (List.perm_append_singleton r _).symm
  · rcases List.mem_append.1 hx with hold | hnew
    · exact h.law.stopper x hold
    · obtain rfl := List.mem_singleton.1 hnew
      exact hby

/-- Of the sessions that have been started, those in `read_list` are not stopped. -/
theorem SessionLaw.length {s : Server} (h : SessionLaw s) :
    s.started.length = s.readList.length + s.stopped.length := by
  rw [h.once.length_eq, List.length_append, List.length_map]

/-! ## What one act does -/

/-- What an act that meets its condition keeps, and one that does not breaks. -/
structure Turns (s : Server) (act : Act) (t : Server) : Prop where
  keeps : s.Meets act → Kept t
  breaks : ¬ s.Meets act → ¬ SessionLaw t

theorem Kept.turns_start {s t : Server} (h : Kept s) {client : Nat} {opened : Option Int}
    (hexec : s.exec (.readStart client opened) = some t) : Turns s (.readStart client opened) t := by
  obtain ⟨hfree, hstart⟩ := Option.ite_none_right_eq_some.1 hexec
  obtain rfl := Option.some.inj hstart
  refine ⟨fun _ => ?_, fun hno => absurd trivial hno⟩
  cases opened with
  | none => exact h
  | some addr =>
      refine ⟨⟨h.law.handles, h.law.nodes, h.law.formats, ?_, h.law.stopper⟩, fun r hr => ?_⟩
      · simp only [strgRecordReadStart, List.append_assoc]
        refine ((h.law.once.append_right _).trans ?_)
        rw [List.append_assoc]
        exact List.perm_append_comm.append_left _
      · rcases List.mem_append.1 hr with hold | hnew
        · exact h.addr r hold
        · obtain rfl := List.mem_singleton.1 hnew
          exact (hfree addr rfl).1

theorem Kept.turns_stop {s t : Server} (h : Kept s) {client : Nat} {handle : Int}
    (hexec : s.exec (.readStop client handle) = some t) : Turns s (.readStop client handle) t := by
  obtain ⟨hret, hstop⟩ := Option.ite_none_right_eq_some.1 hexec
  obtain rfl := Option.some.inj hstop
  rw [strgRecordReadStop, if_neg (h.returned_ne hret)]
  cases hat : s.sessionAt handle with
  | none =>
      refine ⟨fun hok => ?_, fun _ => not_law_deref (by rw [hat]; simp)⟩
      obtain ⟨r, hr, -⟩ := hok
      rw [hat] at hr
      cases hr
  | some r =>
      have hderef := h.deref (show (s.sessionAt handle).isSome = true by rw [hat]; rfl)
      refine ⟨fun hok => ?_, fun hno hlaw => hno ?_⟩
      · obtain ⟨r', hr', hclient⟩ := hok
        obtain rfl := Option.some.inj (hat.symm.trans hr')
        exact hderef.stop (sessionAt_mem hat) (.inr (by rw [hclient]))
      · have hmem : (r, StoppedBy.client client) ∈
            ((s.deref handle).stop r (.client client)).stopped :=
          List.mem_append_right _ (List.mem_singleton.2 rfl)
        rcases hlaw.stopper _ hmem with hformat | hclient
        · cases hformat
        · exact ⟨r, hat, (StoppedBy.client.inj hclient).symm⟩

/-- A request that only goes to its handle. -/
theorem Kept.turns_deref {s : Server} (h : Kept s) {act : Act} {handle : Int}
    (hmeets : s.Meets act ↔ (s.sessionAt handle).isSome = true) : Turns s act (s.deref handle) :=
  ⟨fun hok => h.deref (hmeets.1 hok), fun hno => not_law_deref fun hlisted => hno (hmeets.2 hlisted)⟩

theorem Kept.turns_frame {s t : Server} (h : Kept s) {client : Nat} {handle : Int}
    (hexec : s.exec (.readFrame client handle) = some t) : Turns s (.readFrame client handle) t := by
  obtain ⟨hret, hread⟩ := Option.ite_none_right_eq_some.1 hexec
  obtain rfl := Option.some.inj hread
  rw [strgRecordRead, if_neg (h.returned_ne hret)]
  split
  next hformat => exact ⟨fun _ => h, fun hno => absurd (.inl hformat) hno⟩
  next hformat =>
    refine h.turns_deref ⟨fun hok => hok.resolve_left hformat, fun hlisted => .inr hlisted⟩

theorem Kept.joined {s : Server} (h : Kept s) {r : Server × Int32} (hjoin : s.join = some r) :
    Kept r.1 := by
  unfold Server.join at hjoin
  split at hjoin
  next =>
    obtain rfl := Option.some.inj hjoin
    exact h
  next =>
    obtain rfl := Option.some.inj hjoin
    exact h.withFormat _ _
  next => cases hjoin

/-- Starting and stopping a format, and asking how far it is, leave the sessions alone. -/
theorem Kept.turns_format {s t : Server} (h : Kept s) {act : Act}
    (hact : act = .formatDiskStart ∨ act = .formatDiskStop ∨ act = .formatPercent)
    (hexec : s.exec act = some t) : Turns s act t := by
  rcases hact with rfl | rfl | rfl
  · refine ⟨fun _ => ?_, fun hno => absurd trivial hno⟩
    obtain rfl := Option.some.inj hexec
    unfold strgRecordFormatDiskStart
    split
    · exact h
    · exact h.withFormat _ _
  · refine ⟨fun _ => ?_, fun hno => absurd trivial hno⟩
    simp only [Server.exec, strgRecordFormatDiskStop] at hexec
    split at hexec
    next =>
      obtain ⟨r, hjoin, rfl⟩ := Option.map_eq_some_iff.1 hexec
      exact (h.joined hjoin).withFormat _ _
    next =>
      obtain rfl := Option.some.inj hexec
      exact h
  · refine ⟨fun _ => ?_, fun hno => absurd trivial hno⟩
    simp only [Server.exec, strgRecordFormatGetPercent] at hexec
    split at hexec
    next =>
      obtain ⟨r, hjoin, rfl⟩ := Option.map_eq_some_iff.1 hexec
      split
      · exact (h.joined hjoin).withFormat _ _
      · exact h.joined hjoin
    next =>
      obtain rfl := Option.some.inj hexec
      exact h

/-- Whatever a turn of the loop finds in the node, it has removed it, or found it removed. -/
theorem not_law_visit (s : Server) (list : RecordReadInfo) (next : Option RecordReadInfo) :
    ¬ SessionLaw (visit s list next) := by
  intro hlaw
  have hmem : Event.node true ∈ (visit s list next).events := by
    simp only [visit]
    split <;> exact List.mem_append_right _ (List.mem_singleton.2 rfl)
  cases hlaw.nodes true hmem

theorem Kept.turns_step {s t : Server} (h : Kept s) {next : Option RecordReadInfo} {ret : Int32}
    (hexec : s.exec (.formatStep next ret) = some t) : Turns s (.formatStep next ret) t := by
  have hlen := h.law.length
  simp only [Server.exec, strgRecordFormatDiskFunc] at hexec
  split at hexec
  next hthread =>
    obtain rfl := Option.some.inj hexec
    have hmeets : s.Meets (.formatStep next ret) := by simp [Server.Meets, hthread]
    exact ⟨fun _ => h.withFormat _ _, fun hno => absurd hmeets hno⟩
  next list hthread =>
    obtain rfl := Option.some.inj hexec
    have hmeets : ¬ s.Meets (.formatStep next ret) := by simp [Server.Meets, hthread]
    exact ⟨fun hok => absurd hok hmeets, fun _ => not_law_visit s list next⟩
  next hthread =>
    obtain rfl := Option.some.inj hexec
    have hmeets : s.Meets (.formatStep next ret) := by simp [Server.Meets, hthread]
    exact ⟨fun _ => h.withFormat _ _, fun hno => absurd hmeets hno⟩
  next hthread =>
    obtain rfl := Option.some.inj hexec
    have hmeets : s.Meets (.formatStep next ret) ↔ s.readList = [] := by
      simp [Server.Meets, hthread]
    refine ⟨fun hok => ?_, fun hno hlaw => hno (hmeets.2 ?_)⟩
    · rw [← hmeets.1 hok]
      exact h.withFormat _ _
    · -- what was in the list has been started, and is neither there nor stopped
      have hlen' := hlaw.length
      simp only [List.length_nil] at hlen'
      exact List.length_eq_zero_iff.1 (by omega)
  next hthread =>
    obtain rfl := Option.some.inj hexec
    have hmeets : s.Meets (.formatStep next ret) ↔ s.readList = [] := by
      simp [Server.Meets, hthread]
    refine ⟨fun hok => ?_, fun hno hlaw => hno (hmeets.2 ?_)⟩
    · rw [hmeets.1 hok, List.length_nil, Nat.zero_add] at hlen
      refine ⟨⟨fun listed hmem => ?_, fun removed hmem => ?_, fun n hmem => ?_, h.law.once,
        h.law.stopper⟩, h.addr⟩
      · rcases List.mem_append.1 hmem with hold | hnew
        · exact h.law.handles listed hold
        · cases List.mem_singleton.1 hnew
      · rcases List.mem_append.1 hmem with hold | hnew
        · exact h.law.nodes removed hold
        · cases List.mem_singleton.1 hnew
      · rcases List.mem_append.1 hmem with hold | hnew
        · exact h.law.formats n hold
        · rw [Event.format.inj (List.mem_singleton.1 hnew), hlen, Nat.sub_self]
    · have hzero := hlaw.formats _ (List.mem_append_right _ (List.mem_singleton.2 rfl))
      exact List.length_eq_zero_iff.1 (by omega)
  next => cases hexec
  next => cases hexec

theorem Kept.turns {s t : Server} {act : Act} (h : Kept s) (hexec : s.exec act = some t) :
    Turns s act t := by
  cases act with
  | readStart _ _ => exact h.turns_start hexec
  | readStop _ _ => exact h.turns_stop hexec
  | readSet client handle | readSeek client handle =>
      obtain ⟨hret, hread⟩ := Option.ite_none_right_eq_some.1 hexec
      obtain rfl := Option.some.inj (hread.symm.trans (congrArg some (if_neg (h.returned_ne hret))))
      exact h.turns_deref Iff.rfl
  | readFrame _ _ => exact h.turns_frame hexec
  | formatDiskStart => exact h.turns_format (.inl rfl) hexec
  | formatDiskStop => exact h.turns_format (.inr (.inl rfl)) hexec
  | formatPercent => exact h.turns_format (.inr (.inr rfl)) hexec
  | formatStep _ _ => exact h.turns_step hexec

/-- In a run of requests and steps of formats, the law holds all the time if and only if every
act meets its condition. -/
theorem session_law_iff {acts : List Act} {t : Server}
    (hrun : acts.foldlM Server.exec init = some t) :
    (∀ pre u, pre <+: acts → pre.foldlM Server.exec init = some u → SessionLaw u) ↔
      ∀ pre act u, pre ++ [act] <+: acts → pre.foldlM Server.exec init = some u → u.Meets act :=
  Run.good_iff_meets Kept.law (fun h hexec hok => (h.turns hexec).keeps hok)
    (fun h hexec hno => (h.turns hexec).breaks hno) kept_init hrun

theorem session_law_iff_start :
    (∀ pre u, pre <+: [Act.readStart 1 (some 4096), .readStop 1 4096] →
        pre.foldlM Server.exec init = some u → SessionLaw u) ↔
      ∀ pre act u, pre ++ [act] <+: [Act.readStart 1 (some 4096), .readStop 1 4096] →
        pre.foldlM Server.exec init = some u → u.Meets act :=
  @session_law_iff [.readStart 1 (some 4096), .readStop 1 4096] _ rfl

/-- A format is begun while a session is played. -/
theorem not_session_law :
    ∃ (acts : List Act) (t : Server), acts.foldlM Server.exec init = some t ∧ ¬ SessionLaw t :=
  ⟨[.readStart 1 (some 4096), .formatDiskStart, .formatStep none 0, .formatStep none 0], _, rfl,
    not_law_visit _ _ _⟩

end Nvr.StorageServer
