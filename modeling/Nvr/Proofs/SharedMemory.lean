import Mathlib.Data.List.Nodup
import Nvr.Lib.Run
import Nvr.Storage.StorageLib

/-!
# The shared memory of a client process

As long as all goes well, a segment is attached and not removed while its query or read is the
process's, and the other way round when it is not. A request that does not come back leaves the
segment of a query removed and attached, and the one of a read as it was made; an answer with an
error is not something that the process frees or stops. All of it is left behind for good, as is
what the server has opened for a read that the process does not know of.
-/

namespace Nvr.StorageLib

open Nvr.Storage

/-! ## The law -/

/-- The segments of the queries that are not freed and of the reads that are not stopped. -/
def Sys.owned (s : Sys) : List Nat := s.queries.map (·.shmid) ++ s.reads.map (·.shmid)

/-- A segment is there until it is removed and nobody has it attached, neither the process nor
the server for a session. -/
def Sys.Exists (s : Sys) (id : Nat) : Prop :=
  id < s.made ∧
    ((s.seg id).removed = false ∨ (s.seg id).attached = true ∨ ∃ r ∈ s.readList, r.shmid = id)

def Sys.Attached (s : Sys) (id : Nat) : Prop := id < s.made ∧ (s.seg id).attached = true

/-- The session of a read. -/
def StorageLibReadInfo.session (r : StorageLibReadInfo) : RecordReadInfo := ⟨r.handle, r.shmid⟩

structure MemoryLaw (s : Sys) : Prop where
  segs : ∀ id, s.Exists id ↔ id ∈ s.owned
  attached : ∀ id, s.Attached id ↔ id ∈ s.owned
  sessions : ∀ x, x ∈ s.readList ↔ ∃ r ∈ s.reads, r.session = x

/-! ## The condition -/

/-- The request is sent, with what is behind its header if anything is. -/
def Transport.Arrives (env : Transport) (sock ext : Bool) : Prop :=
  (sock = true ∨ env.connects = true) ∧ env.sendsHdr = true ∧ (ext = true → env.sendsExt = true)

/-- A header comes back: the server's, or at the end of the connection the one that was sent. -/
def Transport.Back (env : Transport) (sock ext : Bool) : Prop :=
  env.Arrives sock ext ∧ ∀ served, env.reply ≠ .failed served

/-- Nothing is left behind by a call. -/
def Sys.Meets (s : Sys) : Call → Prop
  | .recordQuery chnMask _ _ _ mem env =>
      chnMask = 0 ∨ mem.shmget = false ∨
        if mem.shmat then
          env.Back s.sock false ∧ (env.reply = .answered → 0 ≤ env.serving.queryResult)
        else ¬ env.Back s.sock false
  | .recordQueryFree _ => True
  | .readStart queryInfo mem env =>
      queryInfo = none ∨ mem.shmget = false ∨
        (mem.shmat = true ∧ mem.malloc = true ∧ env.Arrives s.sock true ∧
          env.reply = .answered ∧ env.recvsExt = true ∧ env.serving.opened.isSome)
  | .readStop _ env =>
      env.Arrives s.sock false ∧ (env.reply = .answered ∨ env.reply = .ended true)
  | .saveJpegByPath _ _ _ _ _ => True

/-! ## A request -/

/-- The server's sessions after a request of which this has come. -/
def servedList (readList : List RecordReadInfo) (hdr : StorageSvrNetHdr) (ext : ExtData)
    (env : Transport) (done : Bool) : List RecordReadInfo :=
  if done then (strgServerDecodeCmd readList hdr ext env.serving).1 else readList

/-- What a request leaves. -/
inductive Fared (s : Sys) (hdr : StorageSvrNetHdr) (ext : ExtData) (sendBuf recvBuf : Bool)
    (env : Transport) : Sys × Option StorageSvrNetHdr → Prop
  | unsent (hsent : ¬ env.Arrives s.sock (decide (0 < hdr.extDataLen) && sendBuf)) :
      Fared s hdr ext sendBuf recvBuf env ({ s with sock := false }, none)
  | failed (done : Bool) (hreply : env.reply = .failed done) :
      Fared s hdr ext sendBuf recvBuf env
        ({ s with sock := false, readList := servedList s.readList hdr ext env done }, none)
  | ended (done : Bool) (hsent : env.Arrives s.sock (decide (0 < hdr.extDataLen) && sendBuf))
      (hreply : env.reply = .ended done)
      (hext : ¬ (0 < hdr.extDataLen ∧ recvBuf = true ∧ env.recvsExt = false)) :
      Fared s hdr ext sendBuf recvBuf env
        ({ s with sock := true, readList := servedList s.readList hdr ext env done }, some hdr)
  | answered (hsent : env.Arrives s.sock (decide (0 < hdr.extDataLen) && sendBuf))
      (hreply : env.reply = .answered)
      (hext : ¬ (0 < (strgServerDecodeCmd s.readList hdr ext env.serving).2.extDataLen ∧
        recvBuf = true ∧ env.recvsExt = false)) :
      Fared s hdr ext sendBuf recvBuf env
        ({ s with sock := true, readList := servedList s.readList hdr ext env true },
          some (strgServerDecodeCmd s.readList hdr ext env.serving).2)
  | cut (done : Bool) (hreply : env.reply = .answered ∨ env.reply = .ended done)
      (hext : recvBuf = true ∧ env.recvsExt = false) :
      Fared s hdr ext sendBuf recvBuf env
        ({ s with sock := false, readList := servedList s.readList hdr ext env done }, none)

theorem fared (s : Sys) (hdr : StorageSvrNetHdr) (ext : ExtData) (sendBuf recvBuf : Bool)
    (env : Transport) :
    Fared s hdr ext sendBuf recvBuf env
      (storageLibSendAndRecvPacket s hdr ext sendBuf recvBuf env) := by
  unfold storageLibSendAndRecvPacket
  split
  next hsock =>
    refine .unsent fun hsent => ?_
    rcases hsent.1 with h | h <;> simp [h] at hsock
  next hsock =>
    simp only
    split
    next hhdr => exact .unsent fun hsent => by simp [hsent.2.1] at hhdr
    next hhdr =>
      split
      next hext =>
        refine .unsent fun hsent => ?_
        have hsends := hsent.2.2 (by simp [hext.1, hext.2.1])
        simp [hsends] at hext
      next hext =>
        have hsent : env.Arrives s.sock (decide (0 < hdr.extDataLen) && sendBuf) := by
          refine ⟨?_, by simpa using hhdr, fun hsend => ?_⟩
          · cases hs : s.sock <;> simp_all
          · by_contra hno
            simp only [Bool.and_eq_true, decide_eq_true_eq] at hsend
            exact hext ⟨hsend.1, hsend.2, by simpa using hno⟩
        match hreply : env.reply with
        | .failed done =>
            simp only [Sys.replied, hreply]
            cases done <;> exact .failed _ hreply
        | .ended done =>
            simp only [Sys.replied, hreply]
            split
            next hcut =>
              have hcut' : recvBuf = true ∧ env.recvsExt = false := by simpa using hcut.2
              cases done <;> exact .cut _ (.inr hreply) hcut'
            next hcut =>
              have hcut' : ¬ (0 < hdr.extDataLen ∧ recvBuf = true ∧ env.recvsExt = false) := by
                simpa using hcut
              cases done <;> exact .ended _ hsent hreply hcut'
        | .answered =>
            simp only [Sys.replied, hreply]
            split
            next hcut =>
              exact .cut true (.inl hreply) (by simpa using hcut.2)
            next hcut => exact .answered hsent hreply (by simpa using hcut)

/-! ## Segments -/

/-- A segment that is owned is attached and not removed, and any other is the other way round. -/
structure SegsKept (seg : Nat → Seg) (made : Nat) (Own : Nat → Prop) : Prop where
  lt : ∀ id, Own id → id < made
  attached : ∀ id < made, (seg id).attached = true ↔ Own id
  removed : ∀ id < made, (seg id).removed = false ↔ Own id

variable {seg : Nat → Seg} {made : Nat} {Own Own' : Nat → Prop}

theorem SegsKept.not_own (h : SegsKept seg made Own) : ¬ Own made :=
  fun hown => absurd (h.lt made hown) (Nat.lt_irrefl _)

theorem SegsKept.not_own_of_removed (h : SegsKept seg made Own) {id : Nat} (hlt : id < made)
    (hremoved : (seg id).removed = true) : ¬ Own id := fun hown => by
  have hkept := (h.removed id hlt).2 hown
  rw [hremoved] at hkept
  cases hkept

theorem SegsKept.make (h : SegsKept seg made Own) (hown : ∀ id, Own' id ↔ Own id ∨ id = made) :
    SegsKept (Function.update seg made ⟨true, false⟩) (made + 1) Own' := by
  have hupdate : ∀ id < made + 1,
      ((Function.update seg made ⟨true, false⟩) id).attached = true ↔ Own' id := by
    intro id hid
    rw [hown]
    by_cases hnew : id = made
    · subst hnew
      simp
    · rw [Function.update_of_ne hnew, h.attached id (by omega)]
      simp [hnew]
  refine ⟨fun id hid => ?_, hupdate, fun id hid => ?_⟩
  · rcases (hown id).1 hid with hold | rfl
    · exact Nat.lt_succ_of_lt (h.lt id hold)
    · exact Nat.lt_succ_self _
  · rw [hown]
    by_cases hnew : id = made
    · subst hnew
      simp
    · rw [Function.update_of_ne hnew, h.removed id (by omega)]
      simp [hnew]

/-- A segment that is removed at once. -/
theorem SegsKept.skip (h : SegsKept seg made Own) :
    SegsKept (Function.update seg made ⟨false, true⟩) (made + 1) Own := by
  refine ⟨fun id hid => Nat.lt_succ_of_lt (h.lt id hid), fun id hid => ?_, fun id hid => ?_⟩
  · by_cases hnew : id = made
    · subst hnew
      simp [h.not_own]
    · rw [Function.update_of_ne hnew, h.attached id (by omega)]
  · by_cases hnew : id = made
    · subst hnew
      simp [h.not_own]
    · rw [Function.update_of_ne hnew, h.removed id (by omega)]

theorem SegsKept.drop {gone : Nat} (h : SegsKept seg made Own)
    (hown : ∀ id, Own' id ↔ Own id ∧ id ≠ gone) :
    SegsKept (Function.update seg gone ⟨false, true⟩) made Own' := by
  refine ⟨fun id hid => h.lt id ((hown id).1 hid).1, fun id hid => ?_, fun id hid => ?_⟩
  · rw [hown]
    by_cases hgone : id = gone
    · subst hgone
      simp
    · rw [Function.update_of_ne hgone, h.attached id hid]
      simp [hgone]
  · rw [hown]
    by_cases hgone : id = gone
    · subst hgone
      simp
    · rw [Function.update_of_ne hgone, h.removed id hid]
      simp [hgone]

/-! ## What is kept -/

structure Kept (s : Sys) : Prop where
  segs : SegsKept s.seg s.made (· ∈ s.owned)
  nodup : s.owned.Nodup
  chnInfo : ∀ q ∈ s.queries, q.chnInfo = some q.shmid
  shmAddr : ∀ r ∈ s.reads, r.shmAddr = some r.shmid
  handle : ∀ r ∈ s.reads, r.handle ≠ 0
  handles : (s.reads.map (·.handle)).Nodup
  sessions : ∀ x, x ∈ s.readList ↔ ∃ r ∈ s.reads, r.session = x

theorem kept_init (connects : Bool) : Kept (storageLibInit connects) where
  segs := ⟨fun _ h => (by cases h), fun _ h => absurd h (Nat.not_lt_zero _),
    fun _ h => absurd h (Nat.not_lt_zero _)⟩
  nodup := List.nodup_nil
  chnInfo := fun _ h => by cases h
  shmAddr := fun _ h => by cases h
  handle := fun _ h => by cases h
  handles := List.nodup_nil
  sessions := fun x => by simp [storageLibInit]

theorem Kept.law {s : Sys} (h : Kept s) : MemoryLaw s := by
  have hattached : ∀ id, s.Attached id ↔ id ∈ s.owned := fun id =>
    ⟨fun hid => (h.segs.attached id hid.1).1 hid.2,
      fun hid => ⟨h.segs.lt id hid, (h.segs.attached id (h.segs.lt id hid)).2 hid⟩⟩
  refine ⟨fun id => ⟨?_, fun hid => ?_⟩, hattached, h.sessions⟩
  · rintro ⟨hlt, hremoved | hatt | ⟨x, hx, rfl⟩⟩
    · exact (h.segs.removed id hlt).1 hremoved
    · exact (h.segs.attached id hlt).1 hatt
    · obtain ⟨r, hr, rfl⟩ := (h.sessions x).1 hx
      exact List.mem_append_right _ (List.mem_map_of_mem hr)
  · have hlt := h.segs.lt id hid
    exact ⟨hlt, .inl ((h.segs.removed id hlt).2 hid)⟩

theorem Kept.withSock {s : Sys} (h : Kept s) (sock : Bool) : Kept { s with sock := sock } :=
  ⟨h.segs, h.nodup, h.chnInfo, h.shmAddr, h.handle, h.handles, h.sessions⟩

theorem Kept.queried {s : Sys} (h : Kept s) :
    Kept
      { s with
        seg := Function.update s.seg s.made ⟨true, false⟩
        made := s.made + 1
        queries := s.queries ++ [⟨s.made, some s.made⟩] } where
  segs := h.segs.make fun id => by simp [Sys.owned, or_comm, or_left_comm]
  nodup := by
    have hnot := h.segs.not_own
    have hnodup := h.nodup
    simp only [Sys.owned, List.map_append, List.map_cons, List.map_nil, List.append_assoc,
      List.singleton_append] at hnodup hnot ⊢
    exact List.nodup_middle.2 (List.nodup_cons.2 ⟨hnot, hnodup⟩)
  chnInfo := fun q hq => by
    rcases List.mem_append.1 hq with hq | hq
    · exact h.chnInfo q hq
    · obtain rfl := List.mem_singleton.1 hq
      rfl
  shmAddr := h.shmAddr
  handle := h.handle
  handles := h.handles
  sessions := h.sessions

theorem Kept.skipped {s : Sys} (h : Kept s) :
    Kept { s with seg := Function.update s.seg s.made ⟨false, true⟩, made := s.made + 1 } :=
  ⟨h.segs.skip, h.nodup, h.chnInfo, h.shmAddr, h.handle, h.handles, h.sessions⟩

theorem Kept.freed {s : Sys} {q : Queried} (h : Kept s) (hq : q ∈ s.queries) :
    Kept
      { s with
        seg := Function.update s.seg q.shmid ⟨false, true⟩
        queries := s.queries.erase q } := by
  have hperm : s.owned.Perm
      (q.shmid :: ((s.queries.erase q).map (·.shmid) ++ s.reads.map (·.shmid))) :=
    ((List.perm_cons_erase hq).map (·.shmid)).append_right _
  have hnodup := List.nodup_cons.1 (hperm.nodup_iff.1 h.nodup)
  refine ⟨h.segs.drop fun id => ?_, hnodup.2, fun q' hq' => h.chnInfo q' (List.mem_of_mem_erase hq'),
    h.shmAddr, h.handle, h.handles, h.sessions⟩
  rw [hperm.mem_iff, List.mem_cons]
  refine ⟨fun hid => ⟨.inr hid, ?_⟩, fun hid => hid.1.resolve_left hid.2⟩
  rintro rfl
  exact hnodup.1 hid

theorem Kept.started {s : Sys} (h : Kept s) {addr : Int} (haddr : addr ≠ 0)
    (hfresh : ∀ r ∈ s.readList, r.addr ≠ addr) :
    Kept
      { s with
        seg := Function.update s.seg s.made ⟨true, false⟩
        made := s.made + 1
        reads := s.reads ++ [⟨addr, s.made, some s.made⟩]
        readList := s.readList ++ [⟨addr, s.made⟩] } where
  segs := h.segs.make fun id => by simp [Sys.owned, or_assoc]
  nodup := by
    have hnot := h.segs.not_own
    have hnodup := h.nodup
    simp only [Sys.owned, List.map_append, List.map_cons, List.map_nil] at hnodup hnot ⊢
    rw [← List.append_assoc]
    exact List.nodup_append_comm.1 (List.nodup_cons.2 ⟨hnot, hnodup⟩)
  chnInfo := h.chnInfo
  shmAddr := fun r hr => by
    rcases List.mem_append.1 hr with hr | hr
    · exact h.shmAddr r hr
    · obtain rfl := List.mem_singleton.1 hr
      rfl
  handle := fun r hr => by
    rcases List.mem_append.1 hr with hr | hr
    · exact h.handle r hr
    · obtain rfl := List.mem_singleton.1 hr
      exact haddr
  handles := by
    rw [List.map_append]
    refine List.nodup_append_comm.1 (List.nodup_cons.2 ⟨fun hmem => ?_, h.handles⟩)
    obtain ⟨r, hr, hrAddr⟩ := List.mem_map.1 hmem
    exact hfresh r.session ((h.sessions _).2 ⟨r, hr, rfl⟩) hrAddr
  sessions := fun x => by
    rw [List.mem_append, h.sessions, List.mem_singleton]
    constructor
    · rintro (⟨r, hr, rfl⟩ | rfl)
      · exact ⟨r, List.mem_append_left _ hr, rfl⟩
      · exact ⟨_, List.mem_append_right _ (List.mem_singleton.2 rfl), rfl⟩
    · rintro ⟨r, hr, rfl⟩
      rcases List.mem_append.1 hr with hr | hr
      · exact .inl ⟨r, hr, rfl⟩
      · obtain rfl := List.mem_singleton.1 hr
        exact .inr rfl

theorem Kept.stopped {s : Sys} {r : StorageLibReadInfo} (h : Kept s) (hr : r ∈ s.reads) :
    Kept
      { s with
        seg := Function.update s.seg r.shmid ⟨false, true⟩
        reads := s.reads.erase r
        readList := s.readList.filter (·.addr ≠ r.handle) } := by
  have hperm : s.owned.Perm
      (r.shmid :: (s.queries.map (·.shmid) ++ (s.reads.erase r).map (·.shmid))) :=
    (((List.perm_cons_erase hr).map (·.shmid)).append_left _).trans List.perm_middle
  have hnodup := List.nodup_cons.1 (hperm.nodup_iff.1 h.nodup)
  have hreads : s.reads.Nodup := h.handles.of_map
  have hsub : ∀ r' ∈ s.reads.erase r, r' ∈ s.reads := fun r' hr' => List.mem_of_mem_erase hr'
  refine ⟨h.segs.drop fun id => ?_, hnodup.2, h.chnInfo, fun r' hr' => h.shmAddr r' (hsub r' hr'),
    fun r' hr' => h.handle r' (hsub r' hr'),
    h.handles.sublist (List.erase_sublist.map _), fun x => ?_⟩
  · rw [hperm.mem_iff, List.mem_cons]
    refine ⟨fun hid => ⟨.inr hid, ?_⟩, fun hid => hid.1.resolve_left hid.2⟩
    rintro rfl
    exact hnodup.1 hid
  · rw [List.mem_filter, h.sessions]
    constructor
    · rintro ⟨⟨r', hr', rfl⟩, hne⟩
      refine ⟨r', (hreads.mem_erase_iff).2 ⟨?_, hr'⟩, rfl⟩
      rintro rfl
      simp [StorageLibReadInfo.session] at hne
    · rintro ⟨r', hr', rfl⟩
      obtain ⟨hne, hmem⟩ := hreads.mem_erase_iff.1 hr'
      refine ⟨⟨r', hmem, rfl⟩, decide_eq_true fun heq => hne ?_⟩
      exact List.inj_on_of_nodup_map h.handles hmem hr heq

/-! ## What breaks the law -/

/-- A segment that is there, and is nobody's. -/
theorem not_law_orphan {t : Sys} {id : Nat} (hlt : id < t.made)
    (hthere : (t.seg id).removed = false ∨ (t.seg id).attached = true) (hown : id ∉ t.owned) :
    ¬ MemoryLaw t :=
  fun hlaw => hown ((hlaw.segs id).1 ⟨hlt, hthere.imp_right .inl⟩)

/-- A segment of a query or a read that is not attached. -/
theorem not_law_unattached {t : Sys} {id : Nat} (hatt : (t.seg id).attached = false)
    (hown : id ∈ t.owned) : ¬ MemoryLaw t := fun hlaw => by
  have hattached := ((hlaw.attached id).2 hown).2
  rw [hatt] at hattached
  cases hattached

/-! ## A query -/

theorem mapped_eq (s : Sys) (mem : Memory) :
    s.mapped mem =
      ({ s with seg := Function.update s.seg s.made ⟨mem.shmat, false⟩, made := s.made + 1 },
        if mem.shmat then some s.made else none) := by
  cases hat : mem.shmat <;> simp [Sys.mapped, hat, Sys.shmget, Sys.shmat]

/-- What a call that meets its condition keeps, and one that does not breaks. -/
structure Turns (s : Sys) (call : Call) (t : Sys) : Prop where
  keeps : s.Meets call → Kept t
  breaks : ¬ s.Meets call → ¬ MemoryLaw t

/-- What a request of this kind leaves of the server's sessions. -/
theorem servedList_query {readList : List RecordReadInfo} {hdr : StorageSvrNetHdr}
    {ext : ExtData} {env : Transport} (hcmd : hdr.cmd = .recordQuery ∨ hdr.cmd = .saveJpegByPath)
    (done : Bool) :
    servedList readList hdr ext env done = readList := by
  unfold servedList strgServerDecodeCmd
  rcases hcmd with hcmd | hcmd <;> rw [hcmd] <;> cases done <;> rfl

theorem not_back_of_failed {env : Transport} {sock ext : Bool} {done : Bool}
    (hreply : env.reply = .failed done) : ¬ env.Back sock ext :=
  fun hback => hback.2 done hreply

theorem back_of_reply {env : Transport} {sock ext : Bool} (hsent : env.Arrives sock ext)
    (hreply : env.reply = .answered ∨ ∃ done, env.reply = .ended done) : env.Back sock ext := by
  refine ⟨hsent, fun done hfailed => ?_⟩
  rcases hreply with hreply | ⟨_, hreply⟩ <;> rw [hreply] at hfailed <;> cases hfailed

/-- The result of a query is what its caller is given a segment for, or not. -/
theorem Kept.turns_query {s t : Sys} (h : Kept s) {chnMask beginTime endTime recordType : Int32}
    {mem : Memory} {env : Transport}
    (hexec : s.exec (.recordQuery chnMask beginTime endTime recordType mem env) = some t) :
    Turns s (.recordQuery chnMask beginTime endTime recordType mem env) t := by
  have hnot : s.made ∉ s.owned := h.segs.not_own
  simp only [Sys.exec, storageLibRecordQuery] at hexec
  split at hexec
  next hmask =>
    obtain rfl := Option.some.inj hexec
    exact ⟨fun _ => h, fun hmeets => absurd (.inl hmask) hmeets⟩
  next hmask =>
    split at hexec
    next hget =>
      obtain rfl := Option.some.inj hexec
      exact ⟨fun _ => h, fun hmeets => absurd (.inr (.inl (by simpa using hget))) hmeets⟩
    next hget =>
      have hget' : ¬ mem.shmget = false := by simpa using hget
      cases hat : mem.shmat with
      | true =>
        have hmeets : s.Meets (.recordQuery chnMask beginTime endTime recordType mem env) ↔
            env.Back s.sock false ∧ (env.reply = .answered → 0 ≤ env.serving.queryResult) := by
          simp [Sys.Meets, hmask, hget', hat]
        simp only [mapped_eq, hat, if_true] at hexec
        generalize hr : storageLibSendAndRecvPacket _ _ _ _ _ env = r at hexec
        have hfared := hr ▸ fared _ _ _ _ _ env
        cases hfared with
        | unsent hsent =>
            obtain rfl := Option.some.inj hexec
            refine ⟨fun hok => absurd (hmeets.1 hok).1.1 hsent, fun _ => ?_⟩
            exact not_law_orphan (Nat.lt_succ_self _) (.inr (by simp [Sys.shmRmid])) hnot
        | failed done hreply =>
            obtain rfl := Option.some.inj hexec
            refine ⟨fun hok => absurd (hmeets.1 hok).1 (not_back_of_failed hreply), fun _ => ?_⟩
            exact not_law_orphan (Nat.lt_succ_self _) (.inr (by simp [Sys.shmRmid])) hnot
        | ended done hsent hreply hext =>
            rw [servedList_query (.inl rfl)] at hexec
            obtain rfl := Option.some.inj hexec
            refine ⟨fun _ => h.queried.withSock true, fun hno => absurd (hmeets.2 ⟨?_, ?_⟩) hno⟩
            · exact back_of_reply hsent (.inr ⟨done, hreply⟩)
            · rw [hreply]
              exact fun hanswered => by cases hanswered
        | answered hsent hreply hext =>
            rw [servedList_query (.inl rfl)] at hexec
            have hback := back_of_reply hsent (.inl hreply)
            replace hexec := show (if 0 ≤ env.serving.queryResult then _ else _) = _ from hexec
            by_cases hpos : 0 ≤ env.serving.queryResult
            · rw [if_pos hpos] at hexec
              obtain rfl := Option.some.inj hexec
              exact ⟨fun _ => h.queried.withSock true,
                fun hno => absurd (hmeets.2 ⟨hback, fun _ => hpos⟩) hno⟩
            · rw [if_neg hpos] at hexec
              obtain rfl := Option.some.inj hexec
              refine ⟨fun hok => absurd ((hmeets.1 hok).2 hreply) hpos, fun _ => ?_⟩
              exact not_law_orphan (Nat.lt_succ_self _) (.inr (by simp)) hnot
        | cut done hreply hext => cases hext.1
      | false =>
        have hmeets : s.Meets (.recordQuery chnMask beginTime endTime recordType mem env) ↔
            ¬ env.Back s.sock false := by
          simp [Sys.Meets, hmask, hget', hat]
        simp only [mapped_eq, hat, Bool.false_eq_true, if_false] at hexec
        generalize hr : storageLibSendAndRecvPacket _ _ _ _ _ env = r at hexec
        have hfared := hr ▸ fared _ _ _ _ _ env
        cases hfared with
        | unsent hsent =>
            obtain rfl := Option.some.inj hexec
            refine ⟨fun _ => ?_, fun hno => absurd (hmeets.2 fun hback => hsent hback.1) hno⟩
            simpa [Sys.shmRmid] using h.skipped.withSock false
        | failed done hreply =>
            rw [servedList_query (.inl rfl)] at hexec
            obtain rfl := Option.some.inj hexec
            refine ⟨fun _ => ?_, fun hno => absurd (hmeets.2 (not_back_of_failed hreply)) hno⟩
            simpa [Sys.shmRmid] using h.skipped.withSock false
        | ended done hsent hreply hext =>
            obtain rfl := Option.some.inj hexec
            refine ⟨fun hok => absurd (back_of_reply hsent (.inr ⟨done, hreply⟩)) (hmeets.1 hok),
              fun _ => ?_⟩
            exact @not_law_unattached _ s.made (by simp) (by simp [Sys.owned])
        | answered hsent hreply hext =>
            refine ⟨fun hok => absurd (back_of_reply hsent (.inl hreply)) (hmeets.1 hok),
              fun _ => ?_⟩
            replace hexec := show (if 0 ≤ env.serving.queryResult then _ else _) = _ from hexec
            by_cases hpos : 0 ≤ env.serving.queryResult
            · rw [if_pos hpos] at hexec
              obtain rfl := Option.some.inj hexec
              exact @not_law_unattached _ s.made (by simp) (by simp [Sys.owned])
            · rw [if_neg hpos] at hexec
              obtain rfl := Option.some.inj hexec
              exact @not_law_orphan _ s.made (Nat.lt_succ_self _) (.inl (by simp)) hnot
        | cut done hreply hext => cases hext.1

theorem Kept.turns_free {s t : Sys} (h : Kept s) {q : Queried}
    (hexec : s.exec (.recordQueryFree q) = some t) : Turns s (.recordQueryFree q) t := by
  obtain ⟨hq, hfree⟩ := Option.ite_none_right_eq_some.1 hexec
  obtain rfl := Option.some.inj hfree
  refine ⟨fun _ => ?_, fun hno => absurd trivial hno⟩
  have hchnInfo := h.chnInfo q hq
  simpa [storageLibRecordQueryFree, hchnInfo, Sys.shmdt, Sys.shmRmid] using h.freed hq

/-! ## A read -/

/-- A read whose session the server does not have. -/
theorem not_law_session {t : Sys} {r : StorageLibReadInfo} (hr : r ∈ t.reads)
    (hnot : r.session ∉ t.readList) : ¬ MemoryLaw t :=
  fun hlaw => hnot ((hlaw.sessions _).2 ⟨r, hr, rfl⟩)

/-- No session is at 0, and none is put there. -/
theorem Kept.session_ne {s : Sys} (h : Kept s) {hdr : StorageSvrNetHdr} {ext : ExtData}
    {env : Transport} (hfresh : env.serving.Fresh s.readList) (hcmd : hdr.cmd = .readStart)
    (done : Bool) : ∀ x ∈ servedList s.readList hdr ext env done, x.addr ≠ 0 := by
  have hold : ∀ x ∈ s.readList, x.addr ≠ 0 := by
    intro x hx
    obtain ⟨r, hr, rfl⟩ := (h.sessions x).1 hx
    exact h.handle r hr
  intro x hx
  unfold servedList strgServerDecodeCmd at hx
  cases done with
  | false => exact hold x hx
  | true =>
      rw [if_pos rfl, hcmd] at hx
      simp only at hx
      split at hx
      next hopened =>
        rcases List.mem_append.1 hx with hx | hx
        · exact hold x hx
        · obtain rfl := List.mem_singleton.1 hx
          exact (hfresh _ hopened).1
      next => exact hold x hx

/-- The handle that the caller is given is the session's only if all has come back. -/
theorem Kept.turns_start {s t : Sys} (h : Kept s) {queryInfo : Option RecordQueryInfo}
    {mem : Memory} {env : Transport}
    (hexec : s.exec (.readStart queryInfo mem env) = some t) :
    Turns s (.readStart queryInfo mem env) t := by
  have hnot : s.made ∉ s.owned := h.segs.not_own
  obtain ⟨hfresh, hexec⟩ := Option.ite_none_right_eq_some.1 hexec
  match queryInfo with
  | none =>
      obtain rfl := Option.some.inj hexec
      exact ⟨fun _ => h, fun hmeets => absurd (.inl rfl) hmeets⟩
  | some queryInfo =>
      simp only [storageLibReadStart] at hexec
      split at hexec
      next hget =>
        obtain rfl := Option.some.inj hexec
        exact ⟨fun _ => h, fun hmeets => absurd (.inr (.inl (by simpa using hget))) hmeets⟩
      next hget =>
        have hmeets : s.Meets (.readStart (some queryInfo) mem env) ↔
            (mem.shmat = true ∧ mem.malloc = true ∧ env.Arrives s.sock true ∧
              env.reply = .answered ∧ env.recvsExt = true ∧ env.serving.opened.isSome) := by
          have hget' : ¬ mem.shmget = false := by simpa using hget
          simp [Sys.Meets, hget']
        rw [mapped_eq] at hexec
        generalize hr : storageLibSendAndRecvPacket _ _ _ _ _ env = r at hexec
        have hfared := hr ▸ fared _ _ _ _ _ env
        cases hfared with
        | unsent hsent =>
            obtain rfl := Option.some.inj hexec
            refine ⟨fun hok => absurd (hmeets.1 hok).2.2.1 hsent, fun _ => ?_⟩
            exact @not_law_orphan _ s.made (Nat.lt_succ_self _) (.inl (by simp)) hnot
        | failed done hreply =>
            obtain rfl := Option.some.inj hexec
            refine ⟨fun hok => ?_, fun _ => ?_⟩
            · have hanswered := (hmeets.1 hok).2.2.2.1
              rw [hreply] at hanswered
              cases hanswered
            · exact @not_law_orphan _ s.made (Nat.lt_succ_self _) (.inl (by simp)) hnot
        | ended done hsent hreply hext =>
            refine ⟨fun hok => ?_, fun _ => ?_⟩
            · have hanswered := (hmeets.1 hok).2.2.2.1
              rw [hreply] at hanswered
              cases hanswered
            · cases hmalloc : mem.malloc with
              | true =>
                  simp only [hmalloc, if_true, Int32.le_refl] at hexec
                  obtain rfl := Option.some.inj hexec
                  refine not_law_session (List.mem_append_right _ (List.mem_singleton.2 rfl))
                    fun hmem => ?_
                  exact h.session_ne hfresh rfl done _ hmem rfl
              | false =>
                  simp only [hmalloc, Bool.false_eq_true, if_false] at hexec
                  obtain rfl := Option.some.inj hexec
                  exact @not_law_orphan _ s.made (Nat.lt_succ_self _) (.inl (by simp)) hnot
        | answered hsent hreply hext =>
            cases hmalloc : mem.malloc with
            | false =>
                simp only [hmalloc, Bool.false_eq_true, if_false] at hexec
                obtain rfl := Option.some.inj hexec
                refine ⟨fun hok => ?_, fun _ => ?_⟩
                · have hgot := (hmeets.1 hok).2.1
                  rw [hmalloc] at hgot
                  cases hgot
                · exact @not_law_orphan _ s.made (Nat.lt_succ_self _) (.inl (by simp)) hnot
            | true =>
                cases hopened : env.serving.opened with
                | none =>
                    simp only [hmalloc, if_true, strgServerDecodeCmd, servedList, hopened] at hexec
                    obtain rfl := Option.some.inj hexec
                    refine ⟨fun hok => ?_, fun _ => ?_⟩
                    · have hsome := (hmeets.1 hok).2.2.2.2.2
                      rw [hopened] at hsome
                      cases hsome
                    · exact @not_law_orphan _ s.made (Nat.lt_succ_self _) (.inl (by simp)) hnot
                | some addr =>
                    simp only [hmalloc, if_true, strgServerDecodeCmd, servedList, hopened,
                      Int32.le_refl, Function.update_self] at hexec hext
                    obtain ⟨haddr, hnew⟩ := hfresh addr hopened
                    obtain rfl := Option.some.inj hexec
                    have hrecvs : env.recvsExt = true := by
                      by_contra hno
                      exact hext ⟨by decide, trivial, by simpa using hno⟩
                    cases hat : mem.shmat with
                    | true =>
                        refine ⟨fun _ => ?_, fun hno => absurd (hmeets.2 ⟨hat, hmalloc, hsent, hreply,
                          hrecvs, by rw [hopened]; rfl⟩) hno⟩
                        exact (h.started haddr hnew).withSock true
                    | false =>
                        refine ⟨fun hok => ?_, fun _ => ?_⟩
                        · have hgot := (hmeets.1 hok).1
                          rw [hat] at hgot
                          cases hgot
                        · exact @not_law_unattached _ s.made (by simp) (by simp [Sys.owned])
        | cut done hreply hext =>
            obtain rfl := Option.some.inj hexec
            refine ⟨fun hok => ?_, fun _ => ?_⟩
            · have hrecvs := (hmeets.1 hok).2.2.2.2.1
              rw [hext.2] at hrecvs
              cases hrecvs
            · exact @not_law_orphan _ s.made (Nat.lt_succ_self _) (.inl (by simp)) hnot

/-- What a stop leaves of the segments, if it comes back. -/
theorem stopped_seg {s : Sys} {readInfo : StorageLibReadInfo}
    (haddr : readInfo.shmAddr = some readInfo.shmid) :
    (s.shmdt readInfo.shmAddr).shmRmid readInfo.shmid =
      { s with seg := Function.update s.seg readInfo.shmid ⟨false, true⟩ } := by
  simp [haddr, Sys.shmdt, Sys.shmRmid]

theorem servedList_stop {readList : List RecordReadInfo} {handle : Int} {ext : ExtData}
    {env : Transport} (hhandle : handle ≠ 0) :
    servedList readList ⟨.readStop, 0, 0, 0, ![handle, 0, 0, 0], 0⟩ ext env true =
      readList.filter (·.addr ≠ handle) := by
  exact congrArg Prod.fst (if_neg hhandle)

/-- The segment is only removed where an answer has come, or has seemed to. -/
theorem Kept.turns_stop {s t : Sys} (h : Kept s) {readInfo : StorageLibReadInfo}
    {env : Transport} (hexec : s.exec (.readStop readInfo env) = some t) :
    Turns s (.readStop readInfo env) t := by
  obtain ⟨hread, hexec⟩ := Option.ite_none_right_eq_some.1 hexec
  have hhandle := h.handle readInfo hread
  have haddr := h.shmAddr readInfo hread
  have hown : readInfo.shmid ∈ s.owned := List.mem_append_right _ (List.mem_map_of_mem hread)
  have hlt := h.segs.lt _ hown
  -- what is left of the segment if nothing has come
  have horphan : ∀ sock readList, ¬ MemoryLaw
      { s with sock := sock, readList := readList, reads := s.reads.erase readInfo } := by
    intro sock readList
    refine not_law_orphan hlt (.inr ((h.segs.attached _ hlt).2 hown)) ?_
    exact (h.stopped hread).segs.not_own_of_removed hlt (by simp)
  simp only [storageLibReadStop] at hexec
  generalize hr : storageLibSendAndRecvPacket _ _ _ _ _ env = r at hexec
  have hfared := hr ▸ fared _ _ _ _ _ env
  cases hfared with
  | unsent hsent =>
      obtain rfl := Option.some.inj hexec
      exact ⟨fun hok => absurd hok.1 hsent, fun _ => horphan _ _⟩
  | failed done hreply =>
      obtain rfl := Option.some.inj hexec
      refine ⟨fun hok => ?_, fun _ => horphan _ _⟩
      rcases hok.2 with hreply' | hreply' <;> rw [hreply] at hreply' <;> cases hreply'
  | ended done hsent hreply hext =>
      simp only [stopped_seg haddr] at hexec
      obtain rfl := Option.some.inj hexec
      cases done with
      | true =>
          refine ⟨fun _ => ?_, fun hno => absurd ⟨hsent, .inr hreply⟩ hno⟩
          rw [servedList_stop hhandle]
          exact (h.stopped hread).withSock true
      | false =>
          refine ⟨fun hok => ?_, fun _ hlaw => ?_⟩
          · rcases hok.2 with hreply' | hreply' <;> rw [hreply] at hreply' <;> cases hreply'
          · -- the session is still there, and no read has it
            have hsession := (h.sessions readInfo.session).2 ⟨readInfo, hread, rfl⟩
            obtain ⟨r', hr', heq⟩ := (hlaw.sessions readInfo.session).1 hsession
            obtain ⟨hne, hmem⟩ := h.handles.of_map.mem_erase_iff.1 hr'
            exact hne (List.inj_on_of_nodup_map h.handles hmem hread
              (congrArg RecordReadInfo.addr heq))
  | answered hsent hreply hext =>
      simp only [stopped_seg haddr, servedList_stop hhandle] at hexec
      obtain rfl := Option.some.inj hexec
      exact ⟨fun _ => (h.stopped hread).withSock true,
        fun hno => absurd ⟨hsent, .inl hreply⟩ hno⟩
  | cut done hreply hext => cases hext.1

/-! ## Every call -/

theorem Kept.turns_save {s t : Sys} (h : Kept s) {chn stream : Int32} {jpegPath : List UInt8}
    {pts : UInt64} {env : Transport}
    (hexec : s.exec (.saveJpegByPath chn stream jpegPath pts env) = some t) :
    Turns s (.saveJpegByPath chn stream jpegPath pts env) t := by
  refine ⟨fun _ => ?_, fun hno => absurd trivial hno⟩
  simp only [Sys.exec, storageLibSaveJpegByPath] at hexec
  generalize hr : storageLibSendAndRecvPacket _ _ _ _ _ env = r at hexec
  have hfared := hr ▸ fared _ _ _ _ _ env
  cases hfared with
  | unsent _ =>
      obtain rfl := Option.some.inj hexec
      exact h.withSock false
  | failed done _ | ended done _ _ _ | answered _ _ _ | cut done _ _ =>
      rw [servedList_query (.inr rfl)] at hexec
      obtain rfl := Option.some.inj hexec
      exact h.withSock _

theorem Kept.turns {s t : Sys} {call : Call} (h : Kept s) (hexec : s.exec call = some t) :
    Turns s call t := by
  cases call with
  | recordQuery _ _ _ _ _ _ => exact h.turns_query hexec
  | recordQueryFree q => exact h.turns_free hexec
  | readStart _ _ _ => exact h.turns_start hexec
  | readStop _ _ => exact h.turns_stop hexec
  | saveJpegByPath _ _ _ _ _ => exact h.turns_save hexec

/-- In a run of calls, the segments and the sessions are those of the queries and reads that the
process has, after every call, if and only if every call meets its condition. -/
theorem memory_law_iff (connects : Bool) {calls : List Call} {t : Sys}
    (hrun : calls.foldlM Sys.exec (storageLibInit connects) = some t) :
    (∀ pre u, pre <+: calls → pre.foldlM Sys.exec (storageLibInit connects) = some u →
        MemoryLaw u) ↔
      ∀ pre call u, pre ++ [call] <+: calls →
        pre.foldlM Sys.exec (storageLibInit connects) = some u → u.Meets call :=
  Run.good_iff_meets Kept.law (fun h hexec hok => (h.turns hexec).keeps hok)
    (fun h hexec hno => (h.turns hexec).breaks hno) (kept_init connects) hrun

/-- A query of the first channel that the server answers. -/
def answeredQuery (result : Int32) : Call :=
  .recordQuery 1 0 3600 0xff ⟨true, true, true⟩
    ⟨true, true, true, .answered, true, ⟨result, none, 0, 0⟩⟩

theorem memory_law_iff_query :
    (∀ pre u, pre <+: [answeredQuery 3] →
        pre.foldlM Sys.exec (storageLibInit true) = some u → MemoryLaw u) ↔
      ∀ pre call u, pre ++ [call] <+: [answeredQuery 3] →
        pre.foldlM Sys.exec (storageLibInit true) = some u → u.Meets call :=
  @memory_law_iff true [answeredQuery 3] _ rfl

/-- A disk is being formatted: the query is answered with -1, and its segment stays. -/
theorem not_memory_law :
    ∃ (calls : List Call) (t : Sys),
      calls.foldlM Sys.exec (storageLibInit true) = some t ∧ ¬ MemoryLaw t := by
  refine ⟨[answeredQuery (-1)], _, rfl, ?_⟩
  exact @not_law_orphan _ 0 (by decide) (.inr rfl) (List.not_mem_nil)

end Nvr.StorageLib
