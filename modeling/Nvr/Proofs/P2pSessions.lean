import Mathlib.Data.List.Nodup
import Nvr.Lib.Run
import Nvr.Platform.P2pTutk

/-!
# The streams of P2P viewers are paired

A slot in use has started one thing, and belongs to a viewer that is open, or waits for its thread
with a timer. That is kept as long as each viewer of a channel and stream comes when no other is
there: the second one's reader is started and forgotten. A slot that is being closed must not be
closed again, for its timer would find it released, or in use by another viewer. A talk stream
cannot be closed well at all, its writer being stopped as if it were a reader.
-/

namespace Nvr.P2p

open Nvr.Storage

/-! ## The law -/

/-- The slot's viewer is open, its thread has not ended, or a timer is still to look at it. -/
def Sys.Engaged (s : Sys) (key : Key) : Prop :=
  (∃ lHandle, (lHandle, some (s.slot key).thid) ∈ s.viewers) ∨
    (s.thread (s.slot key).thid).state = .running ∨ key ∈ s.timers

/-- A viewer's thread sends frames to it, or has ended on an error. -/
def Sys.Served (s : Sys) (lHandle : Int) (thid : Nat) : Prop :=
  (s.thread thid).state = .ended .error ∨
    ((s.thread thid).state = .running ∧ (s.slot (s.thread thid).key).thid = thid ∧
      (s.slot (s.thread thid).key).lHandle = lHandle ∧
      (s.slot (s.thread thid).key).nQuit = false)

/-- What is stopped was started, and is stopped by the function for it, once. What is not stopped
is what a slot in use reads from, or the talk stream. Each viewer that is open has a thread. A slot
is only used again when what it read from is stopped, or that would be nobody's. -/
structure PairLaw (s : Sys) : Prop where
  matched : ∀ x ∈ s.stopped, x ∈ s.started
  once : (s.stopped.map (·.1)).Nodup
  held : ∀ x ∈ s.started, x.1 ∈ s.stopped.map (·.1) ∨
    (∃ key, (s.slot key).nStatus = true ∧ (s.slot key).lReadId = x.1 ∧ s.Engaged key) ∨
    (s.talking = true ∧ (x.1 = s.talkReadId ∨ x.1 = s.talkWriteId))
  served : ∀ v ∈ s.viewers, ∃ thid, v.2 = some thid ∧ s.Served v.1 thid

/-- The slot that a close finds. -/
def Sys.found (s : Sys) (lHandle : Int) : Option Key :=
  (s.find realKeys lHandle).or (s.find historyKeys lHandle)

/-- A live stream is opened on a channel that there is while nobody views it; what is closed is
not being closed already; a playback does not come to its end before it is closed; a talk stream
that is open is neither opened again nor closed. -/
def Sys.Meets (s : Sys) : Act → Prop
  | .openStream _ req =>
      req.iStreamType = some true → req.reads = true → req.iChn < nvrMaxChannelNum →
        0 ≤ req.iCode → req.iCode < nvrMaxStreamNum →
          0 ≤ req.iChn ∧ (s.slot (.real req.iChn req.iCode)).nStatus = false
  | .closeStream lHandle => ∀ key ∈ s.found lHandle, (s.slot key).nQuit = false
  | .threadEnds thid why => why = .finished → (s.slot (s.thread thid).key).nQuit = true
  | .openTalk reads writes => reads = true → writes = true → s.talking = false
  | .closeTalk => s.talking = false
  | .ctrlStream _ _ | .timeout _ => True

/-! ## What is kept -/

/-- A slot in use: open, or being closed. -/
structure SlotKept (s : Sys) (key : Key) : Prop where
  key_mem : key ∈ realKeys ∨ key ∈ historyKeys
  started : ((s.slot key).lReadId, key.kind) ∈ s.started
  unstopped : (s.slot key).lReadId ∉ s.stopped.map (·.1)
  thid_lt : (s.slot key).thid < s.threads
  thread_key : (s.thread (s.slot key).thid).key = key
  opened : (s.slot key).nQuit = false →
    ((s.slot key).lHandle, some (s.slot key).thid) ∈ s.viewers ∧ key ∉ s.timers ∧
      ((s.thread (s.slot key).thid).state = .running ∨
        (s.thread (s.slot key).thid).state = .ended .error)
  closing : (s.slot key).nQuit = true → key ∈ s.timers

structure Kept (s : Sys) : Prop where
  slots : ∀ key, (s.slot key).nStatus = true → SlotKept s key
  timers : ∀ key ∈ s.timers, (s.slot key).nStatus = true
  timers_nodup : s.timers.Nodup
  ids_inj : ∀ key key', (s.slot key).nStatus = true → (s.slot key').nStatus = true →
    (s.slot key).lReadId = (s.slot key').lReadId → key = key'
  ids_lt : ∀ x ∈ s.started, x.1 < s.ids ∧ x.1 ≠ 0
  ids_pos : 0 < s.ids
  matched : ∀ x ∈ s.stopped, x ∈ s.started
  once : (s.stopped.map (·.1)).Nodup
  held : ∀ x ∈ s.started, x.1 ∈ s.stopped.map (·.1) ∨
    (∃ key, (s.slot key).nStatus = true ∧ (s.slot key).lReadId = x.1) ∨
    (s.talking = true ∧ (x.1 = s.talkReadId ∨ x.1 = s.talkWriteId))
  viewers : ∀ v ∈ s.viewers, ∃ key, (s.slot key).nStatus = true ∧ (s.slot key).nQuit = false ∧
    (s.slot key).lHandle = v.1 ∧ v.2 = some (s.slot key).thid
  handles : (s.viewers.map (·.1)).Nodup
  talk_zero : s.talking = false → s.talkReadId = 0 ∧ s.talkWriteId = 0

theorem kept_init : Kept init where
  slots := fun _ h => by cases h
  timers := fun _ h => by cases h
  timers_nodup := List.nodup_nil
  ids_inj := fun _ _ h => by cases h
  ids_lt := fun _ h => by cases h
  ids_pos := by decide
  matched := fun _ h => by cases h
  once := List.nodup_nil
  held := fun _ h => by cases h
  viewers := fun _ h => by cases h
  handles := List.nodup_nil
  talk_zero := fun _ => ⟨rfl, rfl⟩

theorem Kept.law {s : Sys} (h : Kept s) : PairLaw s := by
  refine ⟨h.matched, h.once, fun x hx => ?_, fun v hv => ?_⟩
  · rcases h.held x hx with hstopped | ⟨key, hstatus, hid⟩ | htalk
    · exact .inl hstopped
    · refine .inr (.inl ⟨key, hstatus, hid, ?_⟩)
      have hslot := h.slots key hstatus
      cases hquit : (s.slot key).nQuit with
      | false => exact .inl ⟨_, (hslot.opened hquit).1⟩
      | true => exact .inr (.inr (hslot.closing hquit))
    · exact .inr (.inr htalk)
  · obtain ⟨key, hstatus, hquit, hhandle, hthread⟩ := h.viewers v hv
    have hslot := h.slots key hstatus
    refine ⟨_, hthread, ?_⟩
    rcases (hslot.opened hquit).2.2 with hrunning | herror
    · refine .inr ⟨hrunning, ?_⟩
      rw [hslot.thread_key]
      exact ⟨rfl, hhandle, hquit⟩
    · exact .inl herror

/-- A slot that is not touched. -/
theorem SlotKept.frame {s t : Sys} {key : Key} (h : SlotKept s key)
    (hslot : t.slot key = s.slot key) (hstarted : ∀ x ∈ s.started, x ∈ t.started)
    (hstopped : ∀ i ∈ t.stopped.map (·.1), i ∈ s.stopped.map (·.1) ∨ i ≠ (s.slot key).lReadId)
    (hthreads : s.threads ≤ t.threads)
    (hthread : t.thread (s.slot key).thid = s.thread (s.slot key).thid)
    (hviewers : ((s.slot key).lHandle, some (s.slot key).thid) ∈ s.viewers →
      ((s.slot key).lHandle, some (s.slot key).thid) ∈ t.viewers)
    (htimers : key ∈ t.timers ↔ key ∈ s.timers) : SlotKept t key where
  key_mem := h.key_mem
  started := by
    rw [hslot]
    exact hstarted _ h.started
  unstopped := by
    rw [hslot]
    intro hmem
    rcases hstopped _ hmem with hold | hne
    · exact h.unstopped hold
    · exact hne rfl
  thid_lt := by
    rw [hslot]
    exact Nat.lt_of_lt_of_le h.thid_lt hthreads
  thread_key := by
    rw [hslot, hthread]
    exact h.thread_key
  opened := by
    rw [hslot, hthread, htimers]
    intro hquit
    obtain ⟨hviewer, htimer, hstate⟩ := h.opened hquit
    exact ⟨hviewers hviewer, htimer, hstate⟩
  closing := by
    rw [hslot, htimers]
    exact h.closing

/-- The thread of a slot in use is no other's. -/
theorem Kept.thid_inj {s : Sys} (h : Kept s) {key key' : Key}
    (hkey : (s.slot key).nStatus = true) (hkey' : (s.slot key').nStatus = true)
    (heq : (s.slot key).thid = (s.slot key').thid) : key = key' := by
  have hthread := (h.slots key hkey).thread_key
  rw [heq, (h.slots key' hkey').thread_key] at hthread
  exact hthread.symm

/-! ## Opening -/

/-- The number of what is started next is not that of anything before. -/
theorem Kept.ids_new {s : Sys} (h : Kept s) : s.ids ∉ s.stopped.map (·.1) := by
  intro hmem
  obtain ⟨x, hx, hxid⟩ := List.mem_map.1 hmem
  have hlt := (h.ids_lt x (h.matched x hx)).1
  omega

theorem Kept.ids_lt_start {s : Sys} (h : Kept s) (kind : Kind) :
    ∀ x ∈ s.started ++ [(s.ids, kind)], x.1 < s.ids + 1 ∧ x.1 ≠ 0 := by
  intro x hx
  have hpos := h.ids_pos
  rcases List.mem_append.1 hx with hold | hnew
  · have hlt := h.ids_lt x hold
    omega
  · obtain rfl := List.mem_singleton.1 hnew
    exact ⟨Nat.lt_succ_self _, by omega⟩

/-- A slot that is free is taken for a new viewer. -/
theorem Kept.taken {s : Sys} (h : Kept s) {key : Key} {lHandle : Int}
    (hkey : key ∈ realKeys ∨ key ∈ historyKeys) (hfree : (s.slot key).nStatus = false)
    (hnew : lHandle ∉ s.viewers.map (·.1)) :
    Kept
      { s with
        slot := Function.update s.slot key ⟨true, false, lHandle, s.ids, s.threads⟩
        thread := Function.update s.thread s.threads ⟨key, .running⟩
        threads := s.threads + 1
        ids := s.ids + 1
        started := s.started ++ [(s.ids, key.kind)]
        viewers := s.viewers ++ [(lHandle, some s.threads)] } := by
  have hother : ∀ key', (s.slot key').nStatus = true → key' ≠ key := by
    rintro key' hstatus rfl
    rw [hfree] at hstatus
    cases hstatus
  have htimer : key ∉ s.timers := fun hmem => hother key (h.timers key hmem) rfl
  have hold : ∀ key', key' ≠ key → Function.update s.slot key
      ⟨true, false, lHandle, s.ids, s.threads⟩ key' = s.slot key' :=
    fun key' hne => Function.update_of_ne hne _ _
  have hnewId : ∀ key', (s.slot key').nStatus = true → (s.slot key').lReadId ≠ s.ids :=
    fun key' hstatus heq => by
      have hlt := (h.ids_lt _ (h.slots key' hstatus).started).1
      omega
  refine
    { slots := fun key' hstatus => ?_
      timers := fun key' hmem => ?_
      timers_nodup := h.timers_nodup
      ids_inj := fun key₁ key₂ h₁ h₂ heq => ?_
      ids_lt := h.ids_lt_start _
      ids_pos := Nat.succ_pos _
      matched := fun x hx => List.mem_append_left _ (h.matched x hx)
      once := h.once
      held := fun x hx => ?_
      viewers := fun v hv => ?_
      handles := ?_
      talk_zero := h.talk_zero }
  · by_cases hne : key' = key
    · subst hne
      constructor
      · exact hkey
      · simp
      · simpa using h.ids_new
      · simp
      · simp
      · simp [htimer]
      · simp
    · simp only [hold key' hne] at hstatus
      have hslot := h.slots key' hstatus
      refine hslot.frame (hold key' hne) (fun x hx => List.mem_append_left _ hx)
        (fun i hi => .inl hi) (Nat.le_succ _) (Function.update_of_ne (Nat.ne_of_lt hslot.thid_lt) _ _)
        (fun hv => List.mem_append_left _ hv) Iff.rfl
  · have hstatus := h.timers key' hmem
    simp only [hold key' (hother key' hstatus)]
    exact hstatus
  · by_cases hne₁ : key₁ = key
    · by_cases hne₂ : key₂ = key
      · rw [hne₁, hne₂]
      · subst hne₁
        simp only [hold key₂ hne₂, Function.update_self] at h₂ heq
        exact absurd heq.symm (hnewId key₂ h₂)
    · by_cases hne₂ : key₂ = key
      · subst hne₂
        simp only [hold key₁ hne₁, Function.update_self] at h₁ heq
        exact absurd heq (hnewId key₁ h₁)
      · simp only [hold key₁ hne₁, hold key₂ hne₂] at h₁ h₂ heq
        exact h.ids_inj key₁ key₂ h₁ h₂ heq
  · rcases List.mem_append.1 hx with hx | hx
    · rcases h.held x hx with hstopped | ⟨key', hstatus, hid⟩ | htalk
      · exact .inl hstopped
      · refine .inr (.inl ⟨key', ?_⟩)
        simp only [hold key' (hother key' hstatus)]
        exact ⟨hstatus, hid⟩
      · exact .inr (.inr htalk)
    · obtain rfl := List.mem_singleton.1 hx
      exact .inr (.inl ⟨key, by simp, by simp⟩)
  · rcases List.mem_append.1 hv with hv | hv
    · obtain ⟨key', hstatus, hrest⟩ := h.viewers v hv
      refine ⟨key', ?_⟩
      simp only [hold key' (hother key' hstatus)]
      exact ⟨hstatus, hrest⟩
    · obtain rfl := List.mem_singleton.1 hv
      exact ⟨key, by simp⟩
  · rw [List.map_append]
    exact List.nodup_append_comm.1 (List.nodup_cons.2 ⟨hnew, h.handles⟩)

/-- What is started and stopped again. -/
theorem Kept.tried {s : Sys} (h : Kept s) (kind : Kind) :
    Kept
      { s with
        ids := s.ids + 1
        started := s.started ++ [(s.ids, kind)]
        stopped := s.stopped ++ [(s.ids, kind)] } := by
  refine
    { slots := fun key hstatus => ?_
      timers := h.timers
      timers_nodup := h.timers_nodup
      ids_inj := h.ids_inj
      ids_lt := h.ids_lt_start _
      ids_pos := Nat.succ_pos _
      matched := fun x hx => ?_
      once := ?_
      held := fun x hx => ?_
      viewers := h.viewers
      handles := h.handles
      talk_zero := h.talk_zero }
  · have hslot := h.slots key hstatus
    refine hslot.frame rfl (fun x hx => List.mem_append_left _ hx) (fun i hi => ?_) (Nat.le_refl _) rfl
      (fun hv => hv) Iff.rfl
    rw [List.map_append] at hi
    rcases List.mem_append.1 hi with hi | hi
    · exact .inl hi
    · obtain rfl := List.mem_singleton.1 hi
      have hlt := (h.ids_lt _ hslot.started).1
      exact .inr (Nat.ne_of_gt hlt)
  · rcases List.mem_append.1 hx with hx | hx
    · exact List.mem_append_left _ (h.matched x hx)
    · exact List.mem_append_right _ hx
  · rw [List.map_append]
    exact List.nodup_append_comm.1 (List.nodup_cons.2 ⟨h.ids_new, h.once⟩)
  · rw [List.map_append]
    rcases List.mem_append.1 hx with hx | hx
    · exact (h.held x hx).imp_left fun hstopped => List.mem_append_left _ hstopped
    · exact .inl (List.mem_append_right _ (List.mem_map_of_mem hx))

/-- What is in a slot that is free does not matter. -/
theorem Kept.withFree {s : Sys} (h : Kept s) {key : Key} {slot : Slot}
    (hfree : (s.slot key).nStatus = false) (hslot : slot.nStatus = false) :
    Kept (s.setSlot key slot) := by
  have hother : ∀ key', (s.slot key').nStatus = true → key' ≠ key := by
    rintro key' hstatus rfl
    rw [hfree] at hstatus
    cases hstatus
  have hold : ∀ key', key' ≠ key → Function.update s.slot key slot key' = s.slot key' :=
    fun key' hne => Function.update_of_ne hne _ _
  have hused : ∀ key', (Function.update s.slot key slot key').nStatus = true →
      (s.slot key').nStatus = true ∧ Function.update s.slot key slot key' = s.slot key' := by
    intro key' hstatus
    by_cases hne : key' = key
    · subst hne
      rw [Function.update_self, hslot] at hstatus
      cases hstatus
    · rw [hold key' hne] at hstatus
      exact ⟨hstatus, hold key' hne⟩
  refine
    { slots := fun key' hstatus => ?_
      timers := fun key' hmem => ?_
      timers_nodup := h.timers_nodup
      ids_inj := fun key₁ key₂ h₁ h₂ heq => ?_
      ids_lt := h.ids_lt
      ids_pos := h.ids_pos
      matched := h.matched
      once := h.once
      held := fun x hx => ?_
      viewers := fun v hv => ?_
      handles := h.handles
      talk_zero := h.talk_zero }
  · obtain ⟨hwas, hsame⟩ := hused key' hstatus
    exact (h.slots key' hwas).frame hsame (fun _ hx => hx) (fun i hi => .inl hi) (Nat.le_refl _) rfl
      (fun hv => hv) Iff.rfl
  · have hstatus := h.timers key' hmem
    simp only [Sys.setSlot, hold key' (hother key' hstatus)]
    exact hstatus
  · obtain ⟨hwas₁, hsame₁⟩ := hused key₁ h₁
    obtain ⟨hwas₂, hsame₂⟩ := hused key₂ h₂
    simp only [Sys.setSlot, hsame₁, hsame₂] at heq
    exact h.ids_inj key₁ key₂ hwas₁ hwas₂ heq
  · rcases h.held x hx with hstopped | ⟨key', hstatus, hid⟩ | htalk
    · exact .inl hstopped
    · refine .inr (.inl ⟨key', ?_⟩)
      simp only [Sys.setSlot, hold key' (hother key' hstatus)]
      exact ⟨hstatus, hid⟩
    · exact .inr (.inr htalk)
  · obtain ⟨key', hstatus, hrest⟩ := h.viewers v hv
    refine ⟨key', ?_⟩
    simp only [Sys.setSlot, hold key' (hother key' hstatus)]
    exact ⟨hstatus, hrest⟩

/-! ## Closing -/

/-- A slot in use that is released: what it reads from is stopped, its timer and its viewer, where
it has them, are gone. -/
theorem Kept.released {s : Sys} (h : Kept s) {key : Key} {slot : Slot}
    {viewers : List (Int × Option Nat)} (hstatus : (s.slot key).nStatus = true)
    (hslot : slot.nStatus = false) (hsub : viewers.Sublist s.viewers)
    (hviewers : ∀ v ∈ s.viewers, v ∈ viewers ↔ v.2 ≠ some (s.slot key).thid) :
    Kept
      { s with
        slot := Function.update s.slot key slot
        stopped := s.stopped ++ [((s.slot key).lReadId, key.kind)]
        timers := s.timers.erase key
        viewers := viewers } := by
  have hkept := h.slots key hstatus
  have hold : ∀ key', key' ≠ key → Function.update s.slot key slot key' = s.slot key' :=
    fun key' hne => Function.update_of_ne hne _ _
  have hused : ∀ key', (Function.update s.slot key slot key').nStatus = true →
      key' ≠ key ∧ (s.slot key').nStatus = true := by
    intro key' hstatus'
    by_cases hne : key' = key
    · subst hne
      rw [Function.update_self, hslot] at hstatus'
      cases hstatus'
    · rw [hold key' hne] at hstatus'
      exact ⟨hne, hstatus'⟩
  refine
    { slots := fun key' hstatus' => ?_
      timers := fun key' hmem => ?_
      timers_nodup := h.timers_nodup.erase _
      ids_inj := fun key₁ key₂ h₁ h₂ heq => ?_
      ids_lt := h.ids_lt
      ids_pos := h.ids_pos
      matched := fun x hx => ?_
      once := ?_
      held := fun x hx => ?_
      viewers := fun v hv => ?_
      handles := h.handles.sublist (hsub.map _)
      talk_zero := h.talk_zero }
  · obtain ⟨hne, hwas⟩ := hused key' hstatus'
    refine (h.slots key' hwas).frame (hold key' hne) (fun _ hx => hx) (fun i hi => ?_)
      (Nat.le_refl _) rfl (fun hv => ?_) ?_
    · rw [List.map_append] at hi
      rcases List.mem_append.1 hi with hi | hi
      · exact .inl hi
      · obtain rfl := List.mem_singleton.1 hi
        exact .inr fun heq => hne (h.ids_inj key key' hstatus hwas heq).symm
    · refine (hviewers _ hv).2 fun heq => hne (h.thid_inj hwas hstatus ?_)
      exact Option.some.inj heq
    · rw [h.timers_nodup.mem_erase_iff]
      exact and_iff_right hne
  · obtain ⟨hne, hmem⟩ := h.timers_nodup.mem_erase_iff.1 hmem
    simp only [hold key' hne]
    exact h.timers key' hmem
  · obtain ⟨hne₁, hwas₁⟩ := hused key₁ h₁
    obtain ⟨hne₂, hwas₂⟩ := hused key₂ h₂
    simp only [hold key₁ hne₁, hold key₂ hne₂] at heq
    exact h.ids_inj key₁ key₂ hwas₁ hwas₂ heq
  · rcases List.mem_append.1 hx with hx | hx
    · exact h.matched x hx
    · obtain rfl := List.mem_singleton.1 hx
      exact hkept.started
  · rw [List.map_append]
    exact List.nodup_append_comm.1 (List.nodup_cons.2 ⟨hkept.unstopped, h.once⟩)
  · rw [List.map_append]
    rcases h.held x hx with hstopped | ⟨key', hstatus', hid⟩ | htalk
    · exact .inl (List.mem_append_left _ hstopped)
    · by_cases hne : key' = key
      · subst hne
        exact .inl (List.mem_append_right _ (by simp [hid]))
      · refine .inr (.inl ⟨key', ?_⟩)
        simp only [hold key' hne]
        exact ⟨hstatus', hid⟩
    · exact .inr (.inr htalk)
  · have hvs := hsub.subset hv
    obtain ⟨key', hstatus', hquit, hhandle, hthread⟩ := h.viewers v hvs
    have hne : key' ≠ key := by
      rintro rfl
      exact (hviewers v hvs).1 hv hthread
    refine ⟨key', ?_⟩
    simp only [hold key' hne]
    exact ⟨hstatus', hquit, hhandle, hthread⟩

/-- A slot in use whose thread is told to quit, with a timer. -/
theorem Kept.quitting {s : Sys} (h : Kept s) {key : Key} {viewers : List (Int × Option Nat)}
    (hstatus : (s.slot key).nStatus = true) (hquit : (s.slot key).nQuit = false)
    (hsub : viewers.Sublist s.viewers)
    (hviewers : ∀ v ∈ s.viewers, v ∈ viewers ↔ v.2 ≠ some (s.slot key).thid) :
    Kept
      { s with
        slot := Function.update s.slot key { s.slot key with nQuit := true }
        timers := s.timers ++ [key]
        viewers := viewers } := by
  have hkept := h.slots key hstatus
  have htimer := (hkept.opened hquit).2.1
  have hold : ∀ key', key' ≠ key →
      Function.update s.slot key { s.slot key with nQuit := true } key' = s.slot key' :=
    fun key' hne => Function.update_of_ne hne _ _
  -- apart from being told to quit, every slot is as it was
  have hsame : ∀ key', ∃ nQuit,
      Function.update s.slot key { s.slot key with nQuit := true } key' =
        { s.slot key' with nQuit := nQuit } := by
    intro key'
    by_cases hne : key' = key
    · subst hne
      exact ⟨true, Function.update_self _ _ _⟩
    · exact ⟨(s.slot key').nQuit, hold key' hne⟩
  refine
    { slots := fun key' hstatus' => ?_
      timers := fun key' hmem => ?_
      timers_nodup := ?_
      ids_inj := fun key₁ key₂ h₁ h₂ heq => ?_
      ids_lt := h.ids_lt
      ids_pos := h.ids_pos
      matched := h.matched
      once := h.once
      held := fun x hx => ?_
      viewers := fun v hv => ?_
      handles := h.handles.sublist (hsub.map _)
      talk_zero := h.talk_zero }
  · by_cases hne : key' = key
    · subst hne
      refine ⟨hkept.key_mem, ?_, ?_, ?_, ?_, ?_, ?_⟩
      · simpa using hkept.started
      · simpa using hkept.unstopped
      · simpa using hkept.thid_lt
      · simpa using hkept.thread_key
      · simp
      · simp
    · simp only [hold key' hne] at hstatus'
      refine (h.slots key' hstatus').frame (hold key' hne) (fun _ hx => hx) (fun i hi => .inl hi)
        (Nat.le_refl _) rfl (fun hv => ?_) ?_
      · refine (hviewers _ hv).2 fun heq => hne (h.thid_inj hstatus' hstatus ?_)
        exact Option.some.inj heq
      · simp [hne]
  · obtain ⟨nQuit, hslot⟩ := hsame key'
    simp only [hslot]
    rcases List.mem_append.1 hmem with hmem | hmem
    · exact h.timers key' hmem
    · obtain rfl := List.mem_singleton.1 hmem
      exact hstatus
  · exact List.nodup_append_comm.1 (List.nodup_cons.2 ⟨htimer, h.timers_nodup⟩)
  · obtain ⟨_, hslot₁⟩ := hsame key₁
    obtain ⟨_, hslot₂⟩ := hsame key₂
    simp only [hslot₁, hslot₂] at h₁ h₂ heq
    exact h.ids_inj key₁ key₂ h₁ h₂ heq
  · rcases h.held x hx with hstopped | ⟨key', hstatus', hid⟩ | htalk
    · exact .inl hstopped
    · obtain ⟨_, hslot⟩ := hsame key'
      refine .inr (.inl ⟨key', ?_⟩)
      simp only [hslot]
      exact ⟨hstatus', hid⟩
    · exact .inr (.inr htalk)
  · have hvs := hsub.subset hv
    obtain ⟨key', hstatus', hquit', hhandle, hthread⟩ := h.viewers v hvs
    have hne : key' ≠ key := by
      rintro rfl
      exact (hviewers v hvs).1 hv hthread
    refine ⟨key', ?_⟩
    simp only [hold key' hne]
    exact ⟨hstatus', hquit', hhandle, hthread⟩

theorem find_some {s : Sys} {keys : List Key} {lHandle : Int} {key : Key}
    (h : s.find keys lHandle = some key) :
    (s.slot key).nStatus = true ∧ (s.slot key).lHandle = lHandle := by
  have hkey := List.find?_some h
  simpa using hkey

theorem find_none {s : Sys} {keys : List Key} {lHandle : Int} (h : s.find keys lHandle = none)
    {key : Key} (hkey : key ∈ keys) (hstatus : (s.slot key).nStatus = true) :
    (s.slot key).lHandle ≠ lHandle := by
  intro heq
  have hnone := List.find?_eq_none.1 h key hkey
  simp [hstatus, heq] at hnone

theorem closeStream_eq (s : Sys) (lHandle : Int) :
    nvrP2pCloseStream s lHandle =
      match s.found lHandle with
      | some key => (s.closeSlot key, success)
      | none => (s, operator) := by
  have hsuccess : (0 : Int32) ≤ success := by decide
  have hoperator : ¬ (0 : Int32) ≤ operator := by decide
  unfold nvrP2pCloseStream nvrP2pCloseRealStream nvrP2pCloseHistoryStream Sys.found
  cases s.find realKeys lHandle with
  | some key => simp [hsuccess]
  | none =>
      cases s.find historyKeys lHandle with
      | some key => simp [hsuccess, hoperator]
      | none => simp [hoperator]

theorem found_some {s : Sys} {lHandle : Int} {key : Key} (h : s.found lHandle = some key) :
    (s.slot key).nStatus = true ∧ (s.slot key).lHandle = lHandle := by
  rcases Option.or_eq_some_iff.1 h with hreal | ⟨-, hhistory⟩
  · exact find_some hreal
  · exact find_some hhistory

theorem Kept.id_ne {s : Sys} (h : Kept s) {key : Key} (hstatus : (s.slot key).nStatus = true) :
    (s.slot key).lReadId ≠ 0 := (h.ids_lt _ (h.slots key hstatus).started).2

/-- The viewers but the one of a slot that is open. -/
theorem Kept.mem_viewers {s : Sys} (h : Kept s) {key : Key}
    (hstatus : (s.slot key).nStatus = true) (hquit : (s.slot key).nQuit = false) :
    ∀ v ∈ s.viewers, v ∈ s.viewers.filter (·.1 ≠ (s.slot key).lHandle) ↔
      v.2 ≠ some (s.slot key).thid := by
  intro v hv
  have hopen := ((h.slots key hstatus).opened hquit).1
  obtain ⟨key', hstatus', -, hhandle, hthread⟩ := h.viewers v hv
  rw [List.mem_filter, decide_eq_true_eq, and_iff_right hv, not_iff_not]
  constructor
  · intro heq
    exact congrArg Prod.snd (List.inj_on_of_nodup_map h.handles hv hopen heq)
  · intro heq
    obtain rfl := h.thid_inj hstatus' hstatus (Option.some.inj (hthread.symm.trans heq))
    exact hhandle.symm

/-- A viewer whose slot is not found has none, and is not there. -/
theorem Kept.filter_of_none {s : Sys} (h : Kept s) {lHandle : Int} (hnone : s.found lHandle = none) :
    s.viewers.filter (·.1 ≠ lHandle) = s.viewers := by
  obtain ⟨hreal, hhistory⟩ := Option.or_eq_none_iff.1 hnone
  refine List.filter_eq_self.2 fun v hv => decide_eq_true ?_
  obtain ⟨key, hstatus, -, hhandle, -⟩ := h.viewers v hv
  rw [← hhandle]
  rcases (h.slots key hstatus).key_mem with hkey | hkey
  · exact find_none hreal hkey hstatus
  · exact find_none hhistory hkey hstatus

theorem Kept.closed {s : Sys} (h : Kept s) {lHandle : Int}
    (hmeets : ∀ key ∈ s.found lHandle, (s.slot key).nQuit = false) :
    Kept
      { (nvrP2pCloseStream s lHandle).1 with
        viewers := (nvrP2pCloseStream s lHandle).1.viewers.filter (·.1 ≠ lHandle) } := by
  rw [closeStream_eq]
  match hfound : s.found lHandle with
  | none =>
      simp only [h.filter_of_none hfound]
      exact h
  | some key =>
      have hquit := hmeets key hfound
      obtain ⟨hstatus, rfl⟩ := found_some hfound
      have hid := h.id_ne hstatus
      have htimer := ((h.slots key hstatus).opened hquit).2.1
      have hviewers := h.mem_viewers hstatus hquit
      cases hgone : s.quitAlready (s.slot key).thid with
      | true =>
          have hreleased := @Kept.released s h key
            { s.slot key with nQuit := true, lHandle := 0, nStatus := false } _ hstatus rfl
            List.filter_sublist hviewers
          rw [List.erase_of_not_mem htimer] at hreleased
          simpa [Sys.closeSlot, Sys.setSlot, Sys.quitAlready, Sys.release, Sys.stop, hid,
            show (s.thread (s.slot key).thid).state ≠ .running by simpa [Sys.quitAlready] using hgone]
            using hreleased
      | false =>
          simpa [Sys.closeSlot, Sys.setSlot, Sys.quitAlready,
            show (s.thread (s.slot key).thid).state = .running by simpa [Sys.quitAlready] using hgone]
            using h.quitting hstatus hquit List.filter_sublist hviewers

theorem Kept.timedOut {s : Sys} (h : Kept s) {key : Key} (hkey : key ∈ s.timers) :
    Kept (nvrP2pCloseStreamTimeout s key) := by
  have hstatus := h.timers key hkey
  have hid := h.id_ne hstatus
  unfold nvrP2pCloseStreamTimeout
  split
  next =>
    have hviewers : ∀ v ∈ s.viewers, v ∈ s.viewers ↔ v.2 ≠ some (s.slot key).thid := by
      intro v hv
      refine iff_of_true hv fun heq => ?_
      obtain ⟨key', hstatus', hquit, -, hthread⟩ := h.viewers v hv
      obtain rfl := h.thid_inj hstatus' hstatus (Option.some.inj (hthread.symm.trans heq))
      exact ((h.slots key' hstatus').opened hquit).2.1 hkey
    simpa [Sys.release, Sys.stop, Sys.setSlot, hid] using
      @Kept.released s h key { s.slot key with lHandle := 0, nStatus := false } _ hstatus rfl
        (List.Sublist.refl _) hviewers
  next => exact h

/-! ## The ends of threads, and talking -/

theorem Kept.threadEnded {s : Sys} (h : Kept s) {thid : Nat} {why : Why}
    (hcan : s.CanEnd thid why)
    (hmeets : why = .finished → (s.slot (s.thread thid).key).nQuit = true) :
    Kept
      { s with
        thread := Function.update s.thread thid { s.thread thid with state := .ended why } } := by
  have hkey : ∀ thid', (Function.update s.thread thid
      { s.thread thid with state := .ended why } thid').key = (s.thread thid').key := by
    intro thid'
    by_cases hne : thid' = thid
    · subst hne
      rw [Function.update_self]
    · rw [Function.update_of_ne hne]
  refine ⟨fun key hstatus => ?_, h.timers, h.timers_nodup, h.ids_inj, h.ids_lt, h.ids_pos,
    h.matched, h.once, h.held, h.viewers, h.handles, h.talk_zero⟩
  have hslot := h.slots key hstatus
  refine ⟨hslot.key_mem, hslot.started, hslot.unstopped, hslot.thid_lt,
    (hkey _).trans hslot.thread_key, fun hquit => ?_, hslot.closing⟩
  obtain ⟨hviewer, htimer, hstate⟩ := hslot.opened hquit
  refine ⟨hviewer, htimer, ?_⟩
  by_cases hne : (s.slot key).thid = thid
  · -- the thread of a slot that is open has only an error to end on
    subst hne
    rw [hslot.thread_key] at hmeets
    have hwhy : why = .error := by
      cases why with
      | quit =>
          have hquit' : (s.slot (s.thread (s.slot key).thid).key).nQuit = true := hcan.2
          rw [hslot.thread_key, hquit] at hquit'
          cases hquit'
      | error => rfl
      | finished =>
          rw [hquit] at hmeets
          cases hmeets rfl
    simp [hwhy]
  · simp only [Function.update_of_ne hne]
    exact hstate

theorem Kept.talked {s : Sys} (h : Kept s) (hsilent : s.talking = false) :
    Kept
      { s with
        ids := s.ids + 1 + 1
        started := s.started ++ [(s.ids, .readFrame)] ++ [(s.ids + 1, .writeFrame)]
        talkReadId := s.ids
        talkWriteId := s.ids + 1
        talking := true } := by
  refine
    { slots := fun key hstatus => ?_
      timers := h.timers
      timers_nodup := h.timers_nodup
      ids_inj := h.ids_inj
      ids_lt := fun x hx => ?_
      ids_pos := Nat.succ_pos _
      matched := fun x hx =>
        List.mem_append_left _ (List.mem_append_left _ (h.matched x hx))
      once := h.once
      held := fun x hx => ?_
      viewers := h.viewers
      handles := h.handles
      talk_zero := fun htalk => by cases htalk }
  · exact (h.slots key hstatus).frame rfl
      (fun x hx => List.mem_append_left _ (List.mem_append_left _ hx)) (fun i hi => .inl hi)
      (Nat.le_refl _) rfl (fun hv => hv) Iff.rfl
  · rcases List.mem_append.1 hx with hx | hx
    · have hlt := h.ids_lt_start _ x hx
      exact ⟨Nat.lt_succ_of_lt hlt.1, hlt.2⟩
    · obtain rfl := List.mem_singleton.1 hx
      exact ⟨Nat.lt_succ_self _, Nat.succ_ne_zero _⟩
  · rcases List.mem_append.1 hx with hx | hx
    · rcases List.mem_append.1 hx with hx | hx
      · rcases h.held x hx with hstopped | hheld | htalk
        · exact .inl hstopped
        · exact .inr (.inl hheld)
        · rw [hsilent] at htalk
          cases htalk.1
      · obtain rfl := List.mem_singleton.1 hx
        exact .inr (.inr ⟨rfl, .inl rfl⟩)
    · obtain rfl := List.mem_singleton.1 hx
      exact .inr (.inr ⟨rfl, .inr rfl⟩)

/-! ## Every act -/

theorem mem_realKeys {iChn iCode : Int} (hchn : 0 ≤ iChn) (hchn' : iChn < nvrMaxChannelNum)
    (hcode : 0 ≤ iCode) (hcode' : iCode < nvrMaxStreamNum) : Key.real iChn iCode ∈ realKeys := by
  unfold nvrMaxChannelNum at hchn'
  unfold nvrMaxStreamNum at hcode'
  have hchns : iChn = 0 ∨ iChn = 1 ∨ iChn = 2 ∨ iChn = 3 := by omega
  have hcodes : iCode = 0 ∨ iCode = 1 := by omega
  rcases hchns with rfl | rfl | rfl | rfl <;> rcases hcodes with rfl | rfl <;> decide

/-- What an open leaves, and its viewer if it has succeeded. -/
theorem Kept.openedReal {s : Sys} (h : Kept s) {lHandle iChn iCode : Int} {reads creates : Bool}
    (hnew : lHandle ∉ s.viewers.map (·.1))
    (hmeets : reads = true → iChn < nvrMaxChannelNum → 0 ≤ iCode → iCode < nvrMaxStreamNum →
      0 ≤ iChn ∧ (s.slot (.real iChn iCode)).nStatus = false) {r : Sys × Int32 × Option Nat}
    (hopen : nvrP2pOpenRealStream s lHandle iChn iCode reads creates = r) :
    if 0 ≤ r.2.1 then Kept { r.1 with viewers := r.1.viewers ++ [(lHandle, r.2.2)] }
    else Kept r.1 := by
  have hid : s.ids ≠ 0 := Nat.ne_of_gt h.ids_pos
  unfold nvrP2pOpenRealStream at hopen
  split at hopen
  next =>
    subst hopen
    exact h
  next hrange =>
    split at hopen
    next =>
      subst hopen
      exact h
    next hreads =>
      obtain ⟨hchn, hfree⟩ := hmeets (by simpa using hreads) (by omega) (by omega) (by omega)
      have hfree' : ((s.start .readFrame).slot (.real iChn iCode)).nStatus = false := hfree
      simp only [hfree', Bool.false_eq_true, if_false] at hopen
      split at hopen
      next =>
        subst hopen
        exact h.taken (.inl (mem_realKeys hchn (by omega) (by omega) (by omega))) hfree hnew
      next =>
        subst hopen
        have htried := (h.tried .readFrame).withFree hfree
          (show (⟨false, false, lHandle, s.ids, (s.slot (.real iChn iCode)).thid⟩ : Slot).nStatus =
            false from rfl)
        simpa [Sys.stop, Sys.start, hid, show ¬ (0 : Int32) ≤ operator by decide] using htried

theorem alloc_some {s : Sys} {key : Key} (h : nvrP2pAllocHistoryHandle s = some key) :
    key ∈ historyKeys ∧ (s.slot key).nStatus = false ∧ key.kind = .libRead := by
  have hmem := List.mem_of_find?_eq_some h
  have hfree := List.find?_some h
  obtain ⟨i, -, rfl⟩ := List.mem_map.1 hmem
  exact ⟨hmem, by simpa using hfree, rfl⟩

theorem Kept.openedHistory {s : Sys} (h : Kept s) {lHandle iChn iCode : Int}
    {nStartTime nStopTime : Int32} {query : Option (List RecordQueryInfo)} {reads creates : Bool}
    (hnew : lHandle ∉ s.viewers.map (·.1)) {r : Sys × Int32 × Option Nat}
    (hopen : nvrP2pOpenHistoryStream s lHandle iChn iCode nStartTime nStopTime query reads creates =
      r) :
    if 0 ≤ r.2.1 then Kept { r.1 with viewers := r.1.viewers ++ [(lHandle, r.2.2)] }
    else Kept r.1 := by
  have hid : s.ids ≠ 0 := Nat.ne_of_gt h.ids_pos
  have hoperator : ¬ (0 : Int32) ≤ operator := by decide
  unfold nvrP2pOpenHistoryStream at hopen
  split at hopen
  next =>
    subst hopen
    exact h
  next =>
    split at hopen
    next =>
      subst hopen
      exact h
    next =>
      split at hopen
      next =>
        subst hopen
        exact h
      next =>
        split at hopen
        next =>
          subst hopen
          exact h
        next =>
          simp only at hopen
          split at hopen
          next =>
            subst hopen
            simpa [Sys.stop, Sys.start, hid, hoperator] using h.tried .libRead
          next key halloc =>
            obtain ⟨hmem, hfree, hkind⟩ := alloc_some halloc
            split at hopen
            next =>
              subst hopen
              have htaken := h.taken (.inr hmem) hfree hnew
              rw [hkind] at htaken
              exact htaken
            next =>
              subst hopen
              have htried := (h.tried .libRead).withFree hfree
                (show (⟨false, false, lHandle, s.ids, 0⟩ : Slot).nStatus = false from rfl)
              simpa [Sys.stop, Sys.start, hid, hoperator] using htried

theorem Kept.step {s t : Sys} {act : Act} (h : Kept s) (hexec : s.exec act = some t)
    (hmeets : s.Meets act) : Kept t := by
  cases act with
  | openStream lHandle req =>
      simp only [Sys.exec] at hexec
      split at hexec
      next => cases hexec
      next hnew =>
        generalize hopen : nvrP2pOpenStream s lHandle req = r at hexec
        have hopened : if 0 ≤ r.2.1 then
            Kept { r.1 with viewers := r.1.viewers ++ [(lHandle, r.2.2)] } else Kept r.1 := by
          unfold nvrP2pOpenStream at hopen
          split at hopen
          next htype => exact h.openedReal hnew (hmeets htype) hopen
          next => exact h.openedHistory hnew hopen
          next =>
            subst hopen
            exact h
        split at hexec
        next hgood =>
          rw [if_pos hgood] at hopened
          obtain rfl := Option.some.inj hexec
          exact hopened
        next hbad =>
          rw [if_neg hbad] at hopened
          obtain rfl := Option.some.inj hexec
          exact hopened
  | ctrlStream _ _ =>
      obtain rfl := Option.some.inj hexec
      exact h
  | closeStream lHandle =>
      obtain rfl := Option.some.inj hexec
      exact h.closed hmeets
  | timeout key =>
      obtain ⟨hkey, htimeout⟩ := Option.ite_none_right_eq_some.1 hexec
      obtain rfl := Option.some.inj htimeout
      exact h.timedOut hkey
  | threadEnds thid why =>
      obtain ⟨hcan, hends⟩ := Option.ite_none_right_eq_some.1 hexec
      obtain rfl := Option.some.inj hends
      exact h.threadEnded hcan hmeets
  | openTalk reads writes =>
      have hid : s.ids ≠ 0 := Nat.ne_of_gt h.ids_pos
      have hoperator : ¬ (0 : Int32) ≤ operator := by decide
      obtain rfl := Option.some.inj hexec
      unfold nvrP2pOpenTalkStream
      cases reads with
      | false => exact h
      | true =>
          cases writes with
          | false => simpa [Sys.stop, Sys.start, hid, hoperator] using h.tried .readFrame
          | true => exact h.talked (hmeets rfl rfl)
  | closeTalk =>
      obtain ⟨hread, hwrite⟩ := h.talk_zero hmeets
      obtain rfl := Option.some.inj hexec
      have hsame : nvrP2pCloseTalkStream s = s := by
        simp [nvrP2pCloseTalkStream, Sys.stop, hread, hwrite]
      rw [hsame, ← show s.talking = false from hmeets]
      exact h

/-- In a run of callbacks, ends of threads and timers that all meet the condition, what is started
and stopped stays paired, and each viewer served. -/
theorem pair_law (acts : List Act)
    (hmeets : ∀ pre act s, pre ++ [act] <+: acts → pre.foldlM Sys.exec init = some s →
      s.Meets act) :
    ∀ pre s, pre <+: acts → pre.foldlM Sys.exec init = some s → PairLaw s := fun pre s hpre hrun =>
  (Run.good_of_meets (fun h hexec hok => Kept.step h hexec hok) kept_init hmeets pre s hpre
    hrun).law

/-- An open of the first channel's main stream that nothing stands in the way of. -/
def firstStream : ReqStream := ⟨some true, 0, 0, 0, 0, none, true, true⟩

theorem pair_law_viewer :
    ∃ s, [Act.openStream 7 firstStream, .closeStream 7].foldlM Sys.exec init = some s ∧
      PairLaw s := by
  refine ⟨_, rfl, pair_law [.openStream 7 firstStream, .closeStream 7]
    (fun pre act s hpre hrun => ?_) _ _ (List.prefix_refl _) rfl⟩
  match pre with
  | [] =>
      obtain rfl := (List.cons_prefix_cons.1 hpre).1
      obtain rfl := Option.some.inj hrun
      exact fun _ _ _ _ _ => ⟨by decide, rfl⟩
  | [_] =>
      obtain ⟨rfl, hrest⟩ := List.cons_prefix_cons.1 hpre
      obtain rfl := (List.cons_prefix_cons.1 hrest).1
      obtain rfl := Option.some.inj hrun
      intro key hkey
      obtain rfl := Option.some.inj hkey
      rfl
  | _ :: _ :: pre =>
      have hlen := hpre.length_le
      simp at hlen

/-- Two viewers of one stream: the second is told that its open has succeeded. -/
theorem not_pair_law :
    ∃ (acts : List Act) (s : Sys), acts.foldlM Sys.exec init = some s ∧ ¬ PairLaw s := by
  refine ⟨[.openStream 7 firstStream, .openStream 8 firstStream], _, rfl, fun hlaw => ?_⟩
  obtain ⟨thid, hthid, -⟩ := hlaw.served (8, none) (List.mem_append_right _ (List.mem_singleton.2 rfl))
  cases hthid

end Nvr.P2p
