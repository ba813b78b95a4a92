import Nvr.Lib.Run
import Nvr.Lib.Slot
import Nvr.Ipnc.Handles

/-!
# The counts of the camera handles

A manager is counted by the connects that are not undone and by its streams, a
stream by its starts. What is counted is kept by each small change of the
handles: of a count, of a stream pointer, of the list. Each call is one or two
of them, and it frees what nothing refers to any more.
-/

namespace Nvr.Ipnc

open Slot

/-! ## What is counted -/

/-- The streams of a manager that are running. -/
def running (m : Mng) : Int :=
  (if (m.stream 0).isSome then 1 else 0) + (if (m.stream 1).isSome then 1 else 0)

theorem running_nonneg (m : Mng) : 0 ≤ running m := by
  unfold running
  split <;> split <;> omega

theorem running_eq_zero {m : Mng} : running m = 0 ↔ ∀ i, m.stream i = none := by
  unfold running
  constructor
  · intro h i
    have h0 : m.stream 0 = none := by
      by_contra hne
      rw [if_pos (Option.isSome_iff_ne_none.2 hne)] at h
      split at h <;> omega
    have h1 : m.stream 1 = none := by
      by_contra hne
      have hsome : (m.stream 1).isSome = true := Option.isSome_iff_ne_none.2 hne
      simp only [hsome, if_true] at h
      split at h <;> omega
    match i with
    | 0 => exact h0
    | 1 => exact h1
  · intro h
    simp [h]

theorem running_start {m : Mng} {i : Fin 2} (h : m.stream i = none) (p : Nat) :
    running { m with stream := Function.update m.stream i (some p) } = running m + 1 := by
  unfold running
  match i with
  | 0 => simp [h, Function.update]; omega
  | 1 => simp [h, Function.update]

theorem running_stop {m : Mng} {i : Fin 2} {p : Nat} (h : m.stream i = some p) :
    running { m with stream := Function.update m.stream i none } = running m - 1 := by
  unfold running
  match i with
  | 0 =>
      have hother : Function.update m.stream 0 none 1 = m.stream 1 :=
        Function.update_of_ne (by decide) _ _
      simp only [Function.update_self, hother, h, Option.isSome_none, Option.isSome_some,
        Bool.false_eq_true, if_true, if_false]
      omega
  | 1 => simp [h, Function.update]

/-- The stream at index `i` of the manager at `a`. -/
structure Belongs (p : IpncStream) (a : Nat) (m : Mng) (i : Fin 2) : Prop where
  ipncHandle : p.ipncHandle = a
  chn : p.chn = 0
  streamNo : p.streamNo = (i : Nat)
  poolChn : p.poolChn = m.camera.poolCh
  poolStreamNo : p.poolStreamNo = (i : Nat)

/-- The counts of the manager `m` at `a` and of its streams are those of the calls
that are not undone. -/
structure MngCounted (s : Handles) (a : Nat) (m : Mng) (connects : Nat) (starts : Nat → Nat) :
    Prop where
  listed : a ∈ s.list
  count : m.refCount = connects + running m
  stream : ∀ i p, m.stream i = some p →
    ∃ st, s.streams p = some st ∧ Belongs st a m i ∧ st.refCount = starts p ∧ 0 < starts p
  started : ∀ p, 0 < starts p → ∃ i, m.stream i = some p

/-- What is at the address `a` and belongs to it. -/
structure CountedAt (s : Handles) (a : Nat) (connects : Nat) (starts : Nat → Nat) : Prop where
  present : ∀ m, s.mngs a = some m → MngCounted s a m connects starts
  absent : s.mngs a = none → a ∉ s.list ∧ connects = 0 ∧ ∀ p, starts p = 0
  owner : ∀ p st, s.streams p = some st → st.ipncHandle = a →
    ∃ m i, s.mngs a = some m ∧ m.stream i = some p

structure Counted (s : Handles) (connects : Nat → Nat) (starts : Nat → Nat → Nat) : Prop where
  nodup : s.list.Nodup
  at_ : ∀ a, CountedAt s a (connects a) (starts a)

/-- No manager is there that nothing refers to. -/
def Held (s : Handles) : Prop := ∀ a m, s.mngs a = some m → 0 < m.refCount

/-! ## Changes at one manager -/

namespace Handles

variable (s : Handles) (a : Nat)

@[simp] theorem setMng_list (m : Option Mng) : (s.setMng a m).list = s.list := rfl

@[simp] theorem setMng_streams (m : Option Mng) : (s.setMng a m).streams = s.streams := rfl

@[simp] theorem setStream_list (p : Option IpncStream) : (s.setStream a p).list = s.list := rfl

@[simp] theorem setStream_mngs (p : Option IpncStream) : (s.setStream a p).mngs = s.mngs := rfl

@[simp] theorem setMng_self (m : Option Mng) : (s.setMng a m).mngs a = m :=
  Function.update_self ..

@[simp] theorem setStream_self (p : Option IpncStream) : (s.setStream a p).streams a = p :=
  Function.update_self ..

theorem setMng_of_ne (m : Option Mng) {b : Nat} (h : b ≠ a) : (s.setMng a m).mngs b = s.mngs b :=
  Function.update_of_ne h ..

theorem setStream_of_ne (p : Option IpncStream) {b : Nat} (h : b ≠ a) :
    (s.setStream a p).streams b = s.streams b :=
  Function.update_of_ne h ..

end Handles

/-- From `s` to `s'` only the manager at `a` and its streams have changed. -/
structure OnlyAt (a : Nat) (s s' : Handles) : Prop where
  mngs : ∀ b, b ≠ a → s'.mngs b = s.mngs b
  list : ∀ b, b ≠ a → (b ∈ s'.list ↔ b ∈ s.list)
  streams : ∀ p st, st.ipncHandle ≠ a → (s'.streams p = some st ↔ s.streams p = some st)

namespace OnlyAt

variable {a : Nat} {s s' s'' : Handles}

theorem trans (h : OnlyAt a s s') (h' : OnlyAt a s' s'') : OnlyAt a s s'' where
  mngs b hb := (h'.mngs b hb).trans (h.mngs b hb)
  list b hb := (h'.list b hb).trans (h.list b hb)
  streams p st hst := (h'.streams p st hst).trans (h.streams p st hst)

theorem setMng (s : Handles) (a : Nat) (m : Option Mng) : OnlyAt a s (s.setMng a m) where
  mngs _ hb := s.setMng_of_ne a m hb
  list _ _ := .rfl
  streams _ _ _ := .rfl

/-- A stream of the manager is changed to one of its own, or freed. -/
theorem setStream {p : Nat} {new : Option IpncStream}
    (hold : ∀ st, s.streams p = some st → st.ipncHandle = a)
    (hnew : ∀ st, new = some st → st.ipncHandle = a) : OnlyAt a s (s.setStream p new) where
  mngs _ _ := rfl
  list _ _ := .rfl
  streams q st hst := by
    by_cases hq : q = p
    · subst hq
      rw [s.setStream_self]
      exact ⟨fun h => absurd (hnew st h) hst, fun h => absurd (hold st h) hst⟩
    · rw [s.setStream_of_ne p new hq]

theorem freeMng (s : Handles) (a : Nat) : OnlyAt a s (freeMng s a) where
  mngs _ hb := s.setMng_of_ne a none hb
  list _ hb := List.mem_erase_of_ne hb
  streams _ _ _ := .rfl

theorem listed (s : Handles) (a : Nat) : OnlyAt a s { s with list := a :: s.list } where
  mngs _ _ := rfl
  list _ hb := by rw [List.mem_cons, or_iff_right hb]
  streams _ _ _ := .rfl

end OnlyAt

variable {s s' : Handles} {connects connects' : Nat → Nat} {starts starts' : Nat → Nat → Nat}
  {a : Nat}

/-- The other managers are counted as before. -/
theorem Counted.of_onlyAt (h : Counted s connects starts) (ho : OnlyAt a s s')
    (hc : ∀ b, b ≠ a → connects' b = connects b) (hs : ∀ b, b ≠ a → starts' b = starts b)
    (hnodup : s'.list.Nodup) (hat : CountedAt s' a (connects' a) (starts' a)) :
    Counted s' connects' starts' where
  nodup := hnodup
  at_ b := by
    by_cases hb : b = a
    · rw [hb]
      exact hat
    have hold := h.at_ b
    rw [hc b hb, hs b hb]
    refine ⟨fun m hm => ?_, fun hm => ?_, fun p st hst hbel => ?_⟩
    · rw [ho.mngs b hb] at hm
      have hmng := hold.present m hm
      refine ⟨(ho.list b hb).2 hmng.listed, hmng.count, fun i p hp => ?_, hmng.started⟩
      obtain ⟨st, hst, hbel, hcount⟩ := hmng.stream i p hp
      exact ⟨st, (ho.streams p st (by rw [hbel.ipncHandle]; exact hb)).2 hst, hbel, hcount⟩
    · rw [ho.mngs b hb] at hm
      rw [ho.list b hb]
      exact hold.absent hm
    · rw [ho.mngs b hb]
      exact hold.owner p st ((ho.streams p st (by rw [hbel]; exact hb)).1 hst) hbel

namespace Counted

theorem init : Counted InUse.init.handles InUse.init.connects InUse.init.starts where
  nodup := .nil
  at_ a :=
    { present := fun m hm => by cases hm
      absent := fun _ => ⟨List.not_mem_nil, rfl, fun _ => rfl⟩
      owner := fun p st hst => by cases hst }

/-- Two streams of managers are not at one address. -/
theorem stream_inj (h : Counted s connects starts) {b : Nat} {m m' : Mng} {i j : Fin 2} {p : Nat}
    (hm : s.mngs a = some m) (hi : m.stream i = some p) (hm' : s.mngs b = some m')
    (hj : m'.stream j = some p) : b = a ∧ j = i := by
  obtain ⟨st, hst, hbel, -⟩ := ((h.at_ a).present m hm).stream i p hi
  obtain ⟨st', hst', hbel', -⟩ := ((h.at_ b).present m' hm').stream j p hj
  obtain rfl := Option.some.inj (hst.symm.trans hst')
  refine ⟨hbel'.ipncHandle.symm.trans hbel.ipncHandle, ?_⟩
  have hno := hbel'.streamNo.symm.trans hbel.streamNo
  exact Fin.ext (by exact_mod_cast hno)

/-- Another count of a manager, with other connects. -/
theorem setRef (h : Counted s connects starts) {m : Mng} (hm : s.mngs a = some m)
    {refCount : Int} {n : Nat} (hcount : refCount = n + running m) :
    Counted (s.setMng a (some { m with refCount })) (Function.update connects a n) starts := by
  have hmng := (h.at_ a).present m hm
  refine h.of_onlyAt (.setMng s a _) (fun b hb => Function.update_of_ne hb ..) (fun _ _ => rfl)
    h.nodup ⟨?_, ?_, ?_⟩
  · intro m' hm'
    obtain rfl := Option.some.inj ((s.setMng_self a _).symm.trans hm')
    rw [Function.update_self]
    refine ⟨hmng.listed, hcount, fun i p hp => ?_, hmng.started⟩
    obtain ⟨st, hst, hbel, hcnt⟩ := hmng.stream i p hp
    exact ⟨st, hst, ⟨hbel.ipncHandle, hbel.chn, hbel.streamNo, hbel.poolChn, hbel.poolStreamNo⟩,
      hcnt⟩
  · intro hnone
    rw [s.setMng_self] at hnone
    cases hnone
  · intro p st hst hbel
    obtain ⟨m', i, hm', hi⟩ := (h.at_ a).owner p st hst hbel
    obtain rfl := Option.some.inj (hm.symm.trans hm')
    exact ⟨_, i, s.setMng_self .., hi⟩

/-- A new manager. -/
theorem addMng (h : Counted s connects starts) (ha : s.mngs a = none) (camera : Camera) :
    Counted { s.setMng a (some ⟨camera, 1, fun _ => none⟩) with list := a :: s.list }
      (Function.update connects a 1) starts := by
  obtain ⟨hlist, -, hstarts⟩ := (h.at_ a).absent ha
  refine h.of_onlyAt ((OnlyAt.setMng s a _).trans (.listed _ a))
    (fun b hb => Function.update_of_ne hb ..) (fun _ _ => rfl)
    (List.nodup_cons.2 ⟨hlist, h.nodup⟩) ⟨?_, ?_, ?_⟩
  · intro m' hm'
    obtain rfl := Option.some.inj ((s.setMng_self a _).symm.trans hm')
    rw [Function.update_self]
    refine ⟨List.mem_cons_self, by simp [running], fun i p hp => (by cases hp), fun p hp => ?_⟩
    rw [hstarts p] at hp
    cases hp
  · intro hnone
    exact absurd ((s.setMng_self a _).symm.trans hnone) (Option.some_ne_none _)
  · intro p st hst hbel
    obtain ⟨m', i, hm', -⟩ := (h.at_ a).owner p st hst hbel
    rw [ha] at hm'
    cases hm'

/-- A manager without streams goes. -/
theorem freeMng (h : Counted s connects starts) {m : Mng} (hm : s.mngs a = some m)
    (hstream : ∀ i, m.stream i = none) :
    Counted (freeMng s a) (Function.update connects a 0) starts := by
  have hmng := (h.at_ a).present m hm
  refine h.of_onlyAt (.freeMng s a) (fun b hb => Function.update_of_ne hb ..) (fun _ _ => rfl)
    (h.nodup.erase a) ⟨?_, ?_, ?_⟩
  · intro m' hm'
    exact absurd ((s.setMng_self a none).symm.trans hm') (Option.some_ne_none _).symm
  · refine fun _ => ⟨h.nodup.not_mem_erase, Function.update_self .., fun p => ?_⟩
    by_contra hp
    obtain ⟨i, hi⟩ := hmng.started p (Nat.pos_of_ne_zero hp)
    rw [hstream i] at hi
    cases hi
  · intro p st hst hbel
    obtain ⟨m', i, hm', hi⟩ := (h.at_ a).owner p st hst hbel
    obtain rfl := Option.some.inj (hm.symm.trans hm')
    rw [hstream i] at hi
    cases hi

/-- Another count of a stream, with other starts. -/
theorem setStreamRef (h : Counted s connects starts) {m : Mng} (hm : s.mngs a = some m)
    {i : Fin 2} {p : Nat} (hp : m.stream i = some p) {st : IpncStream}
    (hst : s.streams p = some st) {n : Nat} (hn : 0 < n) :
    Counted (s.setStream p (some { st with refCount := n })) connects
      (Function.update starts a (Function.update (starts a) p n)) := by
  have hmng := (h.at_ a).present m hm
  obtain ⟨st', hst', hbel, -⟩ := hmng.stream i p hp
  obtain rfl := Option.some.inj (hst.symm.trans hst')
  refine h.of_onlyAt (.setStream (fun st' hst' => ?_) (fun st' hst' => ?_)) (fun _ _ => rfl)
    (fun b hb => Function.update_of_ne hb ..) h.nodup ⟨?_, ?_, ?_⟩
  · obtain rfl := Option.some.inj (hst.symm.trans hst')
    exact hbel.ipncHandle
  · obtain rfl := Option.some.inj hst'
    exact hbel.ipncHandle
  · intro m' hm'
    obtain rfl := Option.some.inj (hm.symm.trans hm')
    rw [Function.update_self]
    refine ⟨hmng.listed, hmng.count, fun j q hq => ?_, fun q hq => ?_⟩
    · by_cases hqp : q = p
      · subst hqp
        obtain ⟨-, rfl⟩ := h.stream_inj hm hp hm hq
        exact ⟨_, s.setStream_self .., ⟨hbel.ipncHandle, hbel.chn, hbel.streamNo, hbel.poolChn,
          hbel.poolStreamNo⟩, by rw [Function.update_self], by rwa [Function.update_self]⟩
      · rw [s.setStream_of_ne p _ hqp, Function.update_of_ne hqp]
        exact hmng.stream j q hq
    · by_cases hqp : q = p
      · subst hqp
        exact ⟨i, hp⟩
      · rw [Function.update_of_ne hqp] at hq
        exact hmng.started q hq
  · intro hnone
    rw [s.setStream_mngs, hm] at hnone
    cases hnone
  · intro q st' hst' hbel'
    by_cases hqp : q = p
    · subst hqp
      exact ⟨m, i, hm, hp⟩
    · rw [s.setStream_of_ne p _ hqp] at hst'
      exact (h.at_ a).owner q st' hst' hbel'

/-- A new stream of a manager. -/
theorem addStream (h : Counted s connects starts) {m : Mng} (hm : s.mngs a = some m) {i : Fin 2}
    (hi : m.stream i = none) {p : Nat} (hp : s.streams p = none) {st : IpncStream}
    (hbel : Belongs st a m i) (href : st.refCount = 1) :
    Counted ((s.setMng a (some { m with
        refCount := m.refCount + 1
        stream := Function.update m.stream i (some p) })).setStream p (some st))
      connects (Function.update starts a (Function.update (starts a) p 1)) := by
  have hmng := (h.at_ a).present m hm
  have hother : ∀ j q, m.stream j = some q → q ≠ p := by
    rintro j q hq rfl
    obtain ⟨st', hst', -⟩ := hmng.stream j q hq
    rw [hp] at hst'
    cases hst'
  refine h.of_onlyAt ((OnlyAt.setMng s a _).trans
    (.setStream (fun st' hst' => ?_) (fun st' hst' => ?_))) (fun _ _ => rfl)
    (fun b hb => Function.update_of_ne hb ..) h.nodup ⟨?_, ?_, ?_⟩
  · exact absurd (hst'.symm.trans hp) (Option.some_ne_none _)
  · obtain rfl := Option.some.inj hst'
    exact hbel.ipncHandle
  · intro m' hm'
    obtain rfl := Option.some.inj ((s.setMng_self a _).symm.trans hm')
    rw [Function.update_self]
    refine ⟨hmng.listed, ?_, fun j q hq => ?_, fun q hq => ?_⟩
    · have hrun := running_start hi p
      have hcount := hmng.count
      unfold running at hrun hcount ⊢
      dsimp only at hrun ⊢
      omega
    · by_cases hj : j = i
      · subst hj
        obtain rfl : p = q := by simpa using hq
        exact ⟨st, Handles.setStream_self .., ⟨hbel.ipncHandle, hbel.chn, hbel.streamNo,
          hbel.poolChn, hbel.poolStreamNo⟩, by rw [href, Function.update_self]; rfl, by simp⟩
      · have hq' : m.stream j = some q := by
          rw [← hq]
          exact (Function.update_of_ne hj ..).symm
        have hqp := hother j q hq'
        rw [Handles.setStream_of_ne _ p _ hqp, Function.update_of_ne hqp]
        obtain ⟨st', hst', hbel', hcnt⟩ := hmng.stream j q hq'
        exact ⟨st', hst', ⟨hbel'.ipncHandle, hbel'.chn, hbel'.streamNo, hbel'.poolChn,
          hbel'.poolStreamNo⟩, hcnt⟩
    · by_cases hqp : q = p
      · subst hqp
        exact ⟨i, Function.update_self ..⟩
      · rw [Function.update_of_ne hqp] at hq
        obtain ⟨j, hj⟩ := hmng.started q hq
        refine ⟨j, (Function.update_of_ne ?_ ..).trans hj⟩
        rintro rfl
        rw [hi] at hj
        cases hj
  · intro hnone
    exact absurd ((s.setMng_self a _).symm.trans hnone) (Option.some_ne_none _)
  · intro q st' hst' hbel'
    by_cases hqp : q = p
    · subst hqp
      exact ⟨_, i, s.setMng_self .., Function.update_self ..⟩
    · rw [Handles.setStream_of_ne _ p _ hqp] at hst'
      obtain ⟨m', j, hm', hj⟩ := (h.at_ a).owner q st' hst' hbel'
      obtain rfl := Option.some.inj (hm.symm.trans hm')
      refine ⟨_, j, s.setMng_self .., (Function.update_of_ne ?_ ..).trans hj⟩
      rintro rfl
      rw [hi] at hj
      cases hj

/-- A stream of a manager goes. -/
theorem dropStream (h : Counted s connects starts) {m : Mng} (hm : s.mngs a = some m) {i : Fin 2}
    {p : Nat} (hp : m.stream i = some p) :
    Counted ((s.setMng a (some { m with
        refCount := m.refCount - 1
        stream := Function.update m.stream i none })).setStream p none)
      connects (Function.update starts a (Function.update (starts a) p 0)) := by
  have hmng := (h.at_ a).present m hm
  obtain ⟨st, hst, hbel, -⟩ := hmng.stream i p hp
  refine h.of_onlyAt ((OnlyAt.setMng s a _).trans
    (.setStream (fun st' hst' => ?_) (fun st' hst' => by cases hst'))) (fun _ _ => rfl)
    (fun b hb => Function.update_of_ne hb ..) h.nodup ⟨?_, ?_, ?_⟩
  · obtain rfl := Option.some.inj (hst.symm.trans hst')
    exact hbel.ipncHandle
  · intro m' hm'
    obtain rfl := Option.some.inj ((s.setMng_self a _).symm.trans hm')
    rw [Function.update_self]
    refine ⟨hmng.listed, ?_, fun j q hq => ?_, fun q hq => ?_⟩
    · have hrun := running_stop hp
      have hcount := hmng.count
      unfold running at hrun hcount ⊢
      dsimp only at hrun ⊢
      omega
    · have hj : j ≠ i := by
        rintro rfl
        simp at hq
      have hq' : m.stream j = some q := (Function.update_of_ne hj ..).symm.trans hq
      have hqp : q ≠ p := by
        rintro rfl
        exact hj (h.stream_inj hm hp hm hq').2
      rw [Handles.setStream_of_ne _ p _ hqp, Function.update_of_ne hqp]
      obtain ⟨st', hst', hbel', hcnt⟩ := hmng.stream j q hq'
      exact ⟨st', hst', ⟨hbel'.ipncHandle, hbel'.chn, hbel'.streamNo, hbel'.poolChn,
        hbel'.poolStreamNo⟩, hcnt⟩
    · have hqp : q ≠ p := by
        rintro rfl
        rw [Function.update_self] at hq
        cases hq
      rw [Function.update_of_ne hqp] at hq
      obtain ⟨j, hj⟩ := hmng.started q hq
      refine ⟨j, (Function.update_of_ne ?_ ..).trans hj⟩
      rintro rfl
      exact hqp (Option.some.inj (hj.symm.trans hp))
  · intro hnone
    exact absurd ((s.setMng_self a _).symm.trans hnone) (Option.some_ne_none _)
  · intro q st' hst' hbel'
    have hqp : q ≠ p := by
      rintro rfl
      rw [Handles.setStream_self] at hst'
      cases hst'
    rw [Handles.setStream_of_ne _ p _ hqp] at hst'
    obtain ⟨m', j, hm', hj⟩ := (h.at_ a).owner q st' hst' hbel'
    obtain rfl := Option.some.inj (hm.symm.trans hm')
    refine ⟨_, j, s.setMng_self .., (Function.update_of_ne ?_ ..).trans hj⟩
    rintro rfl
    exact hqp (Option.some.inj (hj.symm.trans hp))

end Counted

/-! ## The calls inside an unref -/

/-- An unref that does not reach 0. -/
theorem unrefWith_of_ne {stop : Handles → Nat → Nat → Option Handles} {m : Mng}
    (hm : s.mngs a = some m) (h : m.refCount - 1 ≠ 0) :
    unrefWith s stop a = some (s.setMng a (some { m with refCount := m.refCount - 1 })) := by
  unfold unrefWith
  rw [hm, Option.bind_some]
  exact if_neg h

theorem stopLeft_none {stop : Handles → Nat → Nat → Option Handles} {m : Mng} {i : Fin 2}
    (hm : s.mngs a = some m) (h : m.stream i = none) : stopLeft s stop a i = some s := by
  unfold stopLeft
  rw [hm, Option.bind_some, h]

/-- The last unref of a manager without streams. -/
theorem unrefWith_last {stop : Handles → Nat → Nat → Option Handles} {m : Mng}
    (hm : s.mngs a = some m) (h : m.refCount - 1 = 0) (hstream : ∀ i, m.stream i = none) :
    unrefWith s stop a = some (freeMng s a) := by
  have hset : (s.setMng a (some { m with refCount := m.refCount - 1 })).mngs a =
      some { m with refCount := m.refCount - 1 } := s.setMng_self ..
  unfold unrefWith
  simp only [hm, Option.bind_some, if_pos h]
  rw [stopLeft_none hset (hstream 0), Option.bind_some, stopLeft_none hset (hstream 1)]
  simp [freeMng, Handles.setMng]

/-- The manager at `a` is not referred to any more. -/
def Unheld (s : Handles) (a : Nat) : Prop := ∃ m, s.mngs a = some m ∧ m.refCount ≤ 0

theorem Unheld.unref (h : Unheld s a) (depth : Nat) :
    ∃ s', unrefUpTo (depth + 1) s a = some s' ∧ unrefUpTo 1 s a = some s' ∧ Unheld s' a := by
  obtain ⟨m, hm, href⟩ := h
  have hne : m.refCount - 1 ≠ 0 := by omega
  have hle : m.refCount - 1 ≤ 0 := by omega
  exact ⟨_, unrefWith_of_ne hm hne, unrefWith_of_ne hm hne, _, s.setMng_self .., hle⟩

/-- A stop for a manager that is going calls an unref that does nothing more. -/
theorem Unheld.stop (h : Unheld s a) (depth p : Nat) :
    stopWith s (unrefUpTo (depth + 1)) a p = stopWith s (unrefUpTo 1) a p ∧
      ∀ s', stopWith s (unrefUpTo 1) a p = some s' → Unheld s' a := by
  obtain ⟨m, hm, href⟩ := h
  unfold stopWith
  split
  · rw [hm, Option.bind_some, Option.bind_some]
    cases s.streams p with
    | none => simp
    | some st =>
        rw [Option.bind_some, Option.bind_some]
        split
        · dsimp only
          have hun : ∀ i, Unheld ((s.setMng a (some { m with
              stream := Function.update m.stream i none })).setStream p none) a :=
            fun i => ⟨_, s.setMng_self .., href⟩
          obtain ⟨s', hdeep, hone, hs'⟩ := (hun _).unref depth
          rw [hdeep, hone]
          refine ⟨rfl, fun s'' hs'' => ?_⟩
          obtain rfl := Option.some.inj hs''
          exact hs'
        · refine ⟨rfl, fun s' hs' => ?_⟩
          obtain rfl := Option.some.inj hs'
          exact ⟨m, hm, href⟩
  · refine ⟨rfl, fun s' hs' => ?_⟩
    obtain rfl := Option.some.inj hs'
    exact ⟨m, hm, href⟩

theorem Unheld.stopLeft (h : Unheld s a) (depth : Nat) (i : Fin 2) :
    stopLeft s (fun s handle p => stopWith s (unrefUpTo (depth + 1)) handle p) a i =
      stopLeft s (fun s handle p => stopWith s (unrefUpTo 1) handle p) a i ∧
    ∀ s', Ipnc.stopLeft s (fun s handle p => stopWith s (unrefUpTo 1) handle p) a i = some s' →
      Unheld s' a := by
  have hun := h
  obtain ⟨m, hm, -⟩ := h
  unfold Ipnc.stopLeft
  rw [hm, Option.bind_some, Option.bind_some]
  split
  · exact hun.stop depth _
  · refine ⟨rfl, fun s' hs' => ?_⟩
    obtain rfl := Option.some.inj hs'
    exact hun

/-- The calls inside one another end at the second unref. -/
theorem unrefUpTo_eq (depth : Nat) (s : Handles) (a : Nat) :
    unrefUpTo (depth + 2) s a = tiIpncMngUnref s a := by
  unfold tiIpncMngUnref
  rw [unrefUpTo, unrefUpTo]
  unfold unrefWith
  cases hm : s.mngs a with
  | none => rw [Option.bind_none, Option.bind_none]
  | some m =>
      rw [Option.bind_some, Option.bind_some]
      dsimp only
      split
      · rename_i hzero
        have hun : Unheld (s.setMng a (some { m with refCount := m.refCount - 1 })) a :=
          ⟨_, s.setMng_self .., by dsimp only; omega⟩
        obtain ⟨heq, hafter⟩ := hun.stopLeft depth 0
        rw [heq]
        refine Option.bind_congr fun s' hs' => ?_
        rw [((hafter s' hs').stopLeft depth 1).1]
      · rfl

/-! ## The calls -/

/-- A call that answers leaves the counts right. -/
def Leaves (connects : Nat → Nat) (starts : Nat → Nat → Nat) (s' : Handles) : Prop :=
  Counted s' connects starts ∧ Held s'

theorem held_setMng (hheld : Held s) {m : Mng} (h : 0 < m.refCount) : Held (s.setMng a (some m)) := by
  intro b m' hm'
  by_cases hb : b = a
  · subst hb
    obtain rfl := Option.some.inj ((s.setMng_self b _).symm.trans hm')
    exact h
  · rw [s.setMng_of_ne a _ hb] at hm'
    exact hheld b m' hm'

theorem held_freeMng (hheld : Held s) : Held (freeMng s a) := by
  intro b m hm
  by_cases hb : b = a
  · subst hb
    cases (s.setMng_self b none).symm.trans hm
  · exact hheld b m ((s.setMng_of_ne a none hb).symm.trans hm)

namespace Counted

theorem mng_of_connects (h : Counted s connects starts) (ha : 0 < connects a) :
    ∃ m, s.mngs a = some m := by
  refine Option.ne_none_iff_exists'.1 fun hnone => ?_
  have hzero := ((h.at_ a).absent hnone).2.1
  omega

theorem stream_of_starts (h : Counted s connects starts) {p : Nat} (hp : 0 < starts a p) :
    ∃ m i, s.mngs a = some m ∧ m.stream i = some p := by
  cases hm : s.mngs a with
  | none =>
      have hzero := ((h.at_ a).absent hm).2.2 p
      omega
  | some m =>
      obtain ⟨i, hi⟩ := ((h.at_ a).present m hm).started p hp
      exact ⟨m, i, rfl, hi⟩

theorem connect (h : Counted s connects starts) (hheld : Held s) (camera : Camera)
    (reached : Bool) {mem : Option Nat} (hmem : ∀ a ∈ mem, s.mngs a = none) :
    ∃ r s', tiIpncConnect s camera reached mem = some (r, s') ∧
      match r with
      | some a => Leaves (more connects a) starts s'
      | none => s' = s := by
  unfold tiIpncConnect
  split
  · rename_i node hfind
    have hany := List.find?_some hfind
    obtain ⟨m, hm, -⟩ := (Option.any_eq_true _ _).1 hany
    refine ⟨some node, _, by rw [tiIpncMngRef, hm]; rfl, ?_, held_setMng hheld ?_⟩
    · have hcount := ((h.at_ node).present m hm).count
      exact h.setRef hm (by rw [hcount]; push_cast; omega)
    · have hpos := hheld node m hm
      dsimp only
      omega
  · split
    · cases mem with
      | none => exact ⟨none, s, rfl, rfl⟩
      | some pMng =>
          have hnone := hmem pMng rfl
          refine ⟨some pMng, _, rfl, ?_, ?_⟩
          · unfold more
            rw [((h.at_ pMng).absent hnone).2.1]
            exact h.addMng hnone camera
          · exact held_setMng hheld Int.one_pos
    · exact ⟨none, s, rfl, rfl⟩

theorem disconnect (h : Counted s connects starts) (hheld : Held s) (ha : 0 < connects a) :
    ∃ s', tiIpncDisconnect s a = some s' ∧ Leaves (fewer connects a) starts s' := by
  obtain ⟨m, hm⟩ := h.mng_of_connects ha
  have hmng := (h.at_ a).present m hm
  have hcount := hmng.count
  have hvalid : tiIpncMngCheckHandleValid s a = true := decide_eq_true hmng.listed
  unfold tiIpncDisconnect
  rw [if_pos hvalid]
  by_cases hlast : m.refCount - 1 = 0
  · have hrun : running m = 0 := by
      have hnonneg := running_nonneg m
      omega
    have hfewer : fewer connects a = Function.update connects a 0 := by
      unfold fewer
      rw [show connects a - 1 = 0 by omega]
    refine ⟨_, unrefWith_last hm hlast (running_eq_zero.1 hrun), ?_, held_freeMng hheld⟩
    rw [hfewer]
    exact h.freeMng hm (running_eq_zero.1 hrun)
  · refine ⟨_, unrefWith_of_ne hm hlast, h.setRef hm (by omega), held_setMng hheld ?_⟩
    have hpos := hheld a m hm
    dsimp only
    omega

theorem stop (h : Counted s connects starts) (hheld : Held s) {p : Nat} (hp : 0 < starts a p) :
    ∃ s', tiIpncStopGetStream s a p = some s' ∧
      Leaves connects (Function.update starts a (fewer (starts a) p)) s' := by
  obtain ⟨m, i, hm, hi⟩ := h.stream_of_starts hp
  have hmng := (h.at_ a).present m hm
  obtain ⟨st, hst, hbel, hcount, -⟩ := hmng.stream i p hi
  have hvalid : tiIpncMngCheckIpncHandleValid s a p = true := by
    have hlisted : a ∈ s.list := hmng.listed
    have hslot : m.stream 0 = some p ∨ m.stream 1 = some p := by
      match i, hi with
      | 0, hi => exact .inl hi
      | 1, hi => exact .inr hi
    simp [tiIpncMngCheckIpncHandleValid, hlisted, hm, hslot]
  have hindex : (if m.stream 0 = some p then (0 : Fin 2) else 1) = i := by
    split
    · exact (h.stream_inj hm hi hm ‹_›).2
    · match i, hi with
      | 0, hi => exact absurd hi ‹_›
      | 1, _ => rfl
  unfold tiIpncStopGetStream stopWith
  rw [if_pos hvalid, hm, Option.bind_some, hst, Option.bind_some]
  by_cases hlast : st.refCount - 1 = 0
  · have hfewer : fewer (starts a) p = Function.update (starts a) p 0 := by
      unfold fewer
      rw [show starts a p - 1 = 0 by omega]
    have hdrop := h.dropStream hm hi
    rw [if_pos hlast, hindex, hfewer]
    dsimp only
    have hm' : ((s.setMng a (some { m with stream := Function.update m.stream i none })).setStream p
        none).mngs a = some { m with stream := Function.update m.stream i none } :=
      s.setMng_self ..
    by_cases hfree : m.refCount - 1 = 0
    · have hcount' := ((hdrop.at_ a).present _ (s.setMng_self ..)).count
      have hnonneg := running_nonneg { m with
        refCount := m.refCount - 1, stream := Function.update m.stream i none }
      have hnone : ∀ j, Function.update m.stream i none j = none :=
        running_eq_zero (m := { m with
          refCount := m.refCount - 1, stream := Function.update m.stream i none }).1
          (by dsimp only at hcount'; omega)
      have hzero : connects a = 0 := by
        dsimp only at hcount'
        omega
      have hfreed := hdrop.freeMng (s.setMng_self ..) hnone
      have hkeep : Function.update connects a 0 = connects :=
        Function.update_eq_self_iff.2 hzero.symm
      rw [hkeep] at hfreed
      have hsame : Ipnc.freeMng ((s.setMng a (some { m with
            stream := Function.update m.stream i none })).setStream p none) a =
          Ipnc.freeMng ((s.setMng a (some { m with
            refCount := m.refCount - 1
            stream := Function.update m.stream i none })).setStream p none) a := by
        simp [Ipnc.freeMng, Handles.setMng, Handles.setStream]
      refine ⟨_, unrefWith_last hm' hfree hnone, by rw [hsame]; exact hfreed, ?_⟩
      rw [hsame]
      intro b m' hb
      by_cases hba : b = a
      · subst hba
        cases (Handles.setMng_self ..).symm.trans hb
      · refine hheld b m' ?_
        rw [← hb]
        simp [Ipnc.freeMng, Handles.setMng, Handles.setStream, hba]
    · have hsame : ((s.setMng a (some { m with
            stream := Function.update m.stream i none })).setStream p none).setMng a (some { m with
              refCount := m.refCount - 1
              stream := Function.update m.stream i none }) =
          (s.setMng a (some { m with
            refCount := m.refCount - 1
            stream := Function.update m.stream i none })).setStream p none := by
        simp [Handles.setMng, Handles.setStream]
      refine ⟨_, unrefWith_of_ne hm' hfree, ?_, ?_⟩
      · rw [hsame]
        exact hdrop
      · rw [hsame]
        have hpos := hheld a m hm
        exact held_setMng hheld (by dsimp only; omega)
  · rw [if_neg hlast]
    refine ⟨_, rfl, ?_, hheld⟩
    have hcast : st.refCount - 1 = ((starts a p - 1 : Nat) : Int) := by omega
    rw [hcast]
    exact h.setStreamRef hm hi hst (by omega)

theorem streamIndex_eq {streamNo : Int} {i : Fin 2} (h : streamIndex streamNo = some i) :
    streamNo = (i : Nat) := by
  unfold streamIndex at h
  split at h
  · obtain rfl := Option.some.inj h
    assumption
  · split at h
    · obtain rfl := Option.some.inj h
      assumption
    · cases h

/-- A start, unless it comes to a `TI_NET_Start_RealPlay` that fails. -/
theorem start (h : Counted s connects starts) (hheld : Held s) (chn streamNo : Int) {o : Outside}
    (hmem : ∀ p ∈ o.mem, s.streams p = none)
    (hplay : ∀ m i, chn = 0 → s.mngs a = some m → streamIndex streamNo = some i → m.stream i = none →
      o.writing = false → o.mem.isSome → o.realPlay ≠ none) :
    ∃ r s', tiIpncStartGetStream s a chn streamNo o = some (r, s') ∧
      match r with
      | some p => Leaves connects (Function.update starts a (more (starts a) p)) s'
      | none => s' = s := by
  unfold tiIpncStartGetStream
  split
  · rename_i hvalid
    obtain ⟨hlisted, hchn⟩ : a ∈ s.list ∧ chn = 0 := by
      simpa [tiIpncMngCheckHandleValid] using hvalid
    split
    · exact ⟨none, s, rfl, rfl⟩
    rename_i i hindex
    have hno := streamIndex_eq hindex
    cases hm : s.mngs a with
    | none => exact absurd hlisted ((h.at_ a).absent hm).1
    | some m =>
        have hmng := (h.at_ a).present m hm
        rw [Option.bind_some]
        cases hi : m.stream i with
        | some p =>
            obtain ⟨st, hst, hbel, hcount, hpos⟩ := hmng.stream i p hi
            have hfields : st.chn = chn ∧ st.streamNo = streamNo ∧
                st.poolChn = m.camera.poolCh ∧ st.poolStreamNo = streamNo :=
              ⟨hbel.chn.trans hchn.symm, hbel.streamNo.trans hno.symm, hbel.poolChn,
                hbel.poolStreamNo.trans hno.symm⟩
            dsimp only
            rw [hst, Option.map_some, if_pos hfields]
            refine ⟨some p, _, rfl, ?_, hheld⟩
            have hcast : st.refCount + 1 = ((starts a p + 1 : Nat) : Int) := by
              rw [hcount]
              push_cast
              rfl
            rw [hcast]
            exact h.setStreamRef hm hi hst (by omega)
        | none =>
            dsimp only
            split
            · exact ⟨none, s, rfl, rfl⟩
            rename_i hwriting
            cases hp : o.mem with
            | none => exact ⟨none, s, rfl, rfl⟩
            | some p =>
                have hplays := hplay m i hchn hm hindex hi (by simpa using hwriting) (by rw [hp]; rfl)
                obtain ⟨lRealHandle, hreal⟩ := Option.ne_none_iff_exists'.1 hplays
                have hfree := hmem p hp
                have hzero : starts a p = 0 := by
                  by_contra hne
                  obtain ⟨j, hj⟩ := hmng.started p (Nat.pos_of_ne_zero hne)
                  obtain ⟨st, hst, -⟩ := hmng.stream j p hj
                  rw [hfree] at hst
                  cases hst
                have hbel : Belongs
                    ⟨a, chn, streamNo, m.camera.poolCh, streamNo, 1, lRealHandle⟩ a m i :=
                  ⟨rfl, hchn, hno, rfl, hno⟩
                have hadd := h.addStream hm hi hfree hbel rfl
                have hmore : more (starts a) p = Function.update (starts a) p 1 := by
                  unfold more
                  rw [hzero]
                rw [hreal]
                dsimp only
                refine ⟨some p, _, by rw [tiIpncMngRef, Handles.setStream_mngs,
                  Handles.setMng_self]; rfl, ?_, ?_⟩
                · rw [hmore]
                  simpa [Handles.setMng, Handles.setStream] using hadd
                · have hpos := hheld a m hm
                  refine held_setMng ?_ (by dsimp only; omega)
                  exact held_setMng hheld (m := { m with
                    stream := Function.update m.stream i (some p) }) hpos
  · exact ⟨none, s, rfl, rfl⟩

end Counted

/-! ## Whole runs -/

/-- Whether a call comes to a `TI_NET_Start_RealPlay` that fails. -/
def playFails (w : InUse) : Op → Bool
  | .start handle chn streamNo o =>
      tiIpncMngCheckHandleValid w.handles handle && chn = 0 &&
        (streamIndex streamNo).any (fun i =>
          (w.handles.mngs handle).any fun m => m.stream i = none) &&
        !o.writing && o.mem.isSome && o.realPlay = none
  | _ => false

/-- What every call keeps. -/
structure Kept (w : InUse) : Prop where
  counted : Counted w.handles w.connects w.starts
  held : Held w.handles
  tame : w.wild = false

theorem Kept.init : Kept .init := ⟨Counted.init, fun _ _ hm => (by cases hm), rfl⟩

theorem Kept.of_leaves {w : InUse} (h : Kept w) {s' : Handles} {connects' : Nat → Nat}
    {starts' : Nat → Nat → Nat} (hl : Leaves connects' starts' s') :
    Kept ⟨s', connects', starts', w.wild⟩ := ⟨hl.1, hl.2, h.tame⟩

theorem free_of_any {α : Type} {heap : Nat → Option α} {mem : Option Nat}
    (h : ¬mem.any (fun a => (heap a).isSome) = true) : ∀ a ∈ mem, heap a = none := by
  intro a ha
  obtain rfl := Option.mem_def.1 ha
  simpa using h

theorem Kept.step {w w' : InUse} {op : Op} (h : Kept w) (hstep : Step w op w')
    (hplay : playFails w op = false) : Kept w' := by
  unfold Step Ipnc.step at hstep
  cases op with
  | connect camera reached mem =>
      dsimp only at hstep
      split at hstep
      · cases hstep
      rename_i hmem
      obtain rfl := Option.some.inj hstep
      obtain ⟨r, s', heq, hr⟩ := h.counted.connect h.held camera reached (free_of_any hmem)
      unfold InUse.done
      rw [heq]
      cases r with
      | some a => exact h.of_leaves hr
      | none =>
          obtain rfl := hr
          exact h
  | disconnect a =>
      dsimp only at hstep
      split at hstep
      · cases hstep
      rename_i hmatch
      obtain rfl := Option.some.inj hstep
      obtain ⟨s', heq, hl⟩ := h.counted.disconnect h.held (Nat.pos_of_ne_zero hmatch)
      unfold InUse.done
      rw [heq]
      exact h.of_leaves hl
  | start a chn streamNo o =>
      dsimp only at hstep
      split at hstep
      · cases hstep
      rename_i hmem
      obtain rfl := Option.some.inj hstep
      have hplays : ∀ m i, chn = 0 → w.handles.mngs a = some m → streamIndex streamNo = some i →
          m.stream i = none → o.writing = false → o.mem.isSome → o.realPlay ≠ none := by
        intro m i hchn hm hindex hi hwriting hsome hnone
        have hlisted := ((h.counted.at_ a).present m hm).listed
        simp [playFails, tiIpncMngCheckHandleValid, hlisted, hchn, hindex, hm, hi, hwriting,
          hsome, hnone] at hplay
      obtain ⟨r, s', heq, hr⟩ :=
        h.counted.start h.held chn streamNo (free_of_any hmem) hplays
      unfold InUse.done
      rw [heq]
      cases r with
      | some p => exact h.of_leaves hr
      | none =>
          obtain rfl := hr
          exact h
  | stop a p =>
      dsimp only at hstep
      split at hstep
      · cases hstep
      rename_i hmatch
      obtain rfl := Option.some.inj hstep
      obtain ⟨s', heq, hl⟩ := h.counted.stop h.held (Nat.pos_of_ne_zero hmatch)
      unfold InUse.done
      rw [heq]
      exact h.of_leaves hl

/-- The counts of all the handles are right, every stream pointer is to a stream
that is there, and what is there is exactly what something refers to. -/
structure CountsRight (w : InUse) : Prop where
  mngs : ∀ a ∈ w.handles.list, ∃ m, w.handles.mngs a = some m ∧
    m.refCount = w.connects a + running m
  streams : ∀ a ∈ w.handles.list, ∀ m, w.handles.mngs a = some m →
    ∀ i p, m.stream i = some p → ∃ st, w.handles.streams p = some st ∧ st.ipncHandle = a ∧
      st.refCount = w.starts a p ∧ 1 ≤ w.starts a p
  listed : ∀ a, a ∈ w.handles.list ↔ w.handles.mngs a ≠ none
  mngHeld : ∀ a, w.handles.mngs a ≠ none ↔
    0 < w.connects a ∨ ∃ p st, w.handles.streams p = some st ∧ st.ipncHandle = a
  streamHeld : ∀ p, w.handles.streams p ≠ none ↔ ∃ a, 0 < w.starts a p
  tame : w.wild = false

theorem Counted.listed_iff {s : Handles} {connects : Nat → Nat} {starts : Nat → Nat → Nat}
    (h : Counted s connects starts) (a : Nat) : a ∈ s.list ↔ s.mngs a ≠ none := by
  constructor
  · exact fun hlisted hnone => ((h.at_ a).absent hnone).1 hlisted
  · intro hsome
    obtain ⟨m, hm⟩ := Option.ne_none_iff_exists'.1 hsome
    exact ((h.at_ a).present m hm).listed

theorem Kept.countsRight {w : InUse} (h : Kept w) : CountsRight w where
  mngs a hlisted := by
    obtain ⟨m, hm⟩ := Option.ne_none_iff_exists'.1 ((h.counted.listed_iff a).1 hlisted)
    exact ⟨m, hm, ((h.counted.at_ a).present m hm).count⟩
  streams a _ m hm i p hp := by
    obtain ⟨st, hst, hbel, hcount, hpos⟩ := ((h.counted.at_ a).present m hm).stream i p hp
    exact ⟨st, hst, hbel.ipncHandle, hcount, hpos⟩
  listed := h.counted.listed_iff
  mngHeld a := by
    constructor
    · intro hsome
      obtain ⟨m, hm⟩ := Option.ne_none_iff_exists'.1 hsome
      have hmng := (h.counted.at_ a).present m hm
      have hcount := hmng.count
      have hpos := h.held a m hm
      by_cases hconn : 0 < w.connects a
      · exact .inl hconn
      · have hrun : ¬∀ i, m.stream i = none := by
          rw [← running_eq_zero]
          omega
        obtain ⟨i, hi⟩ := not_forall.1 hrun
        obtain ⟨p, hp⟩ := Option.ne_none_iff_exists'.1 hi
        obtain ⟨st, hst, hbel, -⟩ := hmng.stream i p hp
        exact .inr ⟨p, st, hst, hbel.ipncHandle⟩
    · rintro (hconn | ⟨p, st, hst, hbel⟩)
      · obtain ⟨m, hm⟩ := h.counted.mng_of_connects hconn
        rw [hm]
        exact Option.some_ne_none _
      · obtain ⟨m, i, hm, -⟩ := (h.counted.at_ a).owner p st hst hbel
        rw [hm]
        exact Option.some_ne_none _
  streamHeld p := by
    constructor
    · intro hsome
      obtain ⟨st, hst⟩ := Option.ne_none_iff_exists'.1 hsome
      obtain ⟨m, i, hm, hi⟩ := (h.counted.at_ st.ipncHandle).owner p st hst rfl
      obtain ⟨st', -, -, -, hpos⟩ := ((h.counted.at_ st.ipncHandle).present m hm).stream i p hi
      exact ⟨st.ipncHandle, hpos⟩
    · rintro ⟨a, hpos⟩
      obtain ⟨m, i, hm, hi⟩ := h.counted.stream_of_starts hpos
      obtain ⟨st, hst, -⟩ := ((h.counted.at_ a).present m hm).stream i p hi
      rw [hst]
      exact Option.some_ne_none _
  tame := h.tame

/-- As long as no start comes to a `TI_NET_Start_RealPlay` that fails, the counts
are right after every call. -/
theorem countsRight_of_plays {ops : List Op} {w : InUse}
    (hrun : Run (Restrict Step fun w op => playFails w op = false) .init ops w) :
    CountsRight w :=
  (hrun.invariant (fun h hstep => h.step hstep.1 hstep.2) Kept.init).countsRight

/-- A call that does not come to such a start, carried out. -/
def execPlays (w : InUse) (op : Op) : Option InUse := if playFails w op then none else step w op

theorem execPlays_step {w w' : InUse} {op : Op} (h : execPlays w op = some w') :
    Restrict Step (fun w op => playFails w op = false) w op w' := by
  unfold execPlays at h
  split at h
  · cases h
  · rename_i hplay
    exact ⟨h, Bool.eq_false_iff.2 hplay⟩

def frontDoor : Camera := ⟨0, "192.168.1.64", 8000, "admin", "admin"⟩

/-- A camera that is connected twice, with one stream started twice, and all of
it undone; the stream is what holds the manager last. -/
def twiceOps : List Op :=
  [.connect frontDoor true (some 100), .start 100 0 0 ⟨false, some 200, some 7⟩,
    .connect frontDoor false none, .start 100 0 0 ⟨true, none, none⟩,
    .start 100 0 1 ⟨true, some 300, some 8⟩, .disconnect 100, .stop 100 200, .disconnect 100,
    .stop 100 200]

theorem countsRight_of_plays_twice :
    ∃ w, Run (Restrict Step fun w op => playFails w op = false) .init twiceOps w ∧
      w.handles.list = [] ∧ CountsRight w := by
  have hexec : (twiceOps.foldlM execPlays .init).any (fun w => w.handles.list = []) = true := by
    decide +kernel
  obtain ⟨w, hw, hlist⟩ := (Option.any_eq_true _ _).1 hexec
  have hrun := Run.of_foldlM execPlays_step hw
  exact ⟨w, hrun, by simpa using hlist, countsRight_of_plays hrun⟩

/-- A start whose `TI_NET_Start_RealPlay` fails. -/
def failedStart : List Op :=
  [.connect frontDoor true (some 100), .start 100 0 0 ⟨false, some 200, none⟩]

theorem not_countsRight : ¬∀ (ops : List Op) (w : InUse), Run Step .init ops w → CountsRight w := by
  intro h
  have hexec : (failedStart.foldlM step .init).any (fun w => 100 ∈ w.handles.list ∧
      (w.handles.mngs 100).any (fun m => m.stream 0 = some 200) ∧
      (w.handles.streams 200).isNone) = true := by
    decide +kernel
  obtain ⟨w, hw, hbad⟩ := (Option.any_eq_true _ _).1 hexec
  obtain ⟨hlist, hmng, hfreed⟩ := of_decide_eq_true hbad
  obtain ⟨m, hm, hp⟩ := (Option.any_eq_true _ _).1 hmng
  obtain ⟨st, hst, -⟩ :=
    (h _ w (Run.of_foldlM id hw)).streams 100 hlist m hm 0 200 (of_decide_eq_true hp)
  rw [Option.isNone_iff_eq_none.1 hfreed] at hst
  cases hst

end Nvr.Ipnc
