import Nvr.Proofs.Discards
import Nvr.Storage.Mng

/-!
# Footage is only overwritten where it may be

The manager asks several disks in turn, so an operation of its is, on every
disk, some number of the steps of a disk, under the mask the manager has at that
time. What those may discard is known from `Nvr.Proofs.Discards`.

Two things outside of a single step can spoil it, and the runs here are without
them: the write of an emptied header fails, or a generation begins that some
basket already has.
-/

namespace Nvr.Storage

/-! ## An operation, disk by disk -/

/-- On every disk, `P` leads from `m` to `m'`. -/
def OnDisks (P : DiskMng → DiskMng → Prop) (m m' : StorageMng) : Prop :=
  ∀ i, (m.dm i = none ∧ m'.dm i = none) ∨
    ∃ dm dm', m.dm i = some dm ∧ m'.dm i = some dm' ∧ P dm dm'

namespace OnDisks

variable {P P' : DiskMng → DiskMng → Prop} {m m' m'' : StorageMng}

theorem of_eq (hP : ∀ dm, P dm dm) (h : m'.dm = m.dm) : OnDisks P m m' := by
  intro i
  rw [h]
  cases hdm : m.dm i with
  | none => exact .inl ⟨rfl, rfl⟩
  | some dm => exact .inr ⟨dm, dm, rfl, rfl, hP dm⟩

theorem trans (hP : ∀ {a b c}, P a b → P b c → P a c) (h : OnDisks P m m')
    (h' : OnDisks P m' m'') : OnDisks P m m'' := by
  intro i
  rcases h i with ⟨hnone, hnone'⟩ | ⟨a, b, ha, hb, hab⟩
  · rcases h' i with ⟨_, hnone''⟩ | ⟨b, _, hb, _⟩
    · exact .inl ⟨hnone, hnone''⟩
    · rw [hnone'] at hb
      cases hb
  · rcases h' i with ⟨hnone, _⟩ | ⟨b', c, hb', hc, hbc⟩
    · rw [hb] at hnone
      cases hnone
    · rw [hb] at hb'
      obtain rfl := Option.some.inj hb'
      exact .inr ⟨a, c, ha, hc, hP hab hbc⟩

theorem setDisk (hP : ∀ dm, P dm dm) {i : Nat} {dm dm' : DiskMng} (hi : m.dm i = some dm)
    (h : P dm dm') : OnDisks P m (m.setDisk i dm') := by
  intro j
  by_cases hj : j = i
  · subst hj
    exact .inr ⟨dm, dm', hi, Function.update_self _ _ _, h⟩
  · have hother : (m.setDisk i dm').dm j = m.dm j := Function.update_of_ne hj _ _
    rw [hother]
    cases hdm : m.dm j with
    | none => exact .inl ⟨rfl, rfl⟩
    | some d => exact .inr ⟨d, d, rfl, rfl, hP d⟩

theorem mono (hP : ∀ {a b}, P a b → P' a b) (h : OnDisks P m m') : OnDisks P' m m' := by
  intro i
  rcases h i with hnone | ⟨a, b, ha, hb, hab⟩
  · exact .inl hnone
  · exact .inr ⟨a, b, ha, hb, hP hab⟩

/-- What holds of every disk before and is led on by `P` holds after. -/
theorem forall_disk {I J : DiskMng → Prop} (hP : ∀ {a b}, P a b → I a → J b)
    (h : OnDisks P m m') (hI : ∀ i dm, m.dm i = some dm → I dm) :
    ∀ i dm, m'.dm i = some dm → J dm := by
  intro i dm hdm
  rcases h i with ⟨_, hnone⟩ | ⟨a, b, ha, hb, hab⟩
  · rw [hnone] at hdm
    cases hdm
  · rw [hb] at hdm
    obtain rfl := Option.some.inj hdm
    exact hP hab (hI i a ha)

end OnDisks

/-- Channels take and discard, and no disk is reset. -/
def Starting (overwrite : UInt32) : Guard → DiskMng → Prop
  | .discard mask, _ => mask = overwrite
  | .reset, _ => False
  | _, _ => True

/-- Nothing is discarded. -/
def Keeping : Guard → DiskMng → Prop
  | .discard _, _ => False
  | .reset, dm => dm.NoWrap
  | _, _ => True

theorem Starting.discardsUnder {overwrite : UInt32} {g : Guard} {d : DiskMng}
    (h : Starting overwrite g d) : DiscardsUnder overwrite g d := by
  cases g with
  | discard mask => exact h
  | reset => exact h.elim
  | _ => trivial

theorem Keeping.discardsUnder {overwrite : UInt32} {g : Guard} {d : DiskMng}
    (h : Keeping g d) : DiscardsUnder overwrite g d := by
  cases g with
  | discard mask => exact h.elim
  | reset => exact h
  | _ => trivial

/-- A start brings no generation nearer. -/
theorem DiskMng.NoWrap.step {overwrite : UInt32} {dm dm' : DiskMng} (h : dm.NoWrap)
    (hstep : DiskStep (Starting overwrite) dm dm') : dm'.NoWrap := by
  have hreset : ∀ {p : Nat} {chn : Chn} {mask : UInt32},
      (dm.resetBasket p (.fresh p) chn mask).2.NoWrap := by
    intro p chn mask q hq
    show (Function.update dm.bgi p _ q).bg.useCnt ≠ dm.dg.useCnt + 1
    by_cases heq : q = p
    · subst heq
      rw [Function.update_self]
      show dm.dg.useCnt ≠ dm.dg.useCnt + 1
      intro hsame
      have hlt := dm.dg.useCnt.toNat_lt
      have hmod := congrArg UInt32.toNat hsame
      rw [UInt32.toNat_add, UInt32.toNat_one] at hmod
      omega
    · rw [Function.update_of_ne heq]
      exact h q hq
  intro q hq
  have hlist := hstep.bgiList
  cases hstep.moves with
  | stays hs _ =>
      rw [hs.useCnt, hs.dg]
      exact h q (hlist ▸ hq)
  | takeNew => exact h q hq
  | discardFail => exact hreset q hq
  | takeOld => exact hreset q hq
  | free =>
      rw [hlist] at hq
      have hq := h q hq
      unfold strgDiskFreeBasket
      split
      · exact hq
      · split <;> exact hq
  | nextGeneration hC => exact hC.elim

theorem DiskMng.NoWrap.steps {overwrite : UInt32} {dm dm' : DiskMng} (h : dm.NoWrap)
    (hsteps : DiskSteps (Starting overwrite) dm dm') : dm'.NoWrap :=
  hsteps.invariant (I := DiskMng.NoWrap) (fun hstep hdm => hdm.step hstep) h

section Start

variable {chn : Chn} {recordType : RecordType} {fuel : Nat} {m m' : StorageMng} {found : Bool}

theorem startOn_steps {i : Nat} {dm : DiskMng} (hi : m.dm i = some dm)
    (h : startOn chn recordType fuel m i dm = some (found, m')) :
    OnDisks (DiskSteps (Starting m.overwrite)) m m' ∧ m'.overwrite = m.overwrite ∧
      ∀ j, j ≠ i → m'.dm j = m.dm j := by
  unfold startOn at h
  split at h
  · cases h
  · next ret dm' hstart =>
      have hdoes : DiskOp.Does dm (.writeStart chn recordType m.overwrite) dm' :=
        ⟨fuel, ret, hstart⟩
      have hsteps := hdoes.steps (C := Starting m.overwrite)
        ⟨fun _ => rfl, fun _ _ => trivial, fun _ _ _ => trivial⟩
      have hset := OnDisks.setDisk (fun _ => .refl) hi hsteps
      have hother : ∀ j, j ≠ i → (m.setDisk i dm').dm j = m.dm j :=
        fun j hj => Function.update_of_ne hj _ _
      split at h
      · obtain ⟨_, rfl⟩ := Prod.mk.inj (Option.some.inj h)
        exact ⟨hset, rfl, hother⟩
      · obtain ⟨_, rfl⟩ := Prod.mk.inj (Option.some.inj h)
        exact ⟨hset, rfl, hother⟩

theorem startPlain_steps {l : List Nat} : ∀ {m : StorageMng},
    startPlain chn recordType fuel l m = some (found, m') →
    OnDisks (DiskSteps (Starting m.overwrite)) m m' ∧ m'.overwrite = m.overwrite := by
  induction l with
  | nil =>
      intro m h
      obtain ⟨_, rfl⟩ := Prod.mk.inj (Option.some.inj h)
      exact ⟨.of_eq (fun _ => .refl) rfl, rfl⟩
  | cons i rest ih =>
      intro m h
      rw [startPlain] at h
      split at h
      · exact ih h
      · next dm hi =>
          split at h
          · cases h
          · next m₁ hon =>
              obtain ⟨_, rfl⟩ := Prod.mk.inj (Option.some.inj h)
              obtain ⟨hsteps, hover, _⟩ := startOn_steps hi hon
              exact ⟨hsteps, hover⟩
          · next m₁ hon =>
              obtain ⟨hsteps, hover, _⟩ := startOn_steps hi hon
              obtain ⟨hsteps', hover'⟩ := ih h
              rw [hover] at hsteps'
              exact ⟨hsteps.trans (fun h h' => h.trans h') hsteps', hover'.trans hover⟩

theorem startReset_steps {l : List Nat} : ∀ {m : StorageMng}, l.Nodup →
    (∀ i ∈ l, ∀ dm, m.dm i = some dm → dm.NoWrap) →
    startReset chn recordType fuel l m = some (found, m') →
    OnDisks (DiskSteps (DiscardsUnder m.overwrite)) m m' := by
  induction l with
  | nil =>
      intro m _ _ h
      obtain ⟨_, rfl⟩ := Prod.mk.inj (Option.some.inj h)
      exact .of_eq (fun _ => .refl) rfl
  | cons i rest ih =>
      intro m hnodup hwrap h
      obtain ⟨hnotMem, hrest⟩ := List.nodup_cons.1 hnodup
      rw [startReset] at h
      split at h
      · exact ih hrest (fun j hj => hwrap j (List.mem_cons_of_mem _ hj)) h
      · next dm hi =>
          have hreset : DiskSteps (DiscardsUnder m.overwrite) dm (strgDiskReset dm m.overwrite).2 :=
            .single (.reset m.overwrite (hwrap i List.mem_cons_self dm hi))
          have hset := OnDisks.setDisk (fun _ => .refl) hi hreset
          have hother : ∀ j, j ≠ i →
              (m.setDisk i (strgDiskReset dm m.overwrite).2).dm j = m.dm j :=
            fun j hj => Function.update_of_ne hj _ _
          have hnext : ∀ {m₁ : StorageMng}, (∀ j, j ≠ i → m₁.dm j = m.dm j) →
              ∀ j ∈ rest, ∀ d, m₁.dm j = some d → d.NoWrap := by
            intro m₁ hsame j hj d hd
            have hne : j ≠ i := fun heq => hnotMem (heq ▸ hj)
            exact hwrap j (List.mem_cons_of_mem _ hj) d (hsame j hne ▸ hd)
          simp only at h
          split at h
          · exact hset.trans (fun h h' => h.trans h') (ih hrest (hnext hother) h)
          · split at h
            · cases h
            · next m₁ hon =>
                obtain ⟨_, rfl⟩ := Prod.mk.inj (Option.some.inj h)
                obtain ⟨hsteps, _, _⟩ := startOn_steps (Function.update_self _ _ _) hon
                exact hset.trans (fun h h' => h.trans h')
                  (hsteps.mono fun h => h.mono fun _ _ hg => hg.discardsUnder)
            · next m₁ hon =>
                obtain ⟨hsteps, hover, hsame⟩ := startOn_steps (Function.update_self _ _ _) hon
                have hafter := ih hrest
                  (hnext fun j hj => (hsame j hj).trans (hother j hj)) h
                rw [hover] at hafter
                exact (hset.trans (fun h h' => h.trans h')
                  (hsteps.mono fun h => h.mono fun _ _ hg => hg.discardsUnder)).trans
                    (fun h h' => h.trans h') hafter

theorem strgMngWriteStart_steps {r : Int}
    (hwrap : ∀ i dm, m.dm i = some dm → dm.NoWrap)
    (h : strgMngWriteStart m chn recordType fuel = some (r, m')) :
    OnDisks (DiskSteps (DiscardsUnder m.overwrite)) m m' := by
  unfold strgMngWriteStart at h
  split at h
  · cases h
  · next m₁ hplain =>
      obtain ⟨_, rfl⟩ := Prod.mk.inj (Option.some.inj h)
      exact (startPlain_steps hplain).1.mono fun h => h.mono fun _ _ hg => hg.discardsUnder
  · next m₁ hplain =>
      obtain ⟨hsteps, hover⟩ := startPlain_steps hplain
      have hfirst : OnDisks (DiskSteps (DiscardsUnder m.overwrite)) m m₁ :=
        hsteps.mono fun h => h.mono fun _ _ hg => hg.discardsUnder
      split at h
      · obtain ⟨_, rfl⟩ := Prod.mk.inj (Option.some.inj h)
        exact hfirst
      · split at h
        · cases h
        · next m₂ hreset =>
            obtain ⟨_, rfl⟩ := Prod.mk.inj (Option.some.inj h)
            have hwrap₁ := hsteps.forall_disk (I := DiskMng.NoWrap) (J := DiskMng.NoWrap)
              (fun h hI => hI.steps h) hwrap
            have hsecond := startReset_steps List.nodup_range (fun i _ => hwrap₁ i) hreset
            rw [hover] at hsecond
            exact hfirst.trans (fun h h' => h.trans h') hsecond

end Start

/-- No disk that the operation may reset gets a generation that one of its
baskets has. -/
def MngOp.GenerationFree (m : StorageMng) : MngOp → Prop
  | .writeStart _ _ => ∀ i dm, m.dm i = some dm → dm.NoWrap
  | .diskReset i => ∀ dm, m.dm i = some dm → dm.NoWrap
  | _ => True

/-- Only a start discards anything. -/
theorem MngOp.Does.steps {m m' : StorageMng} {op : MngOp} (h : op.Does m m')
    (hfree : op.GenerationFree m) :
    OnDisks (DiskSteps (DiscardsUnder m.overwrite)) m m' ∧
      ((∀ chn recordType, op ≠ .writeStart chn recordType) → OnDisks (DiskSteps Keeping) m m') := by
  have hkeep : ∀ {m'}, OnDisks (DiskSteps Keeping) m m' →
      OnDisks (DiskSteps (DiscardsUnder m.overwrite)) m m' ∧
        ((∀ chn recordType, op ≠ .writeStart chn recordType) →
          OnDisks (DiskSteps Keeping) m m') :=
    fun h => ⟨h.mono fun h => h.mono fun _ _ hg => hg.discardsUnder, fun _ => h⟩
  have hone : ∀ {i dm dm'} (dop : DiskOp), m.dm i = some dm → dop.Does dm dm' →
      dop.Grants Keeping dm → OnDisks (DiskSteps Keeping) m (m.setDisk i dm') :=
    fun _ hi hdoes hgrants => OnDisks.setDisk (fun _ => .refl) hi (hdoes.steps hgrants)
  have hsame : ∀ {m' : StorageMng}, m'.dm = m.dm → OnDisks (DiskSteps Keeping) m m' :=
    fun heq => .of_eq (fun _ => .refl) heq
  cases op with
  | writeStart chn recordType =>
      obtain ⟨fuel, r, hstart⟩ := h
      exact ⟨strgMngWriteStart_steps hfree hstart, fun hne => absurd rfl (hne chn recordType)⟩
  | write chn minutes curTime f =>
      obtain rfl := h
      refine hkeep ?_
      unfold strgMngWrite
      split
      · exact hsame rfl
      · split
        · exact hsame rfl
        · next i _ dm hi => exact hone (.write chn minutes curTime f) hi rfl trivial
  | writeStop chn =>
      obtain rfl := h
      refine hkeep ?_
      unfold strgMngWriteStop
      split
      · exact hsame rfl
      · split
        · exact hsame rfl
        · next i _ dm hi => exact hone (.writeStop chn) hi rfl trivial
  | writeSetType chn type =>
      obtain rfl := h
      refine hkeep ?_
      unfold strgMngWriteSetType
      split
      · exact hsame rfl
      · split
        · exact hsame rfl
        · next i _ dm hi => exact hone (.writeSetType chn type) hi rfl trivial
  | setOverwrite chn overwrite =>
      obtain rfl := h
      exact hkeep (hsame rfl)
  | readStart q =>
      obtain rfl := h
      refine hkeep ?_
      unfold strgMngReadStart
      simp only
      split
      · split
        · exact hsame rfl
        · next dm hi => exact hone (.readStart q) hi rfl trivial
      · exact hsame rfl
  | readStop handle =>
      obtain rfl := h
      refine hkeep ?_
      unfold strgMngReadStop
      split
      · exact hsame rfl
      · next dm hi => exact hone (.readStop handle.2) hi rfl trivial
  | diskReset i =>
      obtain rfl := h
      refine hkeep ?_
      unfold StorageMng.resetDisk
      split
      · exact hsame rfl
      · next dm hi => exact hone (.reset m.overwrite) hi rfl (hfree dm hi)

theorem DiskSteps.keeping_discards {dm dm' : DiskMng} (h : DiskSteps Keeping dm dm') :
    dm'.discards = dm.discards := by
  refine h.invariant (I := fun d => d.discards = dm.discards) (fun hstep heq => ?_) rfl
  cases hstep.moves with
  | stays hs _ => exact hs.discards.trans heq
  | takeNew => exact heq
  | discardFail _ _ _ hC => exact hC.elim
  | takeOld _ _ _ hmask _ => exact hmask.elim
  | free =>
      unfold strgDiskFreeBasket
      split
      · exact heq
      · split <;> exact heq
  | nextGeneration => exact heq

/-- In every state that a run of the manager reaches, whatever is asked of it
next: each disk has lost the footage of the baskets in `ds` and of no others,
every one of them was permitted to be overwritten at the moment it was, and
only a start does so at all. -/
theorem footage_discarded_permitted {disks : List (Option DiskMng)} {ops : List MngOp} {op : MngOp}
    {m m' : StorageMng}
    (hload : ∀ dm, some dm ∈ disks →
      ∃ diskIdx dev, (strgDiskOpen diskIdx dev).1 = some dm ∧ dev.env.HeadersHold)
    (hrun : Run (Restrict MngOp.Does MngOp.GenerationFree) (strgMngInit disks) ops m)
    (hop : op.Does m m') (hfree : op.GenerationFree m) :
    ∀ i dm, m.dm i = some dm → ∃ dm' ds, m'.dm i = some dm' ∧
      Discards m.overwrite ds dm dm' ∧
      ((∀ chn recordType, op ≠ .writeStart chn recordType) → ds = []) := by
  have hinit : ∀ i dm, (strgMngInit disks).dm i = some dm → Guarded dm := by
    intro i dm hi
    have hmem : some dm ∈ disks := by
      have hi : disks.getD i none = some dm := hi
      rw [List.getD_eq_getElem?_getD] at hi
      cases hget : disks[i]? with
      | none =>
          rw [hget] at hi
          cases hi
      | some d =>
          rw [hget] at hi
          obtain rfl : d = some dm := hi
          exact List.mem_of_getElem? hget
    obtain ⟨diskIdx, dev, hopen, hheaders⟩ := hload dm hmem
    exact (strgDiskOpen_loaded hopen).guarded (strgDiskOpen_env hopen ▸ hheaders)
  have hguarded : ∀ i dm, m.dm i = some dm → Guarded dm :=
    hrun.invariant (I := fun m => ∀ i dm, m.dm i = some dm → Guarded dm)
      (fun hdisks hstep => (hstep.1.steps hstep.2).1.forall_disk
        (I := Guarded) (J := Guarded) (fun h hg => (hg.steps h).1) hdisks) hinit
  obtain ⟨hall, hkeeping⟩ := hop.steps hfree
  intro i dm hi
  rcases hall i with ⟨hnone, _⟩ | ⟨d, dm', hd, hdm', hsteps⟩
  · rw [hnone] at hi
    cases hi
  · rw [hd] at hi
    obtain rfl := Option.some.inj hi
    obtain ⟨_, ds, hds⟩ := (hguarded i d hd).steps hsteps
    refine ⟨dm', ds, hdm', hds, fun hne => ?_⟩
    rcases hkeeping hne i with ⟨hnone, _⟩ | ⟨e, e', he, he', hkept⟩
    · rw [hd] at hnone
      cases hnone
    · rw [hd] at he
      rw [hdm'] at he'
      obtain rfl := Option.some.inj he
      obtain rfl := Option.some.inj he'
      have hsame := hds.noted.symm.trans hkept.keeping_discards
      simpa using hsame

/-- The operation carried out, every start trying `fuel` times. -/
def MngOp.exec (fuel : Nat) (m : StorageMng) : MngOp → Option StorageMng
  | .writeStart chn recordType => (strgMngWriteStart m chn recordType fuel).map Prod.snd
  | .write chn minutes curTime f => some (strgMngWrite m chn minutes curTime f).2
  | .writeStop chn => some (strgMngWriteStop m chn)
  | .writeSetType chn type => some (strgMngWriteSetType m chn type).2
  | .setOverwrite chn overwrite => some (strgMngWriteSetOverwrite m chn overwrite)
  | .readStart q => some (strgMngReadStart m q).2
  | .readStop handle => some (strgMngReadStop m handle)
  | .diskReset i => some (m.resetDisk i)

theorem MngOp.exec_does {fuel : Nat} {m m' : StorageMng} {op : MngOp}
    (h : op.exec fuel m = some m') : op.Does m m' := by
  cases op with
  | writeStart chn recordType =>
      obtain ⟨⟨r, d⟩, hstart, rfl⟩ := Option.map_eq_some_iff.1 h
      exact ⟨fuel, r, hstart⟩
  | _ => exact (Option.some.inj h).symm

/-- The first recording on a disk that has just been formatted. -/
theorem footage_discarded_permitted_formatted :
    ∃ dm m', (strgDiskOpen 0 (formatted 1100)).1 = some dm ∧
      MngOp.Does (strgMngInit [some dm]) (.writeStart 0 recordTimeType) m' ∧
      ∃ dm' ds, m'.dm 0 = some dm' ∧ Discards overwriteAll ds dm dm' := by
  have hexec : (((strgDiskOpen 0 (formatted 1100)).1.bind fun dm =>
      (MngOp.exec 1 (strgMngInit [some dm]) (.writeStart 0 recordTimeType)).map fun _ =>
        decide dm.NoWrap)) = some true := by
    decide +kernel
  obtain ⟨dm, hopen, hexec⟩ := Option.bind_eq_some_iff.1 hexec
  obtain ⟨m', hstart, hwrap⟩ := Option.map_eq_some_iff.1 hexec
  have hdm : ∀ dm', some dm' ∈ [some dm] → dm' = dm := fun dm' h =>
    Option.some.inj (List.mem_singleton.1 h)
  have hfree : MngOp.GenerationFree (strgMngInit [some dm]) (.writeStart 0 recordTimeType) := by
    intro i d hd
    have hd : ([some dm] : List (Option DiskMng)).getD i none = some d := hd
    cases i with
    | zero =>
        obtain rfl := Option.some.inj hd
        exact of_decide_eq_true hwrap
    | succ i => cases hd
  have hload : ∀ d, some d ∈ [some dm] →
      ∃ diskIdx dev, (strgDiskOpen diskIdx dev).1 = some d ∧ dev.env.HeadersHold := by
    intro d hd
    refine ⟨0, formatted 1100, hdm d hd ▸ hopen, ?_⟩
    rw [formatted_env]
    exact fun n idx bg _ => Dev.blank_reliable.writeCut _ _ _ _
  have hmain := footage_discarded_permitted hload .nil (MngOp.exec_does hstart) hfree
  obtain ⟨dm', ds, hm', hds, _⟩ := hmain 0 dm rfl
  exact ⟨dm, m', hopen, MngOp.exec_does hstart, dm', ds, hm', hds⟩

/-- A device on which writing the header of basket 0 fails until tick 9. -/
def flaky : Dev :=
  { formatted 1100 with
    env := { (formatted 1100).env with
      writeCut := fun n p off _ =>
        if p = .basket 0 ∧ off = basketGlobalOft ∧ n < 9 then some 0 else none } }

/-- On a disk with one basket the first start fails to write the emptied
header; the second one resets the basket again, which is still in `bgi_old` but
by now of the present generation. -/
theorem reset_of_present_generation :
    ¬∀ (disks : List (Option DiskMng)) (ops : List MngOp) (op : MngOp) (m m' : StorageMng),
      (∀ dm, some dm ∈ disks → ∃ diskIdx dev, (strgDiskOpen diskIdx dev).1 = some dm) →
      Run MngOp.Does (strgMngInit disks) ops m → op.Does m m' →
      ∀ i dm, m.dm i = some dm → ∃ dm' ds, m'.dm i = some dm' ∧
        Discards m.overwrite ds dm dm' := by
  intro h
  have hexec : ((strgDiskOpen 0 flaky).1.bind fun dm =>
      (MngOp.exec 1 (strgMngInit [some dm]) (.writeStart 0 recordTimeType)).bind fun m =>
        (MngOp.exec 1 m (.writeStart 0 recordTimeType)).map fun m' =>
          ((m.dm 0).map fun d => d.discards.length,
            (m'.dm 0).map fun d => d.discards.map fun x => (x.basket.bg.useCnt, x.useCnt))) =
      some (some 1, some [(0, 1), (1, 1)]) := by decide +kernel
  obtain ⟨dm, hopen, hexec⟩ := Option.bind_eq_some_iff.1 hexec
  obtain ⟨m, hfirst, hexec⟩ := Option.bind_eq_some_iff.1 hexec
  obtain ⟨m', hsecond, hseen⟩ := Option.map_eq_some_iff.1 hexec
  obtain ⟨hone, htwo⟩ := Prod.mk.inj hseen
  obtain ⟨d, hd, hlength⟩ := Option.map_eq_some_iff.1 hone
  obtain ⟨d', hd', hdiscards⟩ := Option.map_eq_some_iff.1 htwo
  obtain ⟨d₁, ds, hd₁, hds⟩ := h [some dm] [.writeStart 0 recordTimeType] _ m m'
    (fun dm' hdm' => ⟨0, flaky, Option.some.inj (List.mem_singleton.1 hdm') ▸ hopen⟩)
    (.single (MngOp.exec_does hfirst)) (MngOp.exec_does hsecond) 0 d hd
  rw [hd'] at hd₁
  obtain rfl := Option.some.inj hd₁
  -- the second discard is the one of this start
  obtain ⟨x, hx⟩ := List.length_eq_one_iff.1 hlength
  rw [hds.noted, hx, List.map_append, List.map_singleton, List.singleton_append] at hdiscards
  obtain ⟨_, hrest⟩ := List.cons.inj hdiscards
  obtain ⟨y, rfl, hy⟩ := List.map_eq_singleton_iff.1 hrest
  obtain ⟨huse, hcnt⟩ := Prod.mk.inj hy
  have hpermitted := (hds.permitted y (List.mem_singleton_self y)).1
  exact hpermitted.generation (huse.trans hcnt.symm)

end Nvr.Storage
