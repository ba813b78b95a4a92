import Nvr.Lib.Custody
import Nvr.Proofs.DiskMoves
import Nvr.Proofs.Loaded

/-!
# Every basket is in one place

`places dm p` counts where the basket `p` is: in `bgi_new`, in `bgi_old`, under
the channels. No step of a disk makes the number go up, and one kind of step
makes it go down: a channel that has a basket takes another one, and
`bfi_cur` forgets the first. `strg_disk_write_start` does so whenever it is
called for a channel that is recording and there is a basket to give, as saving
a snapshot does. A basket lost like this never comes back, so the baskets are
all in one place exactly if no start in the run was of that kind.
-/

namespace Nvr.Storage

open Custody

def DiskMng.places (dm : DiskMng) (p : Nat) : Nat :=
  dm.bgiNew.count p + dm.bgiOld.count p + slotCount dm.slot p

/-- Every basket of `bgi_list` is in exactly one of `bgi_new`, `bgi_old` and the
places of the channels, and `bgi_new` holds baskets of the current generation
only. -/
structure Owned (dm : DiskMng) : Prop where
  once : ∀ p ∈ dm.bgiList, dm.places p = 1
  current : ∀ p ∈ dm.bgiNew, (dm.bgi p).bg.useCnt = dm.dg.useCnt

/-- What holds in any case: no basket is in two places. -/
structure AtMostOnce (dm : DiskMng) : Prop where
  places : ∀ p, dm.places p ≤ 1
  current : ∀ p ∈ dm.bgiNew, (dm.bgi p).bg.useCnt = dm.dg.useCnt

/-! ## Moving a basket -/

theorem slot_setCur (dm : DiskMng) (chn : Chn) (bfi : Option BasketFileInfo) :
    (dm.setCur chn bfi).slot = Function.update dm.slot chn (bfi.map (·.bgi)) := by
  funext c
  show (Function.update dm.bfiCur chn bfi c).map (·.bgi) = _
  by_cases hc : c = chn
  · subst hc
    rw [Function.update_self, Function.update_self]
  · rw [Function.update_of_ne hc, Function.update_of_ne hc, DiskMng.slot]

theorem Stays.places {dm dm' : DiskMng} (h : Stays dm dm') (p : Nat) :
    dm'.places p = dm.places p := by
  rw [DiskMng.places, h.bgiNew, h.bgiOld, h.slot, DiskMng.places]

/-- What the channel had before is in one place less. -/
theorem places_takeNew (dm : DiskMng) (chn : Chn) (bfi : BasketFileInfo)
    (h : bfi.bgi ∈ dm.bgiNew) (p : Nat) :
    (dm.takeNew chn bfi).places p + (if dm.slot chn = some p then 1 else 0) = dm.places p := by
  have herase := count_erase dm.bgiNew bfi.bgi p
  have hslot := slotCount_update dm.slot chn (some bfi.bgi) p
  have hplaces : (dm.takeNew chn bfi).places p = (dm.bgiNew.erase bfi.bgi).count p +
      dm.bgiOld.count p + slotCount (Function.update dm.slot chn (some bfi.bgi)) p := by
    rw [DiskMng.places, DiskMng.takeNew, slot_setCur]
    rfl
  simp only [h, and_true] at herase
  simp only [Option.some.injEq] at hslot
  rw [hplaces, DiskMng.places]
  omega

theorem places_takeOld (dm : DiskMng) (chn : Chn) (bfi : BasketFileInfo)
    (h : bfi.bgi ∈ dm.bgiOld) (p : Nat) :
    (dm.takeOld chn bfi).places p + (if dm.slot chn = some p then 1 else 0) = dm.places p := by
  have herase := count_erase dm.bgiOld bfi.bgi p
  have hslot := slotCount_update dm.slot chn (some bfi.bgi) p
  have hplaces : (dm.takeOld chn bfi).places p = dm.bgiNew.count p +
      (dm.bgiOld.erase bfi.bgi).count p +
        slotCount (Function.update dm.slot chn (some bfi.bgi)) p := by
    rw [DiskMng.places, DiskMng.takeOld, slot_setCur]
    rfl
  simp only [h, and_true] at herase
  simp only [Option.some.injEq] at hslot
  rw [hplaces, DiskMng.places]
  omega

/-- The reset before it moves nothing. -/
theorem places_reset_takeOld (dm : DiskMng) (chn : Chn) (overwrite : UInt32) {q : Nat}
    (h : q ∈ dm.bgiOld) (p : Nat) :
    ((dm.resetBasket q (.fresh q) chn overwrite).2.takeOld chn (.fresh q)).places p +
      (if dm.slot chn = some p then 1 else 0) = dm.places p :=
  places_takeOld (dm.resetBasket q (.fresh q) chn overwrite).2 chn (.fresh q) h p

theorem places_free (dm : DiskMng) (chn : Chn) (p : Nat) :
    (strgDiskFreeBasket dm chn).places p = dm.places p := by
  unfold strgDiskFreeBasket
  split
  · rfl
  · next bfi hcur =>
      have hslot := slotCount_update dm.slot chn none p
      have hown : dm.slot chn = some bfi.bgi := by rw [DiskMng.slot, hcur, Option.map_some]
      rw [hown] at hslot
      simp only [Option.some.injEq, reduceCtorEq, if_false] at hslot
      split
      · have hcount := count_orderedInsert dm.bgiNew bfi.bgi p
        rw [DiskMng.places, slot_setCur, DiskMng.places, Option.map_none]
        show (dm.bgiNew.orderedInsert (· ≤ ·) bfi.bgi).count p + dm.bgiOld.count p +
          slotCount (Function.update dm.slot chn none) p = _
        omega
      · have hcount := count_orderedInsert dm.bgiOld bfi.bgi p
        rw [DiskMng.places, slot_setCur, DiskMng.places, Option.map_none]
        show dm.bgiNew.count p + (dm.bgiOld.orderedInsert (· ≤ ·) bfi.bgi).count p +
          slotCount (Function.update dm.slot chn none) p = _
        omega

theorem places_nextGeneration (dm : DiskMng) (p : Nat) :
    dm.nextGeneration.places p = dm.places p := by
  show ([] : List Nat).count p + (dm.bgiOld ++ dm.bgiNew).count p + slotCount dm.slot p = _
  rw [List.count_append, List.count_nil, DiskMng.places]
  omega

/-! ## Steps -/

section Steps

variable {C : Guard → DiskMng → Prop} {dm dm' : DiskMng}

theorem DiskStep.places_le (h : DiskStep C dm dm') (p : Nat) : dm'.places p ≤ dm.places p := by
  cases h.moves with
  | stays h _ => exact (h.places p).le
  | @takeNew chn q hq _ _ =>
      exact Nat.le_of_add_right_le (places_takeNew dm chn (.fresh q) hq p).le
  | discardFail => exact le_rfl
  | takeOld hq _ _ _ _ => exact Nat.le_of_add_right_le (places_reset_takeOld dm _ _ hq p).le
  | free chn => exact (places_free dm chn p).le
  | nextGeneration => exact (places_nextGeneration dm p).le

/-- Nothing is lost when channels only take baskets that have none. -/
theorem DiskStep.places_eq (hC : ∀ chn d, C (.take chn) d → d.bfiCur chn = none)
    (h : DiskStep C dm dm') (p : Nat) : dm'.places p = dm.places p := by
  have hfree : ∀ {chn}, C (.take chn) dm → ¬dm.slot chn = some p := by
    intro chn hguard
    rw [DiskMng.slot, hC chn dm hguard]
    simp
  cases h.moves with
  | stays h _ => exact h.places p
  | @takeNew chn q hq _ hguard =>
      have htake := places_takeNew dm chn (.fresh q) hq p
      rwa [if_neg (hfree hguard)] at htake
  | discardFail => rfl
  | @takeOld chn q overwrite hq _ _ _ hguard =>
      have htake := places_reset_takeOld dm chn overwrite hq p
      rwa [if_neg (hfree hguard)] at htake
  | free chn => exact places_free dm chn p
  | nextGeneration => exact places_nextGeneration dm p

theorem DiskStep.bgiList (h : DiskStep C dm dm') : dm'.bgiList = dm.bgiList := by
  cases h.moves with
  | stays h _ => exact h.bgiList
  | takeNew => rfl
  | discardFail => rfl
  | takeOld => rfl
  | free =>
      unfold strgDiskFreeBasket
      split
      · rfl
      · split <;> rfl
  | nextGeneration => rfl

/-- A basket in one list is not in the other. -/
theorem AtMostOnce.notMem_new (h : AtMostOnce dm) {p : Nat} (hp : p ∈ dm.bgiOld) :
    p ∉ dm.bgiNew := by
  intro hnew
  have := h.places p
  rw [DiskMng.places] at this
  have := List.count_pos_iff.2 hp
  have := List.count_pos_iff.2 hnew
  omega

theorem AtMostOnce.notMem_slot (h : AtMostOnce dm) {p : Nat} (hp : p ∈ dm.bgiOld) (chn : Chn) :
    dm.slot chn ≠ some p := by
  intro hslot
  have := h.places p
  rw [DiskMng.places] at this
  have := List.count_pos_iff.2 hp
  have : 0 < slotCount dm.slot p := slotCount_pos.2 ⟨chn, hslot⟩
  omega

/-- A basket that is reset is none of `bgi_new`. -/
theorem AtMostOnce.current_resetBasket (h : AtMostOnce dm) {q : Nat} (hq : q ∈ dm.bgiOld)
    {bfi : BasketFileInfo} {chn : Chn} {overwrite : UInt32} :
    ∀ p ∈ dm.bgiNew,
      ((dm.resetBasket q bfi chn overwrite).2.bgi p).bg.useCnt = dm.dg.useCnt := by
  intro p hp
  have hne : p ≠ q := fun heq => h.notMem_new hq (heq ▸ hp)
  show (Function.update dm.bgi q _ p).bg.useCnt = _
  rw [Function.update_of_ne hne]
  exact h.current p hp

theorem AtMostOnce.step (h : AtMostOnce dm) (hstep : DiskStep C dm dm') : AtMostOnce dm' := by
  refine ⟨fun p => (hstep.places_le p).trans (h.places p), ?_⟩
  cases hstep.moves with
  | stays hs _ =>
      intro p hp
      rw [hs.bgiNew] at hp
      rw [hs.useCnt, hs.dg]
      exact h.current p hp
  | takeNew => exact fun p hp => h.current p (List.mem_of_mem_erase hp)
  | @discardFail chn q overwrite hq _ _ _ => exact h.current_resetBasket hq
  | @takeOld chn q overwrite hq _ _ _ _ => exact h.current_resetBasket hq
  | free =>
      unfold strgDiskFreeBasket
      split
      · exact h.current
      · split
        · next heq =>
            intro p hp
            rcases (List.mem_orderedInsert _).1 hp with rfl | hp
            · exact heq
            · exact h.current p hp
        · exact h.current
  | nextGeneration =>
      intro p hp
      cases hp

end Steps

/-! ## Runs -/

theorem AtMostOnce.steps {C : Guard → DiskMng → Prop} {dm dm' : DiskMng} (h : AtMostOnce dm)
    (hsteps : DiskSteps C dm dm') : AtMostOnce dm' :=
  hsteps.invariant (I := AtMostOnce) (fun hstep hdm => hdm.step hstep) h

theorem DiskSteps.places_le {C : Guard → DiskMng → Prop} {dm dm' : DiskMng}
    (h : DiskSteps C dm dm') (p : Nat) : dm'.places p ≤ dm.places p :=
  h.invariant (I := fun d => d.places p ≤ dm.places p)
    (fun hstep hle => (hstep.places_le p).trans hle) le_rfl

theorem DiskSteps.places_eq {C : Guard → DiskMng → Prop} {dm dm' : DiskMng}
    (hC : ∀ chn d, C (.take chn) d → d.bfiCur chn = none) (h : DiskSteps C dm dm') (p : Nat) :
    dm'.places p = dm.places p :=
  h.invariant (I := fun d => d.places p = dm.places p)
    (fun hstep heq => (hstep.places_eq hC p).trans heq) rfl

theorem DiskSteps.bgiList {C : Guard → DiskMng → Prop} {dm dm' : DiskMng}
    (h : DiskSteps C dm dm') : dm'.bgiList = dm.bgiList :=
  h.invariant (I := fun d => d.bgiList = dm.bgiList)
    (fun hstep heq => hstep.bgiList.trans heq) rfl

theorem Loaded.places {dm : DiskMng} (h : Loaded dm) (p : Nat) :
    dm.places p = dm.bgiList.count p := by
  have hslot : slotCount dm.slot p = 0 :=
    slotCount_eq_zero.2 fun chn => by
      rw [DiskMng.slot, h.idle chn]
      simp
  rw [DiskMng.places, hslot, h.new, h.old]
  by_cases hgen : (dm.bgi p).bg.useCnt = dm.dg.useCnt
  · rw [List.count_filter (by simp [hgen]),
      List.count_eq_zero_of_not_mem (l := dm.bgiList.filter _) (by simp [hgen])]
    omega
  · rw [List.count_eq_zero_of_not_mem (l := dm.bgiList.filter _) (by simp [hgen]),
      List.count_filter (by simp [hgen])]
    omega

theorem Loaded.atMostOnce {dm : DiskMng} (h : Loaded dm) : AtMostOnce dm := by
  refine ⟨fun p => ?_, fun p hp => ?_⟩
  · rw [h.places]
    exact List.nodup_iff_count_le_one.1 h.nodup p
  · rw [h.new] at hp
    exact of_decide_eq_true (List.mem_filter.1 hp).2

theorem Loaded.owned {dm : DiskMng} (h : Loaded dm) : Owned dm where
  once p hp := by
    rw [h.places]
    exact List.count_eq_one_of_mem h.nodup hp
  current := h.atMostOnce.current

/-- The start is not one of a channel that has a basket while there is another
to give. -/
def DiskOp.SparesCurrent (dm : DiskMng) : DiskOp → Prop
  | .writeStart chn _ overwrite =>
      dm.bfiCur chn = none ∨ (strgDiskAllocBasket dm chn overwrite).1 = none
  | _ => True

/-- Channels take baskets when they have none. -/
def TakesFree : Guard → DiskMng → Prop
  | .take chn, dm => dm.bfiCur chn = none
  | _, _ => True

theorem DiskOp.SparesCurrent.grants {dm : DiskMng} {op : DiskOp} (h : op.SparesCurrent dm) :
    op.Grants TakesFree dm := by
  cases op with
  | writeStart chn recordType overwrite =>
      refine ⟨fun _ => trivial, fun _ hd => hd, fun hsome d hd => ?_⟩
      rcases h with h | h
      · exact (congrFun hd chn).trans h
      · exact absurd h hsome
  | _ => trivial

theorem DiskOp.Does.owned {dm dm' : DiskMng} {op : DiskOp} (h : op.Does dm dm')
    (hspares : op.SparesCurrent dm) (hdm : Owned dm) (honce : AtMostOnce dm) : Owned dm' := by
  have hsteps := h.steps hspares.grants
  refine ⟨fun p hp => ?_, (honce.steps hsteps).current⟩
  rw [hsteps.places_eq (fun _ _ hguard => hguard) p]
  rw [hsteps.bgiList] at hp
  exact hdm.once p hp

/-- A basket that is in no place stays lost. -/
theorem Owned.before {C : Guard → DiskMng → Prop} {dm dm' : DiskMng} (honce : AtMostOnce dm)
    (hsteps : DiskSteps C dm dm') (h : Owned dm') : Owned dm := by
  refine ⟨fun p hp => le_antisymm (honce.places p) ?_, honce.current⟩
  rw [← hsteps.bgiList] at hp
  rw [← h.once p hp]
  exact hsteps.places_le p

/-- The basket under the channel is lost when another one is taken. -/
theorem Allocates.loses {chn : Chn} {overwrite : UInt32} {dm : DiskMng} {bfi : BasketFileInfo}
    {r : Option BasketFileInfo × DiskMng} (h : Allocates chn overwrite dm r)
    (hcur : dm.bfiCur chn = some bfi) (hr : r.1 ≠ none) : r.2.places bfi.bgi + 1 = dm.places bfi.bgi := by
  have hslot : ∀ {d : DiskMng}, d.bfiCur = dm.bfiCur → d.slot chn = some bfi.bgi := by
    intro d hd
    rw [DiskMng.slot, hd, hcur, Option.map_some]
  cases h with
  | nothing => exact absurd rfl hr
  | @new d q hsteps hd hq _ =>
      have htake := places_takeNew d chn (.fresh q) hq bfi.bgi
      rwa [if_pos (hslot hd), hsteps.places_eq (fun _ _ hfalse => hfalse.elim)] at htake
  | @old d q hsteps hd hq _ _ =>
      have htake := places_reset_takeOld d chn overwrite hq bfi.bgi
      rwa [if_pos (hslot hd), hsteps.places_eq (fun _ _ hfalse => hfalse.elim)] at htake

/-- The basket of a channel is one of the disk's. -/
structure Known (dm : DiskMng) : Prop where
  places : ∀ p, 0 < dm.places p → p ∈ dm.bgiList

theorem Known.steps {C : Guard → DiskMng → Prop} {dm dm' : DiskMng} (h : Known dm)
    (hsteps : DiskSteps C dm dm') : Known dm' := by
  refine ⟨fun p hp => ?_⟩
  rw [hsteps.bgiList]
  exact h.places p (hp.trans_le (hsteps.places_le p))

theorem DiskOp.Does.spares {dm dm' : DiskMng} {op : DiskOp} (h : op.Does dm dm')
    (honce : AtMostOnce dm) (hknown : Known dm) (howned : Owned dm') : op.SparesCurrent dm := by
  cases op with
  | writeStart chn recordType overwrite =>
      by_contra hnot
      obtain ⟨hcur, hsome⟩ := not_or.1 hnot
      obtain ⟨bfi, hbfi⟩ := Option.ne_none_iff_exists'.1 hcur
      have halloc := strgDiskAllocBasket_allocates dm chn overwrite
      have hloses := halloc.loses hbfi hsome
      obtain ⟨fuel, r, hstart⟩ := h
      have hafter := strgDiskWriteStart_alloc (C := Anyhow) (fun _ => trivial) (fun _ _ => trivial)
        hstart
      have hle := hafter.places_le bfi.bgi
      have hatmost := honce.places bfi.bgi
      have hmem : bfi.bgi ∈ dm.bgiList := hknown.places _ (by omega)
      have hbefore : DiskSteps Anyhow dm (strgDiskAllocBasket dm chn overwrite).2 :=
        halloc.steps (fun _ => trivial) fun _ _ _ => trivial
      have hlist : dm'.bgiList = dm.bgiList := hafter.bgiList.trans hbefore.bgiList
      have hone := howned.once bfi.bgi (hlist ▸ hmem)
      omega
  | _ => trivial

theorem Loaded.known {dm : DiskMng} (h : Loaded dm) : Known dm :=
  ⟨fun p hp => List.count_pos_iff.1 (h.places p ▸ hp)⟩

/-- After any run from a loaded disk every basket is in exactly one place if and
only if no start in it was of a channel that had a basket while there was
another to give. -/
theorem owned_iff {diskIdx : Int32} {dev : Dev} {dm dm' : DiskMng} {ops : List DiskOp}
    (hload : (strgDiskOpen diskIdx dev).1 = some dm)
    (hrun : Run DiskOp.Does dm ops dm') :
    Owned dm' ↔ Run (Restrict DiskOp.Does DiskOp.SparesCurrent) dm ops dm' := by
  have hloaded := strgDiskOpen_loaded hload
  have hforth : ∀ {ops dm'}, Run (Restrict DiskOp.Does DiskOp.SparesCurrent) dm ops dm' →
      AtMostOnce dm' ∧ Owned dm' := fun hrun =>
    hrun.invariant (I := fun d => AtMostOnce d ∧ Owned d)
      (fun hd hop => ⟨hd.1.steps hop.1.anyhow, hop.1.owned hop.2 hd.2 hd.1⟩)
      ⟨hloaded.atMostOnce, hloaded.owned⟩
  refine ⟨fun howned => ?_, fun h => (hforth h).2⟩
  induction hrun with
  | nil => exact .nil
  | @snoc ops d d' op hrun hop ih =>
      obtain ⟨honce, hknown⟩ : AtMostOnce d ∧ Known d :=
        hrun.invariant (I := fun d => AtMostOnce d ∧ Known d)
          (fun hd hop => ⟨hd.1.steps hop.anyhow, hd.2.steps hop.anyhow⟩)
          ⟨hloaded.atMostOnce, hloaded.known⟩
      exact .snoc (ih (howned.before honce hop.anyhow)) ⟨hop, hop.spares honce hknown howned⟩

/-- One recording on a disk just formatted with two baskets. -/
theorem owned_iff_formatted :
    ∃ dm dm', (strgDiskOpen 0 (formatted 2100)).1 = some dm ∧
      (Owned dm' ↔ Run (Restrict DiskOp.Does DiskOp.SparesCurrent) dm
        [.writeStart 0 recordTimeType 0, .writeStop 0] dm') := by
  have hexec : ((strgDiskOpen 0 (formatted 2100)).1.bind fun dm =>
      ([.writeStart 0 recordTimeType 0, .writeStop 0] : List DiskOp).foldlM
        (DiskOp.exec 1) dm).isSome = true := by decide +kernel
  obtain ⟨dm', hexec⟩ := Option.isSome_iff_exists.1 hexec
  obtain ⟨dm, hopen, hexec⟩ := Option.bind_eq_some_iff.1 hexec
  exact ⟨dm, dm', hopen, owned_iff hopen (Run.of_foldlM DiskOp.exec_does hexec)⟩

/-- A channel is recording on a disk with two baskets when a snapshot of it is
saved: the start for the snapshot takes the second basket, and the first is
nowhere any more. -/
theorem snapshot_loses_basket :
    ¬∀ (diskIdx : Int32) (dev : Dev) (dm dm' : DiskMng) (ops : List DiskOp),
      (strgDiskOpen diskIdx dev).1 = some dm → Run DiskOp.Does dm ops dm' → Owned dm' := by
  intro h
  have hlost : ((strgDiskOpen 0 (formatted 2100)).1.bind fun dm =>
      ([.writeStart 0 recordTimeType 0, .writeStart 0 recordJpegType 0] : List DiskOp).foldlM
        (DiskOp.exec 1) dm).map (fun dm => (dm.bgiList, dm.places 0)) = some ([0, 1], 0) := by
    decide +kernel
  obtain ⟨dm', hexec, hplaces⟩ := Option.map_eq_some_iff.1 hlost
  obtain ⟨dm, hopen, hexec⟩ := Option.bind_eq_some_iff.1 hexec
  obtain ⟨hlist, hzero⟩ := Prod.mk.inj hplaces
  have howned := h 0 (formatted 2100) dm dm' _ hopen (Run.of_foldlM DiskOp.exec_does hexec)
  have hone := howned.once 0 (by rw [hlist]; decide)
  omega

end Nvr.Storage
