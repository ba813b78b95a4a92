import Mathlib.Logic.Relation
import Nvr.Lib.Run
import Nvr.Storage.Disk

/-!
# What a disk operation is made of

Every operation of `Disk.lean` is a sequence of the steps listed here: a basket
is taken out of a list, reset, written to, put back. `DiskStep` says in one
place what each of them does, so an invariant is proved once for each step and
holds for every operation, whatever its loops do.

Some of the steps are where the invariants part ways, and they carry a guard: a
channel takes a basket, a basket is reset under some overwrite mask, a channel
writes, stops or marks its recording, the disk is reset. `C` is what is known of
the disk when that happens.

At the end stand the operations that a disk can be asked for, in one type, so
that a run is a list of them.
-/

namespace Nvr.Storage

open Relation

/-- The steps that a condition can be put on. -/
inductive Guard where
  | take (chn : Chn)
  | discard (overwrite : UInt32)
  | write (chn : Chn)
  | stop (chn : Chn)
  | addType (chn : Chn)
  | reset

/-- A recording that has started, as far as the disk is concerned. -/
def DiskMng.recordStart (dm : DiskMng) (chn : Chn) (b : Basket) : DiskMng :=
  let dm := (dm.putBasket chn b).flagOnce
  dm.writeEntry b.bfi.bgi b.bfi.curBfIdx (dm.curFragment b.bfi)

/-- A recording that has stopped, its basket still taken. -/
def DiskMng.recordStop (dm : DiskMng) (chn : Chn) (bfi : BasketFileInfo) (i : Nat) : DiskMng :=
  let dm := dm.putBasket chn (strgBasketWriteStop (dm.basket bfi))
  dm.writeEntry bfi.bgi bfi.curBfIdx ((dm.bgi bfi.bgi).bfList.getD i default)

inductive DiskStep (C : Guard → DiskMng → Prop) : DiskMng → DiskMng → Prop
  | wait (dm : DiskMng) : DiskStep C dm (dm.setDev dm.dev.wait)
  | takeNew {dm : DiskMng} {chn : Chn} {p : Nat} (h : p ∈ dm.bgiNew)
      (hfits : allocFits chn (dm.bgi p) = true) (hC : C (.take chn) dm) :
      DiskStep C dm (dm.takeNew chn (.fresh p))
  | discardFail {dm : DiskMng} {chn : Chn} {p : Nat} {overwrite : UInt32} (h : p ∈ dm.bgiOld)
      (hover : overwritable overwrite (dm.bgi p) = true)
      (hret : (dm.resetBasket p (.fresh p) chn overwrite).1 < 0) (hC : C (.discard overwrite) dm) :
      DiskStep C dm (dm.resetBasket p (.fresh p) chn overwrite).2
  | takeOld {dm : DiskMng} {chn : Chn} {p : Nat} {overwrite : UInt32} (h : p ∈ dm.bgiOld)
      (hover : overwritable overwrite (dm.bgi p) = true)
      (hret : ¬(dm.resetBasket p (.fresh p) chn overwrite).1 < 0) (hmask : C (.discard overwrite) dm)
      (hC : C (.take chn) dm) :
      DiskStep C dm ((dm.resetBasket p (.fresh p) chn overwrite).2.takeOld chn (.fresh p))
  | startFail {dm : DiskMng} {chn : Chn} {bfi : BasketFileInfo} {recordType : RecordType}
      (h : dm.bfiCur chn = some bfi)
      (hfew : (dm.bgi bfi.bgi).bg.fragmentNum < UInt32.ofNat basketFragmentNum)
      (hret : (strgBasketWriteStart (dm.basket bfi) (chnWord chn) recordType).1 < 0) :
      DiskStep C dm
        (dm.putBasket chn (strgBasketWriteStart (dm.basket bfi) (chnWord chn) recordType).2)
  | start {dm : DiskMng} {chn : Chn} {bfi : BasketFileInfo} {recordType : RecordType}
      (h : dm.bfiCur chn = some bfi)
      (hfew : (dm.bgi bfi.bgi).bg.fragmentNum < UInt32.ofNat basketFragmentNum)
      (hread : (dm.bgi bfi.bgi).bg.status &&& useStatusReading = 0)
      (hret : ¬(strgBasketWriteStart (dm.basket bfi) (chnWord chn) recordType).1 < 0) :
      DiskStep C dm
        (dm.recordStart chn (strgBasketWriteStart (dm.basket bfi) (chnWord chn) recordType).2)
  | write {dm : DiskMng} {chn : Chn} (minutes : Int32) (curTime : UInt64) (f : Frame)
      (hC : C (.write chn) dm) : DiskStep C dm (strgDiskWrite dm chn minutes curTime f).2
  | stop {dm : DiskMng} {chn : Chn} {bfi : BasketFileInfo} {i : Nat}
      (h : dm.bfiCur chn = some bfi) (hcur : bfi.curBf = some i) (hC : C (.stop chn) dm) :
      DiskStep C dm (dm.recordStop chn bfi i)
  | clearUpdate (dm : DiskMng) (p : Nat) : DiskStep C dm (dm.clearUpdate p)
  | free (dm : DiskMng) (chn : Chn) : DiskStep C dm (strgDiskFreeBasket dm chn)
  | setType {dm : DiskMng} {chn : Chn} (type : RecordType) (hC : C (.addType chn) dm) :
      DiskStep C dm (strgDiskWriteSetType dm chn type).2
  | readStart (dm : DiskMng) (q : RecordQueryInfo) : DiskStep C dm (strgDiskReadStart dm q).2
  | readStop (dm : DiskMng) (handle : Nat) : DiskStep C dm (strgDiskReadStop dm handle)
  | reset {dm : DiskMng} (overwrite : UInt32) (hC : C .reset dm) :
      DiskStep C dm (strgDiskReset dm overwrite).2

/-- Any number of steps. -/
abbrev DiskSteps (C : Guard → DiskMng → Prop) : DiskMng → DiskMng → Prop :=
  ReflTransGen (DiskStep C)

/-- No guarded step but discarding under this mask. -/
def Discarding (overwrite : UInt32) : Guard → DiskMng → Prop
  | .discard mask, _ => mask = overwrite
  | _, _ => False

/-- Every step. -/
def Anyhow (_ : Guard) (_ : DiskMng) : Prop := True

/-- What every step keeps, every sequence of steps keeps. -/
theorem DiskSteps.invariant {C : Guard → DiskMng → Prop} {I : DiskMng → Prop}
    (hstep : ∀ {dm dm'}, DiskStep C dm dm' → I dm → I dm') {dm dm' : DiskMng}
    (h : DiskSteps C dm dm') (h0 : I dm) : I dm' := by
  induction h with
  | refl => exact h0
  | tail _ hs ih => exact hstep hs ih

theorem DiskStep.mono {C C' : Guard → DiskMng → Prop} (hC : ∀ g d, C g d → C' g d)
    {dm dm' : DiskMng} (h : DiskStep C dm dm') : DiskStep C' dm dm' := by
  cases h with
  | wait => exact .wait _
  | takeNew h hfits hguard => exact .takeNew h hfits (hC _ _ hguard)
  | discardFail h hover hret hguard => exact .discardFail h hover hret (hC _ _ hguard)
  | takeOld h hover hret hmask hguard =>
      exact .takeOld h hover hret (hC _ _ hmask) (hC _ _ hguard)
  | startFail h hfew hret => exact .startFail h hfew hret
  | start h hfew hread hret => exact .start h hfew hread hret
  | write minutes curTime f hguard => exact .write minutes curTime f (hC _ _ hguard)
  | stop h hcur hguard => exact .stop h hcur (hC _ _ hguard)
  | clearUpdate => exact .clearUpdate _ _
  | free => exact .free _ _
  | setType type hguard => exact .setType type (hC _ _ hguard)
  | readStart => exact .readStart _ _
  | readStop => exact .readStop _ _
  | reset overwrite hguard => exact .reset overwrite (hC _ _ hguard)

theorem DiskSteps.mono {C C' : Guard → DiskMng → Prop} (hC : ∀ g d, C g d → C' g d)
    {dm dm' : DiskMng} (h : DiskSteps C dm dm') : DiskSteps C' dm dm' := by
  induction h with
  | refl => exact .refl
  | tail _ hs ih => exact ih.tail (hs.mono hC)

theorem DiskSteps.of_discarding {C : Guard → DiskMng → Prop} {overwrite : UInt32}
    {dm dm' : DiskMng} (hC : ∀ d, C (.discard overwrite) d)
    (h : DiskSteps (Discarding overwrite) dm dm') : DiskSteps C dm dm' := by
  refine h.mono fun g d hg => ?_
  cases g with
  | discard mask =>
      obtain rfl : mask = overwrite := hg
      exact hC d
  | _ => exact hg.elim

theorem DiskSteps.anyhow {C : Guard → DiskMng → Prop} {dm dm' : DiskMng}
    (h : DiskSteps C dm dm') : DiskSteps Anyhow dm dm' :=
  h.mono fun _ _ _ => trivial

/-! ## Allocation -/

/-- What `strg_disk_alloc_basket` comes back with: nothing, or a basket that
the channel has just taken, from the list it is in at that moment. -/
inductive Allocates (chn : Chn) (overwrite : UInt32) (dm : DiskMng) :
    Option BasketFileInfo × DiskMng → Prop
  | nothing {d : DiskMng} (hsteps : DiskSteps (Discarding overwrite) dm d) (hcur : d.bfiCur = dm.bfiCur) :
      Allocates chn overwrite dm (none, d)
  | new {d : DiskMng} {p : Nat} (hsteps : DiskSteps (Discarding overwrite) dm d)
      (hcur : d.bfiCur = dm.bfiCur) (h : p ∈ d.bgiNew)
      (hfits : allocFits chn (d.bgi p) = true) :
      Allocates chn overwrite dm (some (.fresh p), d.takeNew chn (.fresh p))
  | old {d : DiskMng} {p : Nat} (hsteps : DiskSteps (Discarding overwrite) dm d)
      (hcur : d.bfiCur = dm.bfiCur) (h : p ∈ d.bgiOld)
      (hover : overwritable overwrite (d.bgi p) = true)
      (hret : ¬(d.resetBasket p (.fresh p) chn overwrite).1 < 0) :
      Allocates chn overwrite dm (some (.fresh p),
        (d.resetBasket p (.fresh p) chn overwrite).2.takeOld chn (.fresh p))

namespace Allocates

variable {chn : Chn} {overwrite : UInt32} {dm d : DiskMng} {r : Option BasketFileInfo × DiskMng}

/-- Steps that leave the channels alone may come before. -/
theorem after (hsteps : DiskSteps (Discarding overwrite) dm d) (hcur : d.bfiCur = dm.bfiCur)
    (h : Allocates chn overwrite d r) : Allocates chn overwrite dm r := by
  cases h with
  | nothing hsteps' hcur' => exact .nothing (hsteps.trans hsteps') (hcur'.trans hcur)
  | new hsteps' hcur' h hfits => exact .new (hsteps.trans hsteps') (hcur'.trans hcur) h hfits
  | old hsteps' hcur' h hover hret =>
      exact .old (hsteps.trans hsteps') (hcur'.trans hcur) h hover hret

/-- The basket is taken under what is known of a disk with these channels. -/
theorem steps {C : Guard → DiskMng → Prop} (h : Allocates chn overwrite dm r)
    (hmask : ∀ d, C (.discard overwrite) d)
    (hC : r.1 ≠ none → ∀ d : DiskMng, d.bfiCur = dm.bfiCur → C (.take chn) d) :
    DiskSteps C dm r.2 := by
  cases h with
  | nothing hsteps _ => exact hsteps.of_discarding hmask
  | new hsteps hcur h hfits =>
      exact (hsteps.of_discarding hmask).tail (.takeNew h hfits (hC (by simp) _ hcur))
  | old hsteps hcur h hover hret =>
      exact (hsteps.of_discarding hmask).tail (.takeOld h hover hret (hmask _) (hC (by simp) _ hcur))

theorem cur {bfi : BasketFileInfo} (h : Allocates chn overwrite dm r) (hbfi : r.1 = some bfi) :
    r.2.bfiCur chn = some bfi := by
  cases h with
  | nothing => cases hbfi
  | new => rw [← hbfi]; exact Function.update_self _ _ _
  | old => rw [← hbfi]; exact Function.update_self _ _ _

end Allocates

section Alloc

variable {chn : Chn} {overwrite : UInt32}

theorem strgBasketOpen_some {dev : Dev} {p : Nat} {bfi : BasketFileInfo}
    (h : (strgBasketOpen dev p).1 = some bfi) : bfi = .fresh p := by
  unfold strgBasketOpen at h
  simp only at h
  split at h
  · exact (Option.some.inj h).symm
  · cases h

theorem allocNew_allocates {l : List Nat} :
    ∀ {dm : DiskMng}, (∀ p ∈ l, p ∈ dm.bgiNew) → Allocates chn overwrite dm (allocNew chn l dm) := by
  induction l with
  | nil => exact fun _ => .nothing .refl rfl
  | cons p rest ih =>
      intro dm hl
      have hrest : ∀ q ∈ rest, q ∈ dm.bgiNew := fun q hq => hl q (List.mem_cons_of_mem _ hq)
      have hopen : DiskSteps (Discarding overwrite) dm (dm.setDev (strgBasketOpen dm.dev p).2) :=
        .single (.wait dm)
      rw [allocNew]
      split
      · next hfits =>
          simp only
          split
          · exact .after hopen rfl (ih hrest)
          · next bfi hbfi =>
              obtain rfl := strgBasketOpen_some hbfi
              exact .new hopen rfl (hl p List.mem_cons_self) hfits
      · exact ih hrest

theorem resetBasket_bgi (dm : DiskMng) (p : Nat) (bfi : BasketFileInfo) :
    (dm.resetBasket p bfi chn overwrite).2.bgi p =
      (dm.bgi p).reset (chnWord chn) dm.dg.useCnt := Function.update_self _ _ _

theorem allocOld_allocates {l : List Nat} :
    ∀ {dm : DiskMng}, (∀ p ∈ l, p ∈ dm.bgiOld) →
      Allocates chn overwrite dm (allocOld chn overwrite l dm) := by
  induction l with
  | nil => exact fun _ => .nothing .refl rfl
  | cons p rest ih =>
      intro dm hl
      have hp : p ∈ dm.bgiOld := hl p List.mem_cons_self
      have hrest : ∀ q ∈ rest, q ∈ dm.bgiOld := fun q hq => hl q (List.mem_cons_of_mem _ hq)
      rw [allocOld]
      split
      · next hover =>
          let opened := dm.setDev (strgBasketOpen dm.dev p).2
          have hopen : DiskSteps (Discarding overwrite) dm opened := .single (.wait dm)
          simp only
          split
          · exact .after hopen rfl (ih hrest)
          · next bfi hbfi =>
              obtain rfl := strgBasketOpen_some hbfi
              split
              · next hret => exact .after (hopen.tail (.discardFail hp hover hret rfl)) rfl (ih hrest)
              · next hret => exact .old hopen rfl hp hover hret
      · exact ih hrest

theorem strgDiskAllocBasket_allocates (dm : DiskMng) (chn : Chn) (overwrite : UInt32) :
    Allocates chn overwrite dm (strgDiskAllocBasket dm chn overwrite) := by
  have hnew : Allocates chn overwrite dm (allocNew chn dm.bgiNew.reverse dm) :=
    allocNew_allocates fun p hp => List.mem_reverse.1 hp
  unfold strgDiskAllocBasket
  simp only
  split
  · next bfi hbfi => rwa [← hbfi]
  · next hnone =>
      have hsteps := hnew.steps (C := Discarding overwrite) (fun _ => rfl)
        (fun hne => absurd hnone hne)
      have hcur : (allocNew chn dm.bgiNew.reverse dm).2.bfiCur = dm.bfiCur := by
        generalize allocNew chn dm.bgiNew.reverse dm = r at hnew hnone
        cases hnew with
        | nothing _ hcur => exact hcur
        | new => cases hnone
        | old => cases hnone
      exact .after hsteps hcur (allocOld_allocates fun _ hp => hp)

end Alloc

/-! ## The operations -/

section Operations

variable {C : Guard → DiskMng → Prop} {chn : Chn} {recordType : RecordType} {overwrite : UInt32}

theorem allocFits_usable {bgi : BasketGlobalInfo} (h : allocFits chn bgi = true) :
    bgi.bg.status &&& useStatusReading = 0 ∧
      bgi.bg.fragmentNum < UInt32.ofNat basketFragmentNum := by
  unfold allocFits at h
  split at h
  · next hcond =>
      have hrest := of_decide_eq_true h
      exact ⟨hcond.2, hrest.2.2.1⟩
  · cases h

/-- A channel is given a basket that nobody reads and that has room for one
more fragment in its table. -/
theorem Allocates.usable {dm : DiskMng} {r : Option BasketFileInfo × DiskMng}
    {bfi : BasketFileInfo} (h : Allocates chn overwrite dm r) (hbfi : r.1 = some bfi) :
    (r.2.bgi bfi.bgi).bg.status &&& useStatusReading = 0 ∧
      (r.2.bgi bfi.bgi).bg.fragmentNum < UInt32.ofNat basketFragmentNum := by
  cases h with
  | nothing => cases hbfi
  | new hsteps hcur h hfits =>
      obtain rfl := Option.some.inj hbfi
      exact allocFits_usable hfits
  | @old d p hsteps hcur h hover hret =>
      obtain rfl := Option.some.inj hbfi
      show ((d.resetBasket p (.fresh p) chn overwrite).2.bgi p).bg.status &&& _ = 0 ∧
        ((d.resetBasket p (.fresh p) chn overwrite).2.bgi p).bg.fragmentNum < _
      rw [resetBasket_bgi]
      exact ⟨UInt32.zero_and, by show (0 : UInt32) < 1024; decide⟩

theorem overwritable_notReading {bgi : BasketGlobalInfo}
    (h : overwritable overwrite bgi = true) : bgi.bg.status &&& useStatusReading = 0 := by
  unfold overwritable at h
  split at h
  · cases h
  · exact of_decide_eq_true h

theorem strgDiskFreeBasket_cur (dm : DiskMng) : (strgDiskFreeBasket dm chn).bfiCur chn = none := by
  unfold strgDiskFreeBasket
  split
  · next h => exact h
  · split <;> exact Function.update_self _ _ _

/-- A start is an allocation and what comes after it, during which the channel
takes further baskets only with its place free. -/
theorem strgDiskWriteStart_alloc {fuel : Nat} :
    ∀ {dm dm' : DiskMng} {r : Int}, (∀ d, C (.discard overwrite) d) →
      (∀ d : DiskMng, d.bfiCur chn = none → C (.take chn) d) →
      strgDiskWriteStart chn recordType overwrite fuel dm = some (r, dm') →
      DiskSteps C (strgDiskAllocBasket dm chn overwrite).2 dm' := by
  induction fuel with
  | zero =>
      intro dm dm' r _ _ h
      cases h
  | succ fuel ih =>
      intro dm dm' r hmask hC h
      have halloc := strgDiskAllocBasket_allocates dm chn overwrite
      rw [strgDiskWriteStart] at h
      simp only at h
      split at h
      · obtain ⟨_, rfl⟩ := Prod.mk.inj (Option.some.inj h)
        exact .refl
      · next bfi hbfi =>
          have hcur := halloc.cur hbfi
          split at h
          · next hret =>
              obtain ⟨_, hfew⟩ := halloc.usable hbfi
              refine .head (.startFail hcur hfew hret) (.head (.free _ chn) ?_)
              refine .trans ?_ (ih hmask hC h)
              exact (strgDiskAllocBasket_allocates _ _ _).steps hmask fun _ d hd =>
                hC d ((congrFun hd chn).trans (strgDiskFreeBasket_cur _))
          · next hret =>
              obtain ⟨_, rfl⟩ := Prod.mk.inj (Option.some.inj h)
              obtain ⟨hread, hfew⟩ := halloc.usable hbfi
              exact .single (.start hcur hfew hread hret)

theorem strgDiskWriteStart_steps {fuel : Nat} {dm dm' : DiskMng} {r : Int}
    (hmask : ∀ d, C (.discard overwrite) d)
    (hC : ∀ d : DiskMng, d.bfiCur chn = none → C (.take chn) d)
    (hfirst : (strgDiskAllocBasket dm chn overwrite).1 ≠ none →
      ∀ d : DiskMng, d.bfiCur = dm.bfiCur → C (.take chn) d)
    (h : strgDiskWriteStart chn recordType overwrite fuel dm = some (r, dm')) :
    DiskSteps C dm dm' :=
  ((strgDiskAllocBasket_allocates dm _ _).steps hmask hfirst).trans
    (strgDiskWriteStart_alloc hmask hC h)

theorem strgDiskWriteStop_steps {dm : DiskMng} (hC : C (.stop chn) dm) :
    DiskSteps C dm (strgDiskWriteStop dm chn) := by
  unfold strgDiskWriteStop
  split
  · exact .refl
  · next bfi hcur =>
      split
      · exact .refl
      · next i hi =>
          exact .tail (.tail (.single (.stop hcur hi hC)) (.clearUpdate _ _)) (.free _ _)

end Operations

/-- What a mounted disk is asked for. -/
inductive DiskOp where
  | writeStart (chn : Chn) (recordType : RecordType) (overwrite : UInt32)
  | write (chn : Chn) (minutes : Int32) (curTime : UInt64) (f : Frame)
  | writeStop (chn : Chn)
  | writeSetType (chn : Chn) (type : RecordType)
  | readStart (q : RecordQueryInfo)
  | readStop (handle : Nat)
  | reset (overwrite : UInt32)

/-- The disk after the operation, if it comes to an end. -/
def DiskOp.Does (dm : DiskMng) : DiskOp → DiskMng → Prop
  | .writeStart chn recordType overwrite, dm' =>
      ∃ fuel r, strgDiskWriteStart chn recordType overwrite fuel dm = some (r, dm')
  | .write chn minutes curTime f, dm' => dm' = (strgDiskWrite dm chn minutes curTime f).2
  | .writeStop chn, dm' => dm' = strgDiskWriteStop dm chn
  | .writeSetType chn type, dm' => dm' = (strgDiskWriteSetType dm chn type).2
  | .readStart q, dm' => dm' = (strgDiskReadStart dm q).2
  | .readStop handle, dm' => dm' = strgDiskReadStop dm handle
  | .reset overwrite, dm' => dm' = (strgDiskReset dm overwrite).2

/-- The operation carried out, a start trying `fuel` times. -/
def DiskOp.exec (fuel : Nat) (dm : DiskMng) : DiskOp → Option DiskMng
  | .writeStart chn recordType overwrite =>
      (strgDiskWriteStart chn recordType overwrite fuel dm).map Prod.snd
  | .write chn minutes curTime f => some (strgDiskWrite dm chn minutes curTime f).2
  | .writeStop chn => some (strgDiskWriteStop dm chn)
  | .writeSetType chn type => some (strgDiskWriteSetType dm chn type).2
  | .readStart q => some (strgDiskReadStart dm q).2
  | .readStop handle => some (strgDiskReadStop dm handle)
  | .reset overwrite => some (strgDiskReset dm overwrite).2

theorem DiskOp.exec_does {fuel : Nat} {dm dm' : DiskMng} {op : DiskOp}
    (h : op.exec fuel dm = some dm') : op.Does dm dm' := by
  cases op with
  | writeStart chn recordType overwrite =>
      obtain ⟨⟨r, d⟩, hstart, rfl⟩ := Option.map_eq_some_iff.1 h
      exact ⟨fuel, r, hstart⟩
  | _ => exact (Option.some.inj h).symm

/-- What `C` has to hold of for the operation. -/
def DiskOp.Grants (C : Guard → DiskMng → Prop) (dm : DiskMng) : DiskOp → Prop
  | .writeStart chn _ overwrite =>
      (∀ d : DiskMng, C (.discard overwrite) d) ∧
        (∀ d : DiskMng, d.bfiCur chn = none → C (.take chn) d) ∧
        ((strgDiskAllocBasket dm chn overwrite).1 ≠ none →
          ∀ d : DiskMng, d.bfiCur = dm.bfiCur → C (.take chn) d)
  | .write chn _ _ _ => C (.write chn) dm
  | .writeStop chn => C (.stop chn) dm
  | .writeSetType chn _ => C (.addType chn) dm
  | .reset _ => C .reset dm
  | _ => True

theorem DiskOp.Does.steps {C : Guard → DiskMng → Prop} {dm dm' : DiskMng} {op : DiskOp}
    (h : op.Does dm dm') (hC : op.Grants C dm) : DiskSteps C dm dm' := by
  cases op with
  | writeStart chn recordType overwrite =>
      obtain ⟨fuel, r, h⟩ := h
      exact strgDiskWriteStart_steps hC.1 hC.2.1 hC.2.2 h
  | write chn minutes curTime f =>
      obtain rfl := h
      exact .single (.write _ _ _ hC)
  | writeStop chn =>
      obtain rfl := h
      exact strgDiskWriteStop_steps hC
  | writeSetType chn type =>
      obtain rfl := h
      exact .single (.setType _ hC)
  | readStart q =>
      obtain rfl := h
      exact .single (.readStart _ _)
  | readStop handle =>
      obtain rfl := h
      exact .single (.readStop _ _)
  | reset overwrite =>
      obtain rfl := h
      exact .single (.reset overwrite hC)

theorem DiskOp.Does.anyhow {dm dm' : DiskMng} {op : DiskOp} (h : op.Does dm dm') :
    DiskSteps Anyhow dm dm' := by
  refine h.steps ?_
  cases op with
  | writeStart => exact ⟨fun _ => trivial, fun _ _ => trivial, fun _ _ _ => trivial⟩
  | _ => trivial

end Nvr.Storage
