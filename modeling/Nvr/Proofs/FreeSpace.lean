import Mathlib.Algebra.Order.BigOperators.Group.List
import Mathlib.Algebra.Order.Group.Int
import Mathlib.Algebra.Order.Group.Nat
import Mathlib.Algebra.Ring.Nat
import Mathlib.Data.Int.Cast.Lemmas
import Nvr.Proofs.BasketLayout
import Nvr.Proofs.Discards

/-!
# The free space of a disk

`free_valid_size` ought to be what the baskets of the current generation leave
of `total_valid_size`. Every frame takes its bytes from it, so it is right as
long as it once was, with these exceptions. Both loaders take off the space that
a basket has free where they ought to take off the space it has used, and the
scan takes off a whole basket for every one that cannot be scanned. A write
goes on taking off when a reset has made the basket one of an older generation.
And `strg_disk_reset` sets the counter before the header of the disk is written,
and leaves it so when that fails.
-/

namespace Nvr.Storage

open Relation

/-- What a basket has used up, if it is of this generation. -/
def BasketGlobalInfo.usedIn (bgi : BasketGlobalInfo) (useCnt : UInt32) : Int :=
  if bgi.bg.useCnt = useCnt then (basketFrameSize : Int) - bgi.freeSpace.toNat else 0

/-- What the loaders take off for a basket. -/
def BasketGlobalInfo.freeIn (bgi : BasketGlobalInfo) (useCnt : UInt32) : Nat :=
  if useCnt = bgi.bg.useCnt then bgi.freeSpace.toNat else 0

namespace DiskMng

/-- The space used in basket `p`, as far as it counts. -/
def usedAt (dm : DiskMng) (p : Nat) : Int := (dm.bgi p).usedIn dm.dg.useCnt

/-- The sum over the baskets of the current generation of what they have used. -/
def usedSize (dm : DiskMng) : Int := (dm.bgiList.map dm.usedAt).sum

/-- The free space is what the baskets leave. -/
def Balanced (dm : DiskMng) : Prop :=
  (dm.freeValidSize.toNat : Int) = dm.totalValidSize.toNat - dm.usedSize

instance (dm : DiskMng) : Decidable dm.Balanced := inferInstanceAs (Decidable (_ = _))

end DiskMng

/-! ## What the loaders find -/

/-- The baskets that `strg_disk_global_open` adds to the disk, from the entries
`basketIdx` on, `n` of them. -/
def openedBaskets : Nat → Nat → Dev → List BasketGlobalInfo
  | 0, _, _ => []
  | n + 1, basketIdx, dev =>
      match strgRead dev .global basketGlobalLen (diskBgOft basketIdx) with
      | none => []
      | some bytes =>
          match BasketGlobal.format.decode bytes with
          | none => openedBaskets n (basketIdx + 1) dev
          | some bg =>
              let opened := openFragments UInt32.size 0 dev
                ((BasketGlobalInfo.alloc basketIdx).vacant bg)
              opened.2 :: openedBaskets n (basketIdx + 1) opened.1

/-- The outcomes of the scans of `n` baskets from `basketIdx` on. -/
def scannedBaskets : Nat → Nat → Dev → List (Option BasketGlobalInfo)
  | 0, _, _ => []
  | n + 1, basketIdx, dev =>
      let scanned := strgBasketScan dev (.alloc basketIdx)
      scanned.1 :: scannedBaskets n (basketIdx + 1) scanned.2

/-- What is taken off the free space for the outcome of a scan. -/
def takenOff (useCnt : UInt32) : Option BasketGlobalInfo → Nat
  | none => basketFrameSize
  | some bgi => bgi.freeIn useCnt

/-- What ought to be taken off. -/
def usedUp (useCnt : UInt32) : Option BasketGlobalInfo → Int
  | none => 0
  | some bgi => bgi.usedIn useCnt

/-- What is found on a disk with this header. -/
def foundBaskets (dev : Dev) (dg : DiskGlobal) : List (Option BasketGlobalInfo) :=
  if dev.store.present .writeFlag then scannedBaskets dg.basketNum.toNatClampNeg 0 dev.wait
  else (openedBaskets dg.basketNum.toNatClampNeg 0 dev.wait).map some

/-- What loading takes off makes up, in sum, what the baskets have used. -/
def LoadsBalanced (dev : Dev) : Prop :=
  ∀ dg, strgDiskReadGlobal dev.wait = some dg →
    (((foundBaskets dev dg).map (takenOff dg.useCnt)).sum : Int) =
      ((foundBaskets dev dg).map (usedUp dg.useCnt)).sum

/-! ## Sums over the baskets -/

theorem usedIn_le (bgi : BasketGlobalInfo) (useCnt : UInt32) :
    bgi.usedIn useCnt ≤ basketFrameSize := by
  unfold BasketGlobalInfo.usedIn
  split <;> omega

theorem neg_lt_usedIn (bgi : BasketGlobalInfo) (useCnt : UInt32) :
    -(2 ^ 32 : Int) < bgi.usedIn useCnt := by
  have hlt := bgi.freeSpace.toNat_lt
  have hframe := basketFrameSize_eq
  unfold BasketGlobalInfo.usedIn
  split <;> omega

theorem sum_map_le {α : Type} {f : α → Int} {b : Int} {l : List α} (h : ∀ a ∈ l, f a ≤ b) :
    (l.map f).sum ≤ l.length * b := by
  have hsum := List.sum_le_card_nsmul (l.map f) b (by simpa using h)
  rwa [List.length_map, nsmul_eq_mul] at hsum

theorem le_sum_map {α : Type} {f : α → Int} {b : Int} {l : List α} (h : ∀ a ∈ l, b ≤ f a) :
    l.length * b ≤ (l.map f).sum := by
  have hsum := List.card_nsmul_le_sum (l.map f) b (by simpa using h)
  rwa [List.length_map, nsmul_eq_mul] at hsum

theorem usedSize_le (dm : DiskMng) : dm.usedSize ≤ dm.bgiList.length * (basketFrameSize : Int) :=
  sum_map_le fun p _ => usedIn_le (dm.bgi p) _

/-- Baskets that have used the same, one by one, have used the same in sum. -/
theorem usedSize_congr {dm dm' : DiskMng} (hlist : dm'.bgiList = dm.bgiList)
    (h : ∀ p ∈ dm.bgiList, dm'.usedAt p = dm.usedAt p) : dm'.usedSize = dm.usedSize := by
  rw [DiskMng.usedSize, hlist, DiskMng.usedSize]
  exact congrArg List.sum (List.map_congr_left h)

/-- One basket of the list has used `n` more. -/
theorem sum_map_add_one {l : List Nat} {f g : Nat → Int} {p : Nat} {n : Int} (hnodup : l.Nodup)
    (hp : p ∈ l) (hself : g p = f p + n) (hother : ∀ q, q ≠ p → g q = f q) :
    (l.map g).sum = (l.map f).sum + n := by
  induction l with
  | nil => cases hp
  | cons q l ih =>
      obtain ⟨hnotMem, hrest⟩ := List.nodup_cons.1 hnodup
      rw [List.map_cons, List.map_cons, List.sum_cons, List.sum_cons]
      by_cases hq : q = p
      · subst hq
        have hsame : l.map g = l.map f :=
          List.map_congr_left fun r hr => hother r fun heq => hnotMem (heq ▸ hr)
        rw [hsame, hself]
        omega
      · have hmem : p ∈ l := (List.mem_cons.1 hp).resolve_left fun heq => hq heq.symm
        rw [ih hrest hmem, hother q hq]
        omega

/-! ## Steps that use no space -/

/-- No frame is written and the disk is not reset. -/
def Quiet : Guard → DiskMng → Prop
  | .write _, _ => False
  | .reset, _ => False
  | _, _ => True

/-- A view of a basket that differs in neither its space nor its generation. -/
structure SameSpace (bgi bgi' : BasketGlobalInfo) : Prop where
  freeSpace : bgi'.freeSpace = bgi.freeSpace
  useCnt : bgi'.bg.useCnt = bgi.bg.useCnt

theorem SameSpace.refl (bgi : BasketGlobalInfo) : SameSpace bgi bgi := ⟨rfl, rfl⟩

theorem SameSpace.usedIn {bgi bgi' : BasketGlobalInfo} (h : SameSpace bgi bgi') (useCnt : UInt32) :
    bgi'.usedIn useCnt = bgi.usedIn useCnt := by
  rw [BasketGlobalInfo.usedIn, h.freeSpace, h.useCnt, BasketGlobalInfo.usedIn]

theorem usedIn_reset (bgi : BasketGlobalInfo) (chn : Int32) (useCnt useCnt' : UInt32) :
    (bgi.reset chn useCnt).usedIn useCnt' = 0 := by
  have hfree : (bgi.reset chn useCnt).freeSpace.toNat = basketFrameSize := by
    show (UInt32.ofNat basketFrameSize).toNat = basketFrameSize
    rw [basketFrameSize_eq]
    rfl
  rw [BasketGlobalInfo.usedIn, hfree]
  split <;> omega

/-- The sizes and the generation stay, and every basket keeps its space or was
an old one and has been reset. -/
structure Levels (dm dm' : DiskMng) : Prop where
  total : dm'.totalValidSize = dm.totalValidSize
  free : dm'.freeValidSize = dm.freeValidSize
  dg : dm'.dg = dm.dg
  space : ∀ q, SameSpace (dm.bgi q) (dm'.bgi q) ∨
    q ∈ dm.bgiOld ∧ ∃ chn, dm'.bgi q = (dm.bgi q).reset chn dm.dg.useCnt

section Step

variable {dm dm' : DiskMng}

theorem levels_of_eq (htotal : dm'.totalValidSize = dm.totalValidSize)
    (hfree : dm'.freeValidSize = dm.freeValidSize) (hdg : dm'.dg = dm.dg)
    (hbgi : dm'.bgi = dm.bgi) : Levels dm dm' :=
  ⟨htotal, hfree, hdg, fun q => .inl (by rw [hbgi]; exact .refl _)⟩

theorem sameSpace_setBgi (dm : DiskMng) {p : Nat} {bgi : BasketGlobalInfo}
    (h : SameSpace (dm.bgi p) bgi) (q : Nat) : SameSpace (dm.bgi q) ((dm.setBgi p bgi).bgi q) := by
  rw [bgi_setBgi_apply]
  split
  · next heq => rwa [heq]
  · exact .refl _

theorem levels_setBgi (dm : DiskMng) {p : Nat} {bgi : BasketGlobalInfo}
    (h : SameSpace (dm.bgi p) bgi) : Levels dm (dm.setBgi p bgi) :=
  ⟨rfl, rfl, rfl, fun q => .inl (sameSpace_setBgi dm h q)⟩

theorem levels_resetBasket {p : Nat} (hp : p ∈ dm.bgiOld) (chn : Chn) (overwrite : UInt32) :
    Levels dm (dm.resetBasket p (.fresh p) chn overwrite).2 := by
  refine ⟨rfl, rfl, rfl, fun q => ?_⟩
  show _ ∨ q ∈ dm.bgiOld ∧ ∃ c, Function.update dm.bgi p _ q = _
  by_cases hq : q = p
  · subst hq
    rw [Function.update_self]
    exact .inr ⟨hp, chnWord chn, rfl⟩
  · refine .inl ?_
    show SameSpace (dm.bgi q) (Function.update dm.bgi p _ q)
    rw [Function.update_of_ne hq]
    exact .refl _

theorem levels_putBasket (dm : DiskMng) (chn : Chn) (bfi : BasketFileInfo) {b : Basket}
    (hfile : b.bfi.bgi = bfi.bgi) (h : SameSpace (dm.bgi bfi.bgi) b.bgi) :
    Levels dm (dm.putBasket chn b) := by
  rw [← hfile] at h
  have hset := levels_setBgi dm h
  exact ⟨hset.total, hset.free, hset.dg, hset.space⟩

theorem strgBasketWriteStart_space (b : Basket) (chn : Int32) (recordType : RecordType) :
    SameSpace b.bgi (strgBasketWriteStart b chn recordType).2.bgi := by
  rcases strgBasketWriteStart_cases b chn recordType with ⟨_, _, hbgi⟩ | ⟨bf, _, _, heq⟩
  · rcases hbgi with hbgi | hbgi
    · rw [hbgi]
      exact .refl _
    · rw [hbgi]
      exact ⟨rfl, rfl⟩
  · rw [heq]
    exact ⟨rfl, rfl⟩

theorem strgBasketWriteStop_space (b : Basket) :
    SameSpace b.bgi (strgBasketWriteStop b).bgi := by
  unfold strgBasketWriteStop
  split
  · exact .refl _
  · exact ⟨rfl, rfl⟩

theorem flagOnce_levels (dm : DiskMng) : Levels dm dm.flagOnce := by
  unfold DiskMng.flagOnce
  split <;> exact levels_of_eq rfl rfl rfl rfl

theorem DiskStep.levels (h : DiskStep Quiet dm dm') : Levels dm dm' := by
  cases h with
  | wait => exact levels_of_eq rfl rfl rfl rfl
  | takeNew => exact levels_of_eq rfl rfl rfl rfl
  | discardFail hp _ _ _ => exact levels_resetBasket hp _ _
  | takeOld hp _ _ _ _ =>
      have hreset := levels_resetBasket hp
      exact ⟨rfl, rfl, rfl, (hreset _ _).space⟩
  | @startFail chn bfi recordType _ _ _ =>
      exact levels_putBasket dm chn bfi (strgBasketWriteStart_keeps (dm.basket bfi) _ _).file
        (strgBasketWriteStart_space (dm.basket bfi) _ _)
  | @start chn bfi recordType _ _ _ _ =>
      have hput := levels_putBasket dm chn bfi
        (strgBasketWriteStart_keeps (dm.basket bfi) (chnWord chn) recordType).file
        (strgBasketWriteStart_space (dm.basket bfi) _ _)
      have hflag := flagOnce_levels (dm.putBasket chn
        (strgBasketWriteStart (dm.basket bfi) (chnWord chn) recordType).2)
      refine ⟨hflag.total.trans hput.total, hflag.free.trans hput.free, hflag.dg.trans hput.dg,
        fun q => ?_⟩
      rw [DiskMng.recordStart, DiskMng.writeEntry, DiskMng.bgi_setDev, bgi_flagOnce]
      exact hput.space q
  | write _ _ _ hC => exact hC.elim
  | @stop chn bfi i _ _ _ =>
      have hput := levels_putBasket dm chn bfi
        (strgBasketWriteStop_keeps (dm.basket bfi)).file (strgBasketWriteStop_space (dm.basket bfi))
      exact ⟨hput.total, hput.free, hput.dg, hput.space⟩
  | clearUpdate p => exact levels_setBgi dm ⟨rfl, rfl⟩
  | free chn =>
      unfold strgDiskFreeBasket
      split
      · exact levels_of_eq rfl rfl rfl rfl
      · split <;> exact levels_of_eq rfl rfl rfl rfl
  | setType type =>
      unfold strgDiskWriteSetType
      split
      · exact levels_of_eq rfl rfl rfl rfl
      · split
        · exact levels_of_eq rfl rfl rfl rfl
        · simp only
          split
          · next bfi _ _ i _ _ =>
              have hspace : SameSpace (dm.bgi bfi.bgi) ((dm.bgi bfi.bgi).addType i type) :=
                ⟨rfl, rfl⟩
              have hset := levels_setBgi dm hspace
              exact ⟨hset.total, hset.free, hset.dg, hset.space⟩
          · exact levels_of_eq rfl rfl rfl rfl
  | readStart q =>
      rcases strgDiskReadStart_cases dm q with ⟨dev, heq⟩ | ⟨p, _, dev, bri, _, heq⟩
      · rw [heq]
        exact levels_of_eq rfl rfl rfl rfl
      · rw [heq]
        have hspace : SameSpace (dm.bgi p) (dm.bgi p).addReader := ⟨rfl, rfl⟩
        have hset := levels_setBgi dm hspace
        exact ⟨hset.total, hset.free, hset.dg, hset.space⟩
  | readStop handle =>
      unfold strgDiskReadStop
      split
      · exact levels_of_eq rfl rfl rfl rfl
      · next x _ =>
          have hspace : SameSpace (dm.bgi x.2.bgi) (strgBasketReadStop (dm.bgi x.2.bgi)) := by
            rw [strgBasketReadStop, BasketGlobalInfo.dropReader]
            simp only
            split <;> exact ⟨rfl, rfl⟩
          have hset := levels_setBgi dm hspace
          exact ⟨hset.total, hset.free, hset.dg, hset.space⟩
  | reset _ hC => exact hC.elim

end Step

/-! ## What is kept -/

/-- The free space is right, and what has to be known for it to stay so. -/
structure Accounted (dm : DiskMng) : Prop where
  balanced : dm.Balanced
  once : AtMostOnce dm
  known : Known dm
  nodup : dm.bgiList.Nodup
  room : dm.bgiList.length * basketFrameSize ≤ dm.totalValidSize.toNat
  old : ∀ p ∈ dm.bgiOld, dm.usedAt p = 0

/-- What keeps the free space right: a frame that is taken goes to a basket of
the current generation; and a reset that finds something to reset either can
write the header, and then no basket has used anything in the generation to
come, or it cannot, and then none has in this one. -/
def DiskOp.KeepsSpace (dm : DiskMng) : DiskOp → Prop
  | .write chn minutes curTime f =>
      ∀ bfi, dm.bfiCur chn = some bfi → 0 < (strgBasketWrite (dm.basket bfi) minutes curTime f).1 →
        (dm.bgi bfi.bgi).bg.useCnt = dm.dg.useCnt
  | .reset overwrite =>
      (∃ p ∈ dm.bgiNew, resetFinds overwrite (dm.bgi p) = true) →
        if (strgDiskWriteGlobal dm.dev { dm.dg with useCnt := dm.dg.useCnt + 1 }).1 then
          ∀ p ∈ dm.bgiList, (dm.bgi p).usedIn (dm.dg.useCnt + 1) = 0
        else dm.usedSize = 0
  | _ => True

section Kept

variable {dm dm' : DiskMng}

theorem Accounted.mem_list (h : Accounted dm) {p : Nat} (hp : p ∈ dm.bgiOld) : p ∈ dm.bgiList := by
  refine h.known.places p ?_
  rw [DiskMng.places]
  have := List.count_pos_iff.2 hp
  omega

theorem Accounted.levels (h : Accounted dm) (hlevels : Levels dm dm') (honce : AtMostOnce dm')
    (hknown : Known dm') (hlist : dm'.bgiList = dm.bgiList)
    (hold : ∀ p ∈ dm'.bgiOld, p ∈ dm.bgiOld ∨ dm'.usedAt p = 0) : Accounted dm' := by
  have hused : ∀ q, dm'.usedAt q = dm.usedAt q := by
    intro q
    rw [DiskMng.usedAt, hlevels.dg]
    rcases hlevels.space q with hsame | ⟨hmem, chn, hreset⟩
    · exact hsame.usedIn _
    · rw [hreset, usedIn_reset, h.old q hmem]
  have hsize : dm'.usedSize = dm.usedSize := usedSize_congr hlist fun q _ => hused q
  refine ⟨?_, honce, hknown, ?_, ?_, fun p hp => ?_⟩
  · rw [DiskMng.Balanced, hlevels.free, hlevels.total, hsize]
    exact h.balanced
  · rw [hlist]
    exact h.nodup
  · rw [hlist, hlevels.total]
    exact h.room
  · rcases hold p hp with hmem | hzero
    · rw [hused]
      exact h.old p hmem
    · exact hzero

theorem Accounted.quiet (h : Accounted dm) (hstep : DiskStep Quiet dm dm') : Accounted dm' := by
  refine h.levels hstep.levels (h.once.step hstep) (h.known.steps (.single hstep)) hstep.bgiList
    fun p hp => ?_
  cases hstep.moves with
  | stays hs _ => exact .inl (hs.bgiOld ▸ hp)
  | takeNew => exact .inl hp
  | discardFail => exact .inl hp
  | takeOld => exact .inl (List.mem_of_mem_erase hp)
  | free chn =>
      revert hp
      unfold strgDiskFreeBasket
      split
      · exact .inl
      · split
        · exact .inl
        · next hne =>
            intro hp
            rcases (List.mem_orderedInsert _).1 hp with rfl | hp
            · exact .inr (if_neg hne)
            · exact .inl hp
  | nextGeneration hC => exact hC.elim

/-- `n` bytes are taken from the free space and from basket `p`. -/
structure Spends (dm : DiskMng) (p : Nat) (n : UInt64) (dm' : DiskMng) : Prop where
  total : dm'.totalValidSize = dm.totalValidSize
  free : dm'.freeValidSize = dm.freeValidSize - n
  self : dm'.usedAt p = dm.usedAt p + n.toNat
  other : ∀ q, q ≠ p → dm'.usedAt q = dm.usedAt q

/-- A write either uses no space or takes a frame, and then as much from the
free space of the disk as from that of the basket. -/
theorem strgDiskWrite_space (dm : DiskMng) (chn : Chn) (minutes : Int32) (curTime : UInt64)
    (f : Frame) :
    Levels dm (strgDiskWrite dm chn minutes curTime f).2 ∨
      ∃ bfi, dm.bfiCur chn = some bfi ∧ 0 < (strgBasketWrite (dm.basket bfi) minutes curTime f).1 ∧
        ((dm.bgi bfi.bgi).bg.useCnt = dm.dg.useCnt →
          Spends dm bfi.bgi (UInt32.ofNat basketFrameLen + f.size).toUInt64
            (strgDiskWrite dm chn minutes curTime f).2) := by
  unfold strgDiskWrite
  split
  · exact .inl (levels_of_eq rfl rfl rfl rfl)
  · next bfi hcur =>
      have hfile := (strgBasketWrite_keeps (dm.basket bfi) minutes curTime f).file
      rcases strgBasketWrite_cases (dm.basket bfi) minutes curTime f with
        ⟨hret, hbgi, _⟩ | ⟨i, haccepts, heq⟩
      · refine .inl ?_
        simp only
        rw [if_neg (by omega)]
        refine levels_putBasket dm chn bfi hfile ?_
        rcases hbgi with hbgi | hbgi
        · rw [hbgi]
          exact .refl _
        · rw [hbgi]
          exact ⟨rfl, rfl⟩
      · have hret : 0 < (strgBasketWrite (dm.basket bfi) minutes curTime f).1 := by
          rw [heq]
          exact Int.natCast_pos.2 (List.length_pos_iff.2 haccepts.nonempty)
        have hbgi : (strgBasketWrite (dm.basket bfi) minutes curTime f).2.bgi =
            (dm.bgi bfi.bgi).takeFrame i (secOf curTime) f := by rw [heq]; rfl
        have hspace : ((dm.bgi bfi.bgi).takeFrame i (secOf curTime) f).freeSpace.toNat +
            (basketFrameLen + f.data.length) = (dm.bgi bfi.bgi).freeSpace.toNat :=
          takeFrame_freeSpace haccepts.frameRoom i (secOf curTime)
        refine .inr ⟨bfi, hcur, hret, fun hcurrent => ?_⟩
        simp only
        rw [if_pos hret]
        generalize strgBasketWrite (dm.basket bfi) minutes curTime f = r at hfile hbgi
        refine ⟨rfl, rfl, ?_, fun q hq => ?_⟩
        · show (Function.update dm.bgi r.2.bfi.bgi r.2.bgi bfi.bgi).usedIn dm.dg.useCnt = _
          rw [hfile]
          show (Function.update dm.bgi bfi.bgi r.2.bgi bfi.bgi).usedIn dm.dg.useCnt = _
          have hself : ((dm.bgi bfi.bgi).takeFrame i (secOf curTime) f).usedIn dm.dg.useCnt =
              basketFrameSize - ((dm.bgi bfi.bgi).takeFrame i (secOf curTime) f).freeSpace.toNat :=
            if_pos hcurrent
          have hbefore : dm.usedAt bfi.bgi = basketFrameSize - (dm.bgi bfi.bgi).freeSpace.toNat :=
            if_pos hcurrent
          rw [Function.update_self, hbgi, hself, hbefore, UInt32.toNat_toUInt64, toNat_frameLen_add]
          omega
        · exact congrArg (BasketGlobalInfo.usedIn · dm.dg.useCnt)
            (Function.update_of_ne (hfile ▸ hq) _ _)

theorem Accounted.spends (h : Accounted dm) {p : Nat} {n : UInt64} (hspends : Spends dm p n dm')
    (honce : AtMostOnce dm') (hknown : Known dm') (hlist : dm'.bgiList = dm.bgiList)
    (hold : dm'.bgiOld = dm.bgiOld) (hmem : p ∈ dm.bgiList) (hnot : p ∉ dm.bgiOld) :
    Accounted dm' := by
  have hsum : dm'.usedSize = dm.usedSize + n.toNat := by
    rw [DiskMng.usedSize, hlist]
    exact sum_map_add_one h.nodup hmem hspends.self hspends.other
  have hroom : (dm.bgiList.length : Int) * basketFrameSize ≤ dm.totalValidSize.toNat := by
    exact_mod_cast h.room
  have hle := usedSize_le dm'
  have hbalanced := h.balanced
  rw [hlist] at hle
  rw [DiskMng.Balanced] at hbalanced
  refine ⟨?_, honce, hknown, ?_, ?_, fun q hq => ?_⟩
  · have henough : n.toNat ≤ dm.freeValidSize.toNat := by omega
    rw [DiskMng.Balanced, hspends.free, hspends.total,
      UInt64.toNat_sub_of_le _ _ (UInt64.le_iff_toNat_le.2 henough)]
    omega
  · rw [hlist]
    exact h.nodup
  · rw [hlist, hspends.total]
    exact h.room
  · rw [hold] at hq
    have hne : q ≠ p := fun heq => hnot (heq ▸ hq)
    rw [hspends.other q hne]
    exact h.old q hq

theorem Accounted.write (h : Accounted dm) {chn : Chn} {minutes : Int32} {curTime : UInt64}
    {f : Frame} (hkeeps : DiskOp.KeepsSpace dm (.write chn minutes curTime f)) :
    Accounted (strgDiskWrite dm chn minutes curTime f).2 := by
  have hstep : DiskStep Anyhow dm (strgDiskWrite dm chn minutes curTime f).2 :=
    .write minutes curTime f trivial
  have honce := h.once.step hstep
  have hknown := h.known.steps (.single hstep)
  have hidles := idles_strgDiskWrite dm chn minutes curTime f
  rcases strgDiskWrite_space dm chn minutes curTime f with hlevels | ⟨bfi, hcur, hret, hspends⟩
  · exact h.levels hlevels honce hknown hidles.bgiList fun p hp => .inl (hidles.bgiOld ▸ hp)
  · have hslot : dm.slot chn = some bfi.bgi := by rw [DiskMng.slot, hcur, Option.map_some]
    have hmem : bfi.bgi ∈ dm.bgiList := by
      refine h.known.places bfi.bgi ?_
      have hpos : 0 < Custody.slotCount dm.slot bfi.bgi := Custody.slotCount_pos.2 ⟨chn, hslot⟩
      rw [DiskMng.places]
      omega
    exact h.spends (hspends (hkeeps bfi hcur hret)) honce hknown hidles.bgiList hidles.bgiOld hmem
      fun hold => h.once.notMem_slot hold chn hslot

/-- Where no basket has used anything, the whole disk is free. -/
theorem balanced_of_empty (hsize : dm.usedSize = 0) (hfree : dm.freeValidSize = dm.totalValidSize) :
    dm.Balanced := by
  rw [DiskMng.Balanced, hsize, hfree]
  omega

theorem Accounted.reset (h : Accounted dm) {overwrite : UInt32}
    (hkeeps : DiskOp.KeepsSpace dm (.reset overwrite)) :
    Accounted (strgDiskReset dm overwrite).2 ∧
      ((strgDiskReset dm overwrite).1 = -1 →
        (strgDiskReset dm overwrite).2.freeValidSize = dm.freeValidSize) := by
  have hstep : DiskStep Anyhow dm (strgDiskReset dm overwrite).2 := .reset overwrite trivial
  have honce := h.once.step hstep
  have hknown := h.known.steps (.single hstep)
  have hlist := hstep.bgiList
  revert honce hknown hlist
  unfold strgDiskReset
  split
  · next hfinds =>
      have hkeeps := hkeeps (by simpa using hfinds)
      simp only
      split
      · next hglobal =>
          rw [if_pos hglobal] at hkeeps
          intro honce hknown _
          refine ⟨⟨balanced_of_empty ?_ rfl, honce, hknown, h.nodup, h.room, fun p hp => ?_⟩,
            fun hret => absurd (show (0 : Int) = -1 from hret) (by decide)⟩
          · exact List.sum_eq_zero fun n hn => by
              obtain ⟨p, hp, rfl⟩ := List.mem_map.1 hn
              exact hkeeps p hp
          · refine hkeeps p (h.known.places p ?_)
            rw [DiskMng.places]
            rcases List.mem_append.1 hp with hp | hp
            · have := List.count_pos_iff.2 hp
              omega
            · have := List.count_pos_iff.2 hp
              omega
      · next hglobal =>
          rw [if_neg hglobal] at hkeeps
          intro honce hknown _
          have hcnt : dm.dg.useCnt + 1 - 1 = dm.dg.useCnt := by simp
          have hfree : dm.totalValidSize = dm.freeValidSize := by
            have hbalanced := h.balanced
            rw [DiskMng.Balanced, hkeeps] at hbalanced
            exact UInt64.toNat_inj.1 (by omega)
          have hused : ∀ p, (dm.bgi p).usedIn (dm.dg.useCnt + 1 - 1) = dm.usedAt p := by
            intro p
            rw [hcnt, DiskMng.usedAt]
          refine ⟨⟨balanced_of_empty ?_ rfl, honce, hknown, h.nodup, h.room, fun p hp => ?_⟩,
            fun _ => hfree⟩
          · exact (congrArg List.sum (List.map_congr_left fun p _ => hused p)).trans hkeeps
          · exact (hused p).trans (h.old p hp)
  · exact fun _ _ _ => ⟨h, fun _ => rfl⟩

/-- Each operation on a disk keeps its free space right, if it meets the
condition. -/
theorem DiskOp.Does.accounted {op : DiskOp} (h : op.Does dm dm') (hkeeps : op.KeepsSpace dm)
    (hdm : Accounted dm) : Accounted dm' := by
  have hquiet : op.Grants Quiet dm → Accounted dm' := fun hgrants =>
    (h.steps hgrants).invariant (I := Accounted) (fun hstep hd => hd.quiet hstep) hdm
  cases op with
  | write chn minutes curTime f =>
      obtain rfl := h
      exact hdm.write hkeeps
  | reset overwrite =>
      obtain rfl := h
      exact (hdm.reset hkeeps).1
  | writeStart => exact hquiet ⟨fun _ => trivial, fun _ _ => trivial, fun _ _ _ => trivial⟩
  | _ => exact hquiet trivial

end Kept

/-! ## Loading -/

/-- The baskets `found` have been loaded onto a disk. -/
structure Loads (dm : DiskMng) (found : List (Option BasketGlobalInfo)) (dm' : DiskMng) : Prop where
  total : dm'.totalValidSize = dm.totalValidSize
  dg : dm'.dg = dm.dg
  free : dm'.freeValidSize =
    dm.freeValidSize - UInt64.ofNat (found.map (takenOff dm.dg.useCnt)).sum
  used : dm'.usedSize = dm.usedSize + (found.map (usedUp dm.dg.useCnt)).sum
  length : dm'.bgiList.length ≤ dm.bgiList.length + found.length

section Load

variable {dm dm' dm'' : DiskMng}

theorem Loads.refl (dm : DiskMng) : Loads dm [] dm :=
  ⟨rfl, rfl, by simp, by simp, le_rfl⟩

theorem Loads.cons {b : Option BasketGlobalInfo} {found : List (Option BasketGlobalInfo)}
    (h : Loads dm [b] dm') (h' : Loads dm' found dm'') : Loads dm (b :: found) dm'' where
  total := h'.total.trans h.total
  dg := h'.dg.trans h.dg
  free := by
    rw [h'.free, h.free, h.dg, List.map_cons, List.map_cons, List.sum_cons, List.sum_cons,
      List.map_nil, List.sum_nil, Nat.add_zero, UInt64.ofNat_add]
    grind
  used := by
    rw [h'.used, h.used, h.dg]
    simp only [List.map_cons, List.map_nil, List.sum_cons, List.sum_nil]
    omega
  length := by
    have hfirst := h.length
    have hrest := h'.length
    simp only [List.length_cons, List.length_nil] at hfirst ⊢
    omega

/-- A basket that cannot be scanned. -/
theorem loads_none (dm : DiskMng) (dev : Dev) :
    Loads dm [none] { dm.setDev dev with
      freeValidSize := dm.freeValidSize - UInt64.ofNat basketFrameSize } :=
  ⟨rfl, rfl, by rw [List.map_singleton, List.sum_singleton, takenOff],
    (add_zero dm.usedSize).symm, Nat.le_succ _⟩

theorem addBasket_loads {bgi : BasketGlobalInfo}
    (hnew : bgi.basketIdx ∉ dm.bgiList) (dev : Dev) :
    Loads dm [some bgi] ((dm.setDev dev).addBasket bgi) := by
  have hsize : ((dm.bgiList ++ [bgi.basketIdx]).map fun p =>
      (Function.update dm.bgi bgi.basketIdx bgi p).usedIn dm.dg.useCnt).sum =
        dm.usedSize + bgi.usedIn dm.dg.useCnt := by
    have hother : dm.bgiList.map (fun p =>
        (Function.update dm.bgi bgi.basketIdx bgi p).usedIn dm.dg.useCnt) =
          dm.bgiList.map dm.usedAt := by
      refine List.map_congr_left fun p hp => ?_
      have hne : p ≠ bgi.basketIdx := fun heq => hnew (heq ▸ hp)
      rw [Function.update_of_ne hne, DiskMng.usedAt]
    rw [List.map_append, List.sum_append, hother, List.map_singleton, List.sum_singleton,
      Function.update_self, DiskMng.usedSize]
  have hlen : (dm.bgiList ++ [bgi.basketIdx]).length ≤ dm.bgiList.length + 1 := by simp
  unfold DiskMng.addBasket
  simp only
  split
  · next hcurrent =>
      refine ⟨rfl, rfl, ?_, ?_, hlen⟩
      · show dm.freeValidSize - bgi.freeSpace.toUInt64 = _
        have hcurrent : dm.dg.useCnt = bgi.bg.useCnt := hcurrent
        simp [takenOff, BasketGlobalInfo.freeIn, hcurrent]
      · exact hsize.trans (by simp [usedUp])
  · next hcurrent =>
      refine ⟨rfl, rfl, ?_, ?_, hlen⟩
      · show dm.freeValidSize = _
        have hcurrent : ¬dm.dg.useCnt = bgi.bg.useCnt := hcurrent
        simp [takenOff, BasketGlobalInfo.freeIn, hcurrent]
      · exact hsize.trans (by simp [usedUp])

theorem LoadedTo.notMem {k : Nat} (h : LoadedTo k dm) {bgi : BasketGlobalInfo}
    (hsame : SameBasket (.alloc k) bgi) : bgi.basketIdx ∉ dm.bgiList := fun hmem => by
  have hlt := h.below _ hmem
  have hindex : bgi.basketIdx = k := hsame.index
  omega

theorem openBaskets_loads (n : Nat) : ∀ {k : Nat} {dm : DiskMng}, LoadedTo k dm →
    Loads dm ((openedBaskets n k dm.dev).map some) (openBaskets n k dm) := by
  induction n with
  | zero => exact fun _ => .refl _
  | succ n ih =>
      intro k dm h
      rw [openBaskets, openedBaskets]
      cases strgRead dm.dev .global basketGlobalLen (diskBgOft k) with
      | none => exact .refl _
      | some bytes =>
        cases hbg : BasketGlobal.format.decode bytes with
        | none =>
            simp only [hbg]
            exact ih h.skip
        | some bg =>
            simp only [hbg]
            have hvacant : SameBasket (.alloc k) ((BasketGlobalInfo.alloc k).vacant bg) := ⟨rfl, rfl⟩
            have hsame := hvacant.trans
              (openFragments_same UInt32.size 0 dm.dev ((BasketGlobalInfo.alloc k).vacant bg))
            generalize openFragments UInt32.size 0 dm.dev ((BasketGlobalInfo.alloc k).vacant bg) =
              opened at hsame
            have hrest := ih (LoadedTo.addBasket (h.setDev opened.1) hsame)
            rw [addBasket_dev, DiskMng.dev_setDev] at hrest
            exact (addBasket_loads (h.notMem hsame) _).cons hrest

theorem scanBaskets_loads (n : Nat) : ∀ {k : Nat} {dm : DiskMng}, LoadedTo k dm →
    Loads dm (scannedBaskets n k dm.dev) (scanBaskets n k dm) := by
  induction n with
  | zero => exact fun _ => .refl _
  | succ n ih =>
      intro k dm h
      rw [scanBaskets, scannedBaskets]
      cases hscan : (strgBasketScan dm.dev (.alloc k)).1 with
      | none =>
          simp only
          refine (loads_none dm _).cons (ih (LoadedTo.skip ⟨?_, h.below⟩))
          exact ⟨h.loaded.idle, h.loaded.noReader, h.loaded.noDiscard, h.loaded.nodup,
            h.loaded.index, h.loaded.readRef, h.loaded.new, h.loaded.old⟩
      | some bgi =>
          simp only
          have hsame := strgBasketScan_same hscan
          have hrest := ih (LoadedTo.addBasket (h.setDev (strgBasketScan dm.dev (.alloc k)).2) hsame)
          rw [addBasket_dev, DiskMng.dev_setDev] at hrest
          exact (addBasket_loads (h.notMem hsame) _).cons hrest

/-- The entries that a scan has left to write change nothing of it. -/
theorem Loads.writeBasket {found : List (Option BasketGlobalInfo)} (h : Loads dm found dm')
    (p : Nat) : Loads dm found (dm'.writeBasket p) := by
  unfold DiskMng.writeBasket
  split
  · refine ⟨h.total, h.dg, h.free, Eq.trans (@usedSize_congr dm' _ rfl fun q _ => ?_) h.used,
      h.length⟩
    have hidle : SameSpace (dm'.bgi p) (dm'.bgi p).idle := ⟨rfl, rfl⟩
    exact (sameSpace_setBgi dm' hidle q).usedIn dm'.dg.useCnt
  · exact h

theorem strgDiskOpen_loads {diskIdx : Int32} {dev : Dev}
    (h : (strgDiskOpen diskIdx dev).1 = some dm) :
    ∃ dg, strgDiskReadGlobal dev.wait = some dg ∧
      Loads (.empty diskIdx dev.wait dg) (foundBaskets dev dg) dm := by
  have hglobal : ∀ {d : DiskMng}, (openGlobal diskIdx dev).1 = some d →
      ∃ dg, strgDiskReadGlobal dev.wait = some dg ∧ d = .empty diskIdx dev.wait dg := by
    intro d hd
    unfold openGlobal at hd
    split at hd
    · split at hd
      · cases hd
      · next dg hdg => exact ⟨dg, hdg, (Option.some.inj hd).symm⟩
    · cases hd
  unfold strgDiskOpen at h
  unfold foundBaskets
  split at h
  · split at h
    · next hflag =>
        simp only [if_pos hflag]
        split at h
        · cases h
        · next d dev' hscan =>
            obtain rfl := Option.some.inj h
            unfold strgDiskGlobalScan at hscan
            split at hscan
            · cases hscan
            · next d' dev'' hopen =>
                obtain rfl := Option.some.inj (Prod.mk.inj hscan).1
                obtain ⟨dg, hdg, rfl⟩ := hglobal (congrArg Prod.fst hopen)
                refine ⟨dg, hdg, ?_⟩
                have hloads := scanBaskets_loads dg.basketNum.toNatClampNeg
                  (openGlobal_loaded (congrArg Prod.fst hopen))
                have hwrite : Loads (.empty diskIdx dev.wait dg) _ (strgDiskGlobalWrite _) :=
                  List.foldlRecOn (motive := fun d => Loads (.empty diskIdx dev.wait dg) _ d)
                    _ _ hloads fun d hd p _ => hd.writeBasket p
                exact ⟨hwrite.total, hwrite.dg, hwrite.free, hwrite.used, hwrite.length⟩
    · next hflag =>
        simp only [if_neg hflag]
        unfold strgDiskGlobalOpen at h
        split at h
        · cases h
        · next d' dev'' hopen =>
            obtain rfl := Option.some.inj h
            obtain ⟨dg, hdg, rfl⟩ := hglobal (congrArg Prod.fst hopen)
            exact ⟨dg, hdg, openBaskets_loads dg.basketNum.toNatClampNeg
              (openGlobal_loaded (congrArg Prod.fst hopen))⟩
  · cases h

end Load

/-! ## The size of the disk -/

/-- The size is that of the baskets, of which there are none if the header says
a negative number. -/
theorem totalValidSize_ge (diskIdx : Int32) (dev : Dev) (dg : DiskGlobal) :
    dg.basketNum.toNatClampNeg * basketFrameSize ≤
      (DiskMng.empty diskIdx dev dg).totalValidSize.toNat := by
  show _ ≤ (dg.basketNum.toInt64.toUInt64 * UInt64.ofNat basketFrameSize).toNat
  by_cases hnum : dg.basketNum ≤ 0
  · rw [Int32.toNatClampNeg_eq_zero_iff.2 hnum, Nat.zero_mul]
    exact Nat.zero_le _
  · have hpos : (0 : Int64) ≤ dg.basketNum.toInt64 := by
      have hlt := Int32.le_of_lt (Int32.not_le.1 hnum)
      exact Int32.toInt64_le.2 hlt
    have hlt := dg.basketNum.toNatClampNeg_lt
    have hframe : (UInt64.ofNat basketFrameSize).toNat = basketFrameSize := by
      rw [basketFrameSize_eq]
      rfl
    have hsmall := basketFrameSize_eq
    rw [UInt64.toNat_mul, Int64.toNat_toUInt64_of_le hpos, Int32.toNatClampNeg_toInt64, hframe,
      Nat.mod_eq_of_lt]
    rw [hsmall]
    omega

theorem takenOff_le (useCnt : UInt32) (b : Option BasketGlobalInfo) : takenOff useCnt b ≤ 2 ^ 32 := by
  have hframe := basketFrameSize_eq
  cases b with
  | none =>
      rw [takenOff, hframe]
      decide
  | some bgi =>
      have hlt := bgi.freeSpace.toNat_lt
      rw [takenOff, BasketGlobalInfo.freeIn]
      split <;> omega

theorem neg_le_usedUp (useCnt : UInt32) (b : Option BasketGlobalInfo) :
    -(2 ^ 32 : Int) ≤ usedUp useCnt b := by
  cases b with
  | none => exact Int.neg_nonpos_of_nonneg (by decide)
  | some bgi => exact Int.le_of_lt (neg_lt_usedIn bgi useCnt)

/-- A load that takes off what the baskets have used, in sum, leaves the free
space right, and no other does. -/
theorem Loads.balanced_iff {diskIdx : Int32} {dev : Dev} {dg : DiskGlobal} {dm : DiskMng}
    {found : List (Option BasketGlobalInfo)} (h : Loads (.empty diskIdx dev dg) found dm)
    (hfound : found.length ≤ dg.basketNum.toNatClampNeg) :
    dm.Balanced ↔ ((found.map (takenOff dg.useCnt)).sum : Int) =
      (found.map (usedUp dg.useCnt)).sum := by
  have htotal := totalValidSize_ge diskIdx dev dg
  have hnum := dg.basketNum.toNatClampNeg_lt
  have hused : dm.usedSize = (found.map (usedUp dg.useCnt)).sum := by
    rw [h.used]
    exact zero_add _
  have hfree : dm.freeValidSize = (DiskMng.empty diskIdx dev dg).totalValidSize -
      UInt64.ofNat (found.map (takenOff dg.useCnt)).sum := h.free
  have hlength : dm.bgiList.length ≤ found.length := by simpa [DiskMng.empty] using h.length
  -- both sums are too small for the difference to be 2 ^ 64
  have hoff : ((found.map (takenOff dg.useCnt)).sum : Int) ≤ found.length * 2 ^ 32 := by
    have hsum := List.sum_le_card_nsmul (found.map (takenOff dg.useCnt)) (2 ^ 32)
      (by simpa using fun b _ => takenOff_le dg.useCnt b)
    rw [List.length_map, nsmul_eq_mul, Nat.cast_id] at hsum
    exact_mod_cast hsum
  have hneg : (found.length : Int) * -(2 ^ 32) ≤ (found.map (usedUp dg.useCnt)).sum :=
    le_sum_map fun b _ => neg_le_usedUp dg.useCnt b
  have hle : (found.map (usedUp dg.useCnt)).sum ≤
      ((DiskMng.empty diskIdx dev dg).totalValidSize.toNat : Int) := by
    rw [← hused]
    refine (usedSize_le dm).trans ?_
    exact_mod_cast (Nat.mul_le_mul_right _ (hlength.trans hfound)).trans htotal
  rw [DiskMng.Balanced, hused, hfree, h.total, UInt64.toNat_sub, UInt64.toNat_ofNat']
  have hlt := (DiskMng.empty diskIdx dev dg).totalValidSize.toNat_lt
  generalize (found.map (takenOff dg.useCnt)).sum = off at *
  generalize (found.map (usedUp dg.useCnt)).sum = used at *
  generalize (DiskMng.empty diskIdx dev dg).totalValidSize.toNat = total at *
  omega

/-! ## Whole runs -/

theorem openedBaskets_length (n : Nat) :
    ∀ (k : Nat) (dev : Dev), (openedBaskets n k dev).length ≤ n := by
  induction n with
  | zero => exact fun _ _ => le_rfl
  | succ n ih =>
      intro k dev
      rw [openedBaskets]
      split
      · exact Nat.zero_le _
      · split
        · exact (ih _ _).trans (Nat.le_succ n)
        · exact Nat.succ_le_succ (ih _ _)

theorem scannedBaskets_length (n : Nat) :
    ∀ (k : Nat) (dev : Dev), (scannedBaskets n k dev).length = n := by
  induction n with
  | zero => exact fun _ _ => rfl
  | succ n ih =>
      intro k dev
      rw [scannedBaskets]
      exact congrArg Nat.succ (ih _ _)

theorem foundBaskets_length (dev : Dev) (dg : DiskGlobal) :
    (foundBaskets dev dg).length ≤ dg.basketNum.toNatClampNeg := by
  unfold foundBaskets
  split
  · exact (scannedBaskets_length _ _ _).le
  · rw [List.length_map]
    exact openedBaskets_length _ _ _

section Open

variable {diskIdx : Int32} {dev : Dev} {dm : DiskMng}

theorem strgDiskOpen_balanced (h : (strgDiskOpen diskIdx dev).1 = some dm) :
    dm.Balanced ↔ LoadsBalanced dev := by
  obtain ⟨dg, hdg, hloads⟩ := strgDiskOpen_loads h
  rw [hloads.balanced_iff (foundBaskets_length dev dg)]
  refine ⟨fun heq dg' hdg' => ?_, fun hload => hload dg hdg⟩
  rw [hdg] at hdg'
  obtain rfl := Option.some.inj hdg'
  exact heq

theorem strgDiskOpen_accounted (h : (strgDiskOpen diskIdx dev).1 = some dm)
    (hload : LoadsBalanced dev) : Accounted dm := by
  have hloaded := strgDiskOpen_loaded h
  obtain ⟨dg, _, hloads⟩ := strgDiskOpen_loads h
  refine ⟨(strgDiskOpen_balanced h).2 hload, hloaded.atMostOnce, hloaded.known, hloaded.nodup, ?_,
    fun p hp => ?_⟩
  · rw [hloads.total]
    refine (Nat.mul_le_mul_right _ ?_).trans (totalValidSize_ge diskIdx dev.wait dg)
    refine Nat.le_trans ?_ (foundBaskets_length dev dg)
    simpa [DiskMng.empty] using hloads.length
  · rw [hloaded.old] at hp
    exact if_neg (of_decide_eq_true (List.mem_filter.1 hp).2)

/-- The free space of a disk is right when it has been opened if and only if the
load takes off, in sum, what the baskets have used. From there on it stays right
in every run whose operations meet their condition, and so does a reset that
fails leave it alone. -/
theorem balanced_of_keepsSpace (h : (strgDiskOpen diskIdx dev).1 = some dm) :
    (dm.Balanced ↔ LoadsBalanced dev) ∧
      (LoadsBalanced dev → ∀ ops dm', Run (Restrict DiskOp.Does DiskOp.KeepsSpace) dm ops dm' →
        dm'.Balanced ∧
          ∀ overwrite, DiskOp.KeepsSpace dm' (.reset overwrite) →
            (strgDiskReset dm' overwrite).1 = -1 →
              (strgDiskReset dm' overwrite).2.freeValidSize = dm'.freeValidSize) := by
  refine ⟨strgDiskOpen_balanced h, fun hload ops dm' hrun => ?_⟩
  have hdm' := hrun.invariant (I := Accounted) (fun hd hop => hop.1.accounted hop.2 hd)
    (strgDiskOpen_accounted h hload)
  exact ⟨hdm'.balanced, fun overwrite hkeeps => (hdm'.reset hkeeps).2⟩

/-- One recording on a disk just formatted with one basket. -/
theorem balanced_of_keepsSpace_formatted :
    ∃ dm dm', (strgDiskOpen 0 (formatted 1100)).1 = some dm ∧
      Run (Restrict DiskOp.Does DiskOp.KeepsSpace) dm
        [.writeStart 0 recordTimeType 0, .writeStop 0] dm' ∧ dm'.Balanced := by
  have hexec : ((strgDiskOpen 0 (formatted 1100)).1.bind fun dm =>
      (([.writeStart 0 recordTimeType 0, .writeStop 0] : List DiskOp).foldlM
        (DiskOp.exec 1) dm).map fun dm' => (decide dm.Balanced, dm')).map Prod.fst = some true := by
    decide +kernel
  obtain ⟨⟨_, _⟩, hopened, rfl⟩ := Option.map_eq_some_iff.1 hexec
  obtain ⟨dm, hopen, hmap⟩ := Option.bind_eq_some_iff.1 hopened
  obtain ⟨dm', hsteps, heq⟩ := Option.map_eq_some_iff.1 hmap
  obtain ⟨hbalanced, _⟩ := Prod.mk.inj heq
  have hrun : Run (Restrict DiskOp.Does DiskOp.KeepsSpace) dm
      [.writeStart 0 recordTimeType 0, .writeStop 0] dm' := by
    rw [List.foldlM_cons] at hsteps
    obtain ⟨d, hstart, hrest⟩ := Option.bind_eq_some_iff.1 hsteps
    rw [List.foldlM_cons] at hrest
    obtain ⟨d', hstop, hrest⟩ := Option.bind_eq_some_iff.1 hrest
    obtain rfl := Option.some.inj hrest
    exact .snoc (.single ⟨DiskOp.exec_does hstart, trivial⟩) ⟨DiskOp.exec_does hstop, trivial⟩
  have hopened := balanced_of_keepsSpace hopen
  exact ⟨dm, dm', hopen, hrun,
    (hopened.2 (hopened.1.1 (of_decide_eq_true hbalanced)) _ _ hrun).1⟩

end Open

/-- After a recording on a disk with one basket the disk is closed and opened
again: the loader takes off what the basket has left, the whole disk. -/
theorem reopened_not_balanced :
    ¬∀ (diskIdx : Int32) (dev : Dev) (dm dm' : DiskMng) (ops : List DiskOp),
      (strgDiskOpen diskIdx dev).1 = some dm → Run DiskOp.Does dm ops dm' →
        dm'.Balanced ∧ ∀ overwrite, (strgDiskReset dm' overwrite).1 = -1 →
          (strgDiskReset dm' overwrite).2.freeValidSize = dm'.freeValidSize := by
  intro h
  have hlost : ((strgDiskOpen 0 (formatted 1100)).1.bind fun dm =>
      (([.writeStart 0 recordTimeType 1, .writeStop 0] : List DiskOp).foldlM
        (DiskOp.exec 1) dm).bind fun dm => (strgDiskOpen 0 (strgDiskClose dm)).1).map
          (fun dm => decide dm.Balanced) = some false := by decide +kernel
  obtain ⟨dm, hexec, hbalanced⟩ := Option.map_eq_some_iff.1 hlost
  obtain ⟨_, _, hexec⟩ := Option.bind_eq_some_iff.1 hexec
  obtain ⟨_, _, hopen⟩ := Option.bind_eq_some_iff.1 hexec
  exact of_decide_eq_false hbalanced (h 0 _ dm dm [] hopen .nil).1

end Nvr.Storage
