import Nvr.Proofs.BasketStep
import Nvr.Proofs.DiskStep

/-!
# Which steps move a basket

Most steps of a disk leave every basket in its place and take nothing away from
it: `Stays`. The others are few, and `DiskStep.moves` lists them, so what is
proved about places, generations and discarded footage is proved by six cases.
-/

namespace Nvr.Storage

/-- The basket that a channel is writing. -/
def DiskMng.slot (dm : DiskMng) (chn : Chn) : Option Nat := (dm.bfiCur chn).map (·.bgi)

/-- No basket is moved and none loses anything. -/
structure Stays (dm dm' : DiskMng) : Prop where
  bgiList : dm'.bgiList = dm.bgiList
  bgiNew : dm'.bgiNew = dm.bgiNew
  bgiOld : dm'.bgiOld = dm.bgiOld
  slot : dm'.slot = dm.slot
  dg : dm'.dg = dm.dg
  discards : dm'.discards = dm.discards
  basketIdx : ∀ p, (dm'.bgi p).basketIdx = (dm.bgi p).basketIdx
  useCnt : ∀ p, (dm'.bgi p).bg.useCnt = (dm.bgi p).bg.useCnt
  chn : ∀ p, (dm'.bgi p).bg.chn = (dm.bgi p).bg.chn
  fragments : ∀ p, (dm.bgi p).fragments <+: (dm'.bgi p).fragments

/-- Nor does anything change for the readers. -/
structure Idles (dm dm' : DiskMng) : Prop extends Stays dm dm' where
  readList : dm'.readList = dm.readList
  nextHandle : dm'.nextHandle = dm.nextHandle
  readRef : ∀ p, (dm'.bgi p).readRef = (dm.bgi p).readRef
  reading : ∀ p, (dm'.bgi p).bg.status &&& useStatusReading =
    (dm.bgi p).bg.status &&& useStatusReading

/-- A disk whose baskets, lists, channels and readers are the same. -/
theorem idles_of_eq {dm dm' : DiskMng} (hlist : dm'.bgiList = dm.bgiList)
    (hnew : dm'.bgiNew = dm.bgiNew) (hold : dm'.bgiOld = dm.bgiOld)
    (hcur : dm'.bfiCur = dm.bfiCur) (hdg : dm'.dg = dm.dg) (hdis : dm'.discards = dm.discards)
    (hbgi : dm'.bgi = dm.bgi) (hread : dm'.readList = dm.readList)
    (hnext : dm'.nextHandle = dm.nextHandle) : Idles dm dm' where
  bgiList := hlist
  bgiNew := hnew
  bgiOld := hold
  slot := by
    funext chn
    rw [DiskMng.slot, hcur, DiskMng.slot]
  dg := hdg
  discards := hdis
  basketIdx p := by rw [hbgi]
  useCnt p := by rw [hbgi]
  chn p := by rw [hbgi]
  fragments p := prefix_of_eq (by rw [hbgi])
  readList := hread
  nextHandle := hnext
  readRef p := by rw [hbgi]
  reading p := by rw [hbgi]

theorem Idles.refl (dm : DiskMng) : Idles dm dm :=
  idles_of_eq rfl rfl rfl rfl rfl rfl rfl rfl rfl

theorem Idles.trans {a b c : DiskMng} (h : Idles a b) (h' : Idles b c) : Idles a c where
  bgiList := h'.bgiList.trans h.bgiList
  bgiNew := h'.bgiNew.trans h.bgiNew
  bgiOld := h'.bgiOld.trans h.bgiOld
  slot := h'.slot.trans h.slot
  dg := h'.dg.trans h.dg
  discards := h'.discards.trans h.discards
  basketIdx p := (h'.basketIdx p).trans (h.basketIdx p)
  useCnt p := (h'.useCnt p).trans (h.useCnt p)
  chn p := (h'.chn p).trans (h.chn p)
  fragments p := (h.fragments p).trans (h'.fragments p)
  readList := h'.readList.trans h.readList
  nextHandle := h'.nextHandle.trans h.nextHandle
  readRef p := (h'.readRef p).trans (h.readRef p)
  reading p := (h'.reading p).trans (h.reading p)

theorem idles_setDev (dm : DiskMng) (dev : Dev) : Idles dm (dm.setDev dev) :=
  idles_of_eq rfl rfl rfl rfl rfl rfl rfl rfl rfl

theorem idles_writeEntry (dm : DiskMng) (p bfIdx : Nat) (bf : BasketFragment) :
    Idles dm (dm.writeEntry p bfIdx bf) := idles_setDev _ _

theorem idles_flagOnce (dm : DiskMng) : Idles dm dm.flagOnce := by
  unfold DiskMng.flagOnce
  split
  · exact .refl dm
  · exact idles_of_eq rfl rfl rfl rfl rfl rfl rfl rfl rfl

theorem bgi_setBgi_apply (dm : DiskMng) (p q : Nat) (bgi : BasketGlobalInfo) :
    (dm.setBgi p bgi).bgi q = if q = p then bgi else dm.bgi q :=
  Function.update_apply dm.bgi p bgi q

theorem idles_setBgi {dm : DiskMng} {p : Nat} {bgi : BasketGlobalInfo}
    (hkeeps : (dm.bgi p).Keeps bgi) : Idles dm (dm.setBgi p bgi) := by
  have hcases : ∀ q, (dm.bgi q).Keeps ((dm.setBgi p bgi).bgi q) := by
    intro q
    rw [bgi_setBgi_apply]
    split
    · next hq => rwa [hq]
    · exact .refl _
  exact {
    bgiList := rfl
    bgiNew := rfl
    bgiOld := rfl
    slot := rfl
    dg := rfl
    discards := rfl
    basketIdx q := (hcases q).basketIdx
    useCnt q := (hcases q).useCnt
    chn q := (hcases q).chn
    fragments q := (hcases q).fragments
    readList := rfl
    nextHandle := rfl
    readRef q := (hcases q).readRef
    reading q := (hcases q).reading }

/-- The file stays open under the channel, whatever its position. -/
theorem idles_setCur {dm : DiskMng} {chn : Chn} {bfi bfi' : BasketFileInfo}
    (h : dm.bfiCur chn = some bfi) (hfile : bfi'.bgi = bfi.bgi) :
    Idles dm (dm.setCur chn (some bfi')) := by
  have hslot : (dm.setCur chn (some bfi')).slot = dm.slot := by
    funext c
    rw [DiskMng.slot, DiskMng.bfiCur_setCur]
    by_cases hc : c = chn
    · subst hc
      rw [Function.update_self, DiskMng.slot, h, Option.map_some, Option.map_some, hfile]
    · rw [Function.update_of_ne hc, DiskMng.slot]
  have hrefl := Idles.refl dm
  exact { hrefl with slot := hslot }

theorem idles_putBasket {dm : DiskMng} {chn : Chn} {bfi : BasketFileInfo} {b : Basket}
    (h : dm.bfiCur chn = some bfi) (hb : (dm.basket bfi).Keeps b) :
    Idles dm (dm.putBasket chn b) := by
  have hset : Idles dm ((dm.setDev b.dev).setBgi b.bfi.bgi b.bgi) := by
    refine (idles_setDev dm b.dev).trans (idles_setBgi ?_)
    rw [hb.file]
    exact hb.bgi
  exact hset.trans (idles_setCur h hb.file)

theorem idles_recordStart {dm : DiskMng} {chn : Chn} {bfi : BasketFileInfo} {b : Basket}
    (h : dm.bfiCur chn = some bfi) (hb : (dm.basket bfi).Keeps b) :
    Idles dm (dm.recordStart chn b) :=
  ((idles_putBasket h hb).trans (idles_flagOnce _)).trans (idles_writeEntry _ _ _ _)

theorem idles_recordStop {dm : DiskMng} {chn : Chn} {bfi : BasketFileInfo} {i : Nat}
    (h : dm.bfiCur chn = some bfi) : Idles dm (dm.recordStop chn bfi i) :=
  (idles_putBasket h (strgBasketWriteStop_keeps _)).trans (idles_writeEntry _ _ _ _)

theorem idles_strgDiskWrite (dm : DiskMng) (chn : Chn) (minutes : Int32) (curTime : UInt64)
    (f : Frame) : Idles dm (strgDiskWrite dm chn minutes curTime f).2 := by
  unfold strgDiskWrite
  split
  · exact .refl dm
  · next bfi h =>
      refine (idles_putBasket h
        (strgBasketWrite_keeps (dm.basket bfi) minutes curTime f)).trans ?_
      simp only
      split
      · exact idles_of_eq rfl rfl rfl rfl rfl rfl rfl rfl rfl
      · exact .refl _

theorem BasketGlobalInfo.keeps_addType (bgi : BasketGlobalInfo) (i : Nat) (type : RecordType) :
    bgi.Keeps (bgi.addType i type) where
  basketIdx := rfl
  useCnt := rfl
  chn := rfl
  readRef := rfl
  reading := rfl
  fragments := by
    have hmap : (bgi.addType i type).fragments = bgi.fragments :=
      map_modify_of_same (f := BasketFragment.place) (g := fun bf => bf.addType type)
        (fun _ => rfl) bgi.bfList i
    exact prefix_of_eq hmap.symm

theorem idles_strgDiskWriteSetType (dm : DiskMng) (chn : Chn) (type : RecordType) :
    Idles dm (strgDiskWriteSetType dm chn type).2 := by
  unfold strgDiskWriteSetType
  split
  · exact .refl dm
  · split
    · exact .refl dm
    · simp only
      split
      · exact (idles_setBgi (BasketGlobalInfo.keeps_addType _ _ _)).trans
          (idles_writeEntry _ _ _ _)
      · exact .refl dm

theorem idles_clearUpdate (dm : DiskMng) (p : Nat) : Idles dm (dm.clearUpdate p) :=
  idles_setBgi ⟨rfl, rfl, rfl, rfl, rfl, List.prefix_refl _⟩

/-! ## Readers -/

/-- A reader is counted exactly when it gets a handle. -/
theorem strgBasketReadStart_cases (dev : Dev) (bgi : BasketGlobalInfo) (q : RecordQueryInfo) :
    ((strgBasketReadStart dev bgi q).1 = none ∧ (strgBasketReadStart dev bgi q).2.2 = bgi) ∨
      (∃ r, (strgBasketReadStart dev bgi q).1 = some r ∧
        (strgBasketReadStart dev bgi q).2.2 = bgi.addReader) := by
  unfold strgBasketReadStart
  split
  · split
    · exact .inl ⟨rfl, rfl⟩
    · simp only
      split
      · exact .inl ⟨rfl, rfl⟩
      · split
        · exact .inl ⟨rfl, rfl⟩
        · exact .inr ⟨_, rfl, rfl⟩
  · exact .inl ⟨rfl, rfl⟩

/-- A basket replaced by one that only differs for the readers. -/
theorem stays_setBgi {dm : DiskMng} {p : Nat} {bgi : BasketGlobalInfo}
    (hidx : bgi.basketIdx = (dm.bgi p).basketIdx)
    (huse : bgi.bg.useCnt = (dm.bgi p).bg.useCnt) (hchn : bgi.bg.chn = (dm.bgi p).bg.chn)
    (hfragments : bgi.fragments = (dm.bgi p).fragments) : Stays dm (dm.setBgi p bgi) := by
  refine ⟨rfl, rfl, rfl, rfl, rfl, rfl, fun q => ?_, fun q => ?_, fun q => ?_, fun q => ?_⟩
  · rw [bgi_setBgi_apply]
    split
    · next hq => rw [hq, hidx]
    · rfl
  · rw [bgi_setBgi_apply]
    split
    · next hq => rw [hq, huse]
    · rfl
  · rw [bgi_setBgi_apply]
    split
    · next hq => rw [hq, hchn]
    · rfl
  · rw [bgi_setBgi_apply]
    split
    · next hq => exact prefix_of_eq (by rw [hq, hfragments])
    · exact List.prefix_refl _

/-- Either nothing happens but to the files, or a basket of `bgi_list` has one
more reader and there is one more handle. -/
theorem strgDiskReadStart_cases (dm : DiskMng) (q : RecordQueryInfo) :
    (∃ dev, (strgDiskReadStart dm q).2 = dm.setDev dev) ∨
      (∃ p ∈ dm.bgiList, ∃ dev bri, bri.bgi = p ∧
        (strgDiskReadStart dm q).2 =
          { (dm.setDev dev).setBgi p (dm.bgi p).addReader with
            readList := dm.readList ++ [(dm.nextHandle, bri)]
            nextHandle := dm.nextHandle + 1 }) := by
  have hsame : ∀ p, dm.setBgi p (dm.bgi p) = dm := by
    intro p
    rw [DiskMng.setBgi, Function.update_eq_self]
  unfold strgDiskReadStart
  split
  · split
    · exact .inl ⟨dm.dev, rfl⟩
    · next p hfind =>
        have hp : p ∈ dm.bgiList := List.mem_of_find?_eq_some hfind
        rcases strgBasketReadStart_cases dm.dev (dm.bgi p) q with ⟨hnone, hbgi⟩ | ⟨r, hsome, hbgi⟩
        · refine .inl ⟨(strgBasketReadStart dm.dev (dm.bgi p) q).2.1, ?_⟩
          simp only [hnone, hbgi]
          exact congrArg (DiskMng.setDev · _) (hsame p)
        · refine .inr ⟨p, hp, (strgBasketReadStart dm.dev (dm.bgi p) q).2.1,
            { r.1 with bgi := p }, rfl, ?_⟩
          simp only [hsome, hbgi]
          rfl
  · exact .inl ⟨dm.dev, rfl⟩

theorem stays_strgDiskReadStart (dm : DiskMng) (q : RecordQueryInfo) :
    Stays dm (strgDiskReadStart dm q).2 := by
  rcases strgDiskReadStart_cases dm q with ⟨dev, h⟩ | ⟨p, _, dev, bri, _, h⟩
  · rw [h]
    exact (idles_setDev dm dev).toStays
  · rw [h]
    have hset : Stays dm (dm.setBgi p (dm.bgi p).addReader) := stays_setBgi rfl rfl rfl rfl
    exact { hset with }

theorem stays_strgDiskReadStop (dm : DiskMng) (handle : Nat) :
    Stays dm (strgDiskReadStop dm handle) := by
  unfold strgDiskReadStop
  split
  · exact (Idles.refl dm).toStays
  · next h _ =>
      have hset : Stays dm (dm.setBgi h.2.bgi (strgBasketReadStop (dm.bgi h.2.bgi))) := by
        refine stays_setBgi rfl ?_ ?_ rfl
        all_goals
          simp only [strgBasketReadStop, BasketGlobalInfo.dropReader]
          split <;> rfl
      exact { hset with }

/-- What a step that moves nothing does for the readers. -/
inductive Reads (dm : DiskMng) : DiskMng → Prop
  | idles {dm' : DiskMng} (h : Idles dm dm') : Reads dm dm'
  | start (q : RecordQueryInfo) : Reads dm (strgDiskReadStart dm q).2
  | stop (handle : Nat) : Reads dm (strgDiskReadStop dm handle)

/-! ## Generations -/

/-- The disk after a reset that went through. -/
def DiskMng.nextGeneration (dm : DiskMng) : DiskMng :=
  { dm with
    dev := (strgDiskWriteGlobal dm.dev { dm.dg with useCnt := dm.dg.useCnt + 1 }).2
    freeValidSize := dm.totalValidSize
    dg := { dm.dg with useCnt := dm.dg.useCnt + 1 }
    bgiOld := dm.bgiOld ++ dm.bgiNew
    bgiNew := [] }

theorem strgDiskReset_moves (dm : DiskMng) (overwrite : UInt32) :
    Idles dm (strgDiskReset dm overwrite).2 ∨
      (strgDiskReset dm overwrite).2 = dm.nextGeneration := by
  unfold strgDiskReset
  split
  · simp only
    split
    · exact .inr rfl
    · exact .inl (idles_of_eq rfl rfl rfl rfl (by simp) rfl rfl rfl rfl)
  · exact .inl (.refl dm)

/-- A step by what it moves. -/
inductive Moves (C : Guard → DiskMng → Prop) (dm : DiskMng) : DiskMng → Prop
  | stays {dm' : DiskMng} (h : Stays dm dm') (hreads : Reads dm dm') : Moves C dm dm'
  | takeNew {chn : Chn} {p : Nat} (h : p ∈ dm.bgiNew) (hfits : allocFits chn (dm.bgi p) = true)
      (hC : C (.take chn) dm) : Moves C dm (dm.takeNew chn (.fresh p))
  | discardFail {chn : Chn} {p : Nat} {overwrite : UInt32} (h : p ∈ dm.bgiOld)
      (hover : overwritable overwrite (dm.bgi p) = true)
      (hret : (dm.resetBasket p (.fresh p) chn overwrite).1 < 0) (hC : C (.discard overwrite) dm) :
      Moves C dm (dm.resetBasket p (.fresh p) chn overwrite).2
  | takeOld {chn : Chn} {p : Nat} {overwrite : UInt32} (h : p ∈ dm.bgiOld)
      (hover : overwritable overwrite (dm.bgi p) = true)
      (hret : ¬(dm.resetBasket p (.fresh p) chn overwrite).1 < 0) (hmask : C (.discard overwrite) dm)
      (hC : C (.take chn) dm) :
      Moves C dm ((dm.resetBasket p (.fresh p) chn overwrite).2.takeOld chn (.fresh p))
  | free (chn : Chn) : Moves C dm (strgDiskFreeBasket dm chn)
  | nextGeneration (hC : C .reset dm) : Moves C dm dm.nextGeneration

theorem Idles.moves {C : Guard → DiskMng → Prop} {dm dm' : DiskMng} (h : Idles dm dm') :
    Moves C dm dm' := .stays h.toStays (.idles h)

theorem DiskStep.moves {C : Guard → DiskMng → Prop} {dm dm' : DiskMng}
    (h : DiskStep C dm dm') : Moves C dm dm' := by
  cases h with
  | wait => exact (idles_setDev _ _).moves
  | takeNew h hfits hC => exact .takeNew h hfits hC
  | discardFail h hover hret hC => exact .discardFail h hover hret hC
  | takeOld h hover hret hmask hC => exact .takeOld h hover hret hmask hC
  | startFail h _ _ => exact (idles_putBasket h (strgBasketWriteStart_keeps _ _ _)).moves
  | start h _ _ _ => exact (idles_recordStart h (strgBasketWriteStart_keeps _ _ _)).moves
  | write => exact (idles_strgDiskWrite _ _ _ _ _).moves
  | stop h _ _ => exact (idles_recordStop h).moves
  | clearUpdate => exact (idles_clearUpdate _ _).moves
  | free chn => exact .free chn
  | setType => exact (idles_strgDiskWriteSetType _ _ _).moves
  | readStart q => exact .stays (stays_strgDiskReadStart _ _) (.start q)
  | readStop handle => exact .stays (stays_strgDiskReadStop _ _) (.stop handle)
  | reset overwrite hC =>
      rcases strgDiskReset_moves dm overwrite with h | h
      · exact h.moves
      · rw [h]
        exact .nextGeneration hC

end Nvr.Storage
