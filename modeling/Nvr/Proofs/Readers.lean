import Nvr.Lib.Custody
import Nvr.Proofs.DiskMoves
import Nvr.Proofs.Loaded

/-!
# Counting the readers

`read_ref` of a basket is the number of live handles on it, and a basket with a
live handle carries `USE_STATUS_READING`. Both hold whatever the disk is asked
for, since only opening and closing a handle changes either of them, and a
basket that is reset has no handle: the reset is only tried on baskets without
the flag.

The other half, that the flag means a live handle, is not for every run; where
it fails is the subject of `Nvr.Proofs.Reading`.
-/

namespace Nvr.Storage

/-- How many live handles there are on a basket. -/
def DiskMng.handlesOn (dm : DiskMng) (p : Nat) : Nat := dm.readList.countP fun h => h.2.bgi = p

/-- The basket carries `USE_STATUS_READING`. -/
def BasketGlobalInfo.IsReading (bgi : BasketGlobalInfo) : Prop :=
  bgi.bg.status &&& useStatusReading ≠ 0

structure ReadersCounted (dm : DiskMng) : Prop where
  onDisk : ∀ h ∈ dm.readList, h.2.bgi ∈ dm.bgiList
  readRef : ∀ p ∈ dm.bgiList, (dm.bgi p).readRef = dm.handlesOn p
  reading : ∀ p, 0 < dm.handlesOn p → (dm.bgi p).IsReading

theorem Loaded.readersCounted {dm : DiskMng} (h : Loaded dm) : ReadersCounted dm where
  onDisk x hx := by
    rw [h.noReader] at hx
    cases hx
  readRef p hp := by
    rw [h.readRef p hp, DiskMng.handlesOn, h.noReader]
    rfl
  reading p hp := by
    rw [DiskMng.handlesOn, h.noReader] at hp
    cases hp

theorem addReader_isReading (bgi : BasketGlobalInfo) : bgi.addReader.IsReading := by
  rw [BasketGlobalInfo.IsReading, BasketGlobalInfo.addReader, Flag.or_and_self]
  decide

/-- The flag goes with the last reader and stays with any other. -/
theorem dropReader_isReading {bgi : BasketGlobalInfo} :
    bgi.dropReader.IsReading ↔ bgi.readRef - 1 ≠ 0 ∧ bgi.IsReading := by
  rw [BasketGlobalInfo.IsReading, BasketGlobalInfo.dropReader]
  split
  · next hlast =>
      rw [Flag.and_not_and_self]
      simp [hlast]
  · next hmore =>
      simp [hmore, BasketGlobalInfo.IsReading]

namespace ReadersCounted

variable {dm dm' : DiskMng}

theorem idles (h : ReadersCounted dm) (hidle : Idles dm dm') : ReadersCounted dm' where
  onDisk x hx := by
    rw [hidle.readList] at hx
    rw [hidle.bgiList]
    exact h.onDisk x hx
  readRef p hp := by
    rw [hidle.bgiList] at hp
    rw [hidle.readRef, DiskMng.handlesOn, hidle.readList]
    exact h.readRef p hp
  reading p hp := by
    rw [DiskMng.handlesOn, hidle.readList] at hp
    rw [BasketGlobalInfo.IsReading, hidle.reading]
    exact h.reading p hp

theorem readStart (h : ReadersCounted dm) (q : RecordQueryInfo) :
    ReadersCounted (strgDiskReadStart dm q).2 := by
  rcases strgDiskReadStart_cases dm q with ⟨dev, heq⟩ | ⟨p, hp, dev, bri, hbri, heq⟩
  · rw [heq]
    exact h.idles (idles_setDev dm dev)
  · rw [heq]
    have hbgi : ∀ r, ((dm.setDev dev).setBgi p (dm.bgi p).addReader).bgi r =
        if r = p then (dm.bgi p).addReader else dm.bgi r :=
      fun r => bgi_setBgi_apply (dm.setDev dev) p r (dm.bgi p).addReader
    have hcount : ∀ r, (dm.readList ++ [(dm.nextHandle, bri)]).countP (fun x => x.2.bgi = r) =
        dm.handlesOn r + if p = r then 1 else 0 := by
      intro r
      rw [List.countP_append, List.countP_singleton, DiskMng.handlesOn]
      simp [hbri]
    refine ⟨fun x hx => ?_, fun r hr => ?_, fun r hr => ?_⟩
    · rcases List.mem_append.1 hx with hx | hx
      · exact h.onDisk x hx
      · rw [List.mem_singleton.1 hx]
        show bri.bgi ∈ dm.bgiList
        rwa [hbri]
    · show (((dm.setDev dev).setBgi p (dm.bgi p).addReader).bgi r).readRef = _
      rw [hbgi, DiskMng.handlesOn, hcount]
      have href := h.readRef r hr
      split
      · next heq =>
          subst heq
          rw [if_pos rfl, BasketGlobalInfo.addReader]
          push_cast
          rw [href]
      · next hne =>
          rw [if_neg (Ne.symm hne), href]
          rfl
    · show (((dm.setDev dev).setBgi p (dm.bgi p).addReader).bgi r).IsReading
      rw [DiskMng.handlesOn, hcount] at hr
      rw [hbgi]
      split
      · exact addReader_isReading _
      · next hne =>
          rw [if_neg (Ne.symm hne)] at hr
          exact h.reading r hr

theorem readStop (h : ReadersCounted dm) (handle : Nat) :
    ReadersCounted (strgDiskReadStop dm handle) := by
  unfold strgDiskReadStop
  split
  · exact h
  · next x hfind =>
      have hx : x ∈ dm.readList := List.mem_of_find?_eq_some hfind
      have hbgi := fun r => bgi_setBgi_apply dm x.2.bgi r (dm.bgi x.2.bgi).dropReader
      have hcount : ∀ r, (dm.readList.eraseP fun y => y.1 = handle).countP
          (fun y => y.2.bgi = r) + (if x.2.bgi = r then 1 else 0) = dm.handlesOn r := by
        intro r
        have herase := Custody.countP_eraseP_of_find hfind fun y => decide (y.2.bgi = r)
        simp only [decide_eq_true_eq] at herase
        exact herase
      refine ⟨fun y hy => ?_, fun r hr => ?_, fun r hr => ?_⟩
      · exact h.onDisk y (List.mem_of_mem_eraseP hy)
      · show ((dm.setBgi x.2.bgi (dm.bgi x.2.bgi).dropReader).bgi r).readRef = _
        have hr' := h.readRef r hr
        have hr'' := hcount r
        rw [hbgi, DiskMng.handlesOn]
        show _ = (((dm.readList.eraseP fun y => y.1 = handle).countP fun y => y.2.bgi = r : Nat) : Int)
        split
        · next heq =>
            subst heq
            rw [if_pos rfl] at hr''
            show (dm.bgi x.2.bgi).readRef - 1 = _
            omega
        · next hne =>
            rw [if_neg (Ne.symm hne)] at hr''
            omega
      · show ((dm.setBgi x.2.bgi (dm.bgi x.2.bgi).dropReader).bgi r).IsReading
        have hr' : 0 < (dm.readList.eraseP fun y => y.1 = handle).countP
          (fun y => y.2.bgi = r) := hr
        have hr'' := hcount r
        rw [hbgi]
        split
        · next heq =>
            subst heq
            rw [if_pos rfl] at hr''
            have href := h.readRef x.2.bgi (h.onDisk x hx)
            exact dropReader_isReading.2 ⟨by omega, h.reading x.2.bgi (by omega)⟩
        · next hne =>
            rw [if_neg (Ne.symm hne)] at hr''
            exact h.reading r (by omega)

/-- A basket without the flag has no handle, so it may be reset. -/
theorem resetBasket (h : ReadersCounted dm) {p : Nat} {overwrite : UInt32}
    (hover : overwritable overwrite (dm.bgi p) = true) (bfi : BasketFileInfo) (chn : Chn) :
    ReadersCounted (dm.resetBasket p bfi chn overwrite).2 := by
  have hnone : dm.handlesOn p = 0 := by
    by_contra hne
    exact h.reading p (Nat.pos_of_ne_zero hne) (overwritable_notReading hover)
  have hbgi : ∀ r, (dm.resetBasket p bfi chn overwrite).2.bgi r =
      if r = p then (dm.bgi p).reset (chnWord chn) dm.dg.useCnt else dm.bgi r :=
    Function.update_apply dm.bgi p _
  refine ⟨h.onDisk, fun r hr => ?_, fun r hr => ?_⟩
  · rw [hbgi]
    split
    · next heq =>
        rw [heq]
        exact h.readRef p (heq ▸ hr)
    · exact h.readRef r hr
  · have hr : 0 < dm.handlesOn r := hr
    rw [hbgi]
    split
    · next heq =>
        rw [heq] at hr
        omega
    · exact h.reading r hr

theorem step {C : Guard → DiskMng → Prop} (h : ReadersCounted dm) (hstep : DiskStep C dm dm') :
    ReadersCounted dm' := by
  cases hstep.moves with
  | stays _ hreads =>
      cases hreads with
      | idles hidle => exact h.idles hidle
      | start q => exact h.readStart q
      | stop handle => exact h.readStop handle
  | takeNew => exact ⟨h.onDisk, h.readRef, h.reading⟩
  | discardFail _ hover _ _ => exact h.resetBasket hover _ _
  | @takeOld chn p _ _ hover _ _ _ =>
      have hreset := h.resetBasket hover (.fresh p) chn
      exact ⟨hreset.onDisk, hreset.readRef, hreset.reading⟩
  | free =>
      unfold strgDiskFreeBasket
      split
      · exact h
      · split
        · exact ⟨h.onDisk, h.readRef, h.reading⟩
        · exact ⟨h.onDisk, h.readRef, h.reading⟩
  | nextGeneration => exact ⟨h.onDisk, h.readRef, h.reading⟩

end ReadersCounted

end Nvr.Storage
