import Nvr.Proofs.DiskMoves
import Nvr.Proofs.Loaded

/-!
# The fragment tables

A header counts the fragments of its basket, and the table in the file has room
for `BASKET_FRAGMENT_NUM` of them. The list in memory is never longer than the
count says, from the moment a basket is loaded; it may be shorter, since a
loader that cannot read a fragment gives up the rest and leaves the count.

What a step of a disk does to one basket is put into one type first, `Turns`,
so that what concerns a single basket is looked at one basket at a time.
-/

namespace Nvr.Storage

/-- What one step of a disk does to one basket. -/
inductive Turns (bgi : BasketGlobalInfo) : BasketGlobalInfo → Prop
  | stays : Turns bgi bgi
  | start {b : Basket} (hb : b.bgi = bgi) (chn : Int32) (recordType : RecordType)
      (hfew : bgi.bg.fragmentNum < UInt32.ofNat basketFragmentNum) :
      Turns bgi (strgBasketWriteStart b chn recordType).2.bgi
  | write {b : Basket} (hb : b.bgi = bgi) (minutes : Int32) (curTime : UInt64) (f : Frame) :
      Turns bgi (strgBasketWrite b minutes curTime f).2.bgi
  | stop {b : Basket} (hb : b.bgi = bgi) : Turns bgi (strgBasketWriteStop b).bgi
  | addType (i : Nat) (type : RecordType) : Turns bgi (bgi.addType i type)
  | clearUpdate : Turns bgi { bgi with updateFlag := false }
  | addReader : Turns bgi bgi.addReader
  | dropReader : Turns bgi bgi.dropReader
  | reset (chn : Int32) (useCnt : UInt32) : Turns bgi (bgi.reset chn useCnt)

section Step

variable {C : Guard → DiskMng → Prop} {dm dm' : DiskMng}

theorem turns_setBgi (dm : DiskMng) {p : Nat} {bgi : BasketGlobalInfo} (h : Turns (dm.bgi p) bgi) (q : Nat) :
    Turns (dm.bgi q) ((dm.setBgi p bgi).bgi q) := by
  rw [bgi_setBgi_apply]
  split
  · next heq => rwa [heq]
  · exact .stays

theorem turns_putBasket (dm : DiskMng) (chn : Chn) {bfi : BasketFileInfo} {b : Basket}
    (hfile : b.bfi.bgi = bfi.bgi) (h : Turns (dm.bgi bfi.bgi) b.bgi) (q : Nat) :
    Turns (dm.bgi q) ((dm.putBasket chn b).bgi q) := by
  refine turns_setBgi (dm.setDev b.dev) ?_ q
  rw [hfile]
  exact h

theorem DiskStep.turns (h : DiskStep C dm dm') (q : Nat) : Turns (dm.bgi q) (dm'.bgi q) := by
  cases h with
  | wait => exact .stays
  | takeNew => exact .stays
  | discardFail => exact turns_setBgi dm (.reset _ _) q
  | takeOld => exact turns_setBgi dm (.reset _ _) q
  | @startFail chn bfi recordType _ hfew _ =>
      exact turns_putBasket dm chn
        (strgBasketWriteStart_keeps (dm.basket bfi) (chnWord chn) recordType).file
        (.start (b := dm.basket bfi) rfl _ _ hfew) q
  | @start chn bfi recordType _ hfew _ _ =>
      have hput := turns_putBasket dm chn
        (strgBasketWriteStart_keeps (dm.basket bfi) (chnWord chn) recordType).file
        (.start (b := dm.basket bfi) rfl _ _ hfew) q
      rwa [DiskMng.recordStart, DiskMng.writeEntry, DiskMng.bgi_setDev, bgi_flagOnce]
  | @write chn minutes curTime f _ =>
      unfold strgDiskWrite
      split
      · exact .stays
      · next bfi _ =>
          have hput := turns_putBasket dm chn
            (strgBasketWrite_keeps (dm.basket bfi) minutes curTime f).file
            (.write (b := dm.basket bfi) rfl minutes curTime f) q
          simp only
          split
          · exact hput
          · exact hput
  | @stop chn bfi i _ _ _ =>
      exact turns_putBasket dm chn (strgBasketWriteStop_keeps (dm.basket bfi)).file
        (.stop (b := dm.basket bfi) rfl) q
  | clearUpdate p => exact turns_setBgi dm .clearUpdate q
  | free =>
      unfold strgDiskFreeBasket
      split
      · exact .stays
      · split <;> exact .stays
  | setType =>
      unfold strgDiskWriteSetType
      split
      · exact .stays
      · split
        · exact .stays
        · simp only
          split
          · exact turns_setBgi dm (.addType _ _) q
          · exact .stays
  | readStart info =>
      rcases strgDiskReadStart_cases dm info with ⟨dev, heq⟩ | ⟨p, _, dev, bri, _, heq⟩
      · rw [heq]
        exact .stays
      · rw [heq]
        exact turns_setBgi (dm.setDev dev) .addReader q
  | readStop handle =>
      unfold strgDiskReadStop
      split
      · exact .stays
      · exact turns_setBgi dm .dropReader q
  | reset =>
      unfold strgDiskReset
      split
      · simp only
        split <;> exact .stays
      · exact .stays

end Step

/-! ## The count -/

/-- The header counts every fragment of the list. -/
def BasketGlobalInfo.Counted (bgi : BasketGlobalInfo) : Prop :=
  bgi.bfList.length ≤ bgi.bg.fragmentNum.toNat

/-- The table has room for as many fragments as the header counts. -/
def BasketGlobalInfo.Bounded (bgi : BasketGlobalInfo) : Prop :=
  bgi.bg.fragmentNum.toNat ≤ basketFragmentNum

/-- Only the start and the reset of a basket change the count or the length of
the list. -/
theorem Turns.table {bgi bgi' : BasketGlobalInfo} (h : Turns bgi bgi') :
    (bgi'.bfList.length = bgi.bfList.length ∧ bgi'.bg.fragmentNum = bgi.bg.fragmentNum) ∨
      (bgi'.bfList.length = bgi.bfList.length + 1 ∧
        bgi'.bg.fragmentNum = bgi.bg.fragmentNum + 1 ∧
        bgi.bg.fragmentNum < UInt32.ofNat basketFragmentNum) ∨
      (bgi'.bfList = [] ∧ bgi'.bg.fragmentNum = 0) := by
  cases h with
  | start hb chn recordType hfew =>
      subst hb
      rcases strgBasketWriteStart_cases _ chn recordType with ⟨_, _, hbgi⟩ | ⟨bf, _, _, heq⟩
      · refine .inl ?_
        rcases hbgi with hbgi | hbgi
        · rw [hbgi]
          exact ⟨rfl, rfl⟩
        · rw [hbgi]
          simp [BasketGlobal.addFragment, BasketGlobal.dropFragment]
      · refine .inr (.inl ?_)
        rw [heq]
        exact ⟨by simp [BasketGlobalInfo.addFragment], rfl, hfew⟩
  | write hb minutes curTime f =>
      subst hb
      refine .inl ?_
      rcases strgBasketWrite_cases _ minutes curTime f with ⟨_, hbgi, _⟩ | ⟨i, _, heq⟩
      · rcases hbgi with hbgi | hbgi
        · rw [hbgi]
          exact ⟨rfl, rfl⟩
        · rw [hbgi]
          exact ⟨rfl, rfl⟩
      · rw [heq]
        exact ⟨List.length_modify .., rfl⟩
  | stop hb =>
      subst hb
      refine .inl ?_
      unfold strgBasketWriteStop
      split
      · exact ⟨rfl, rfl⟩
      · exact ⟨List.length_modify .., rfl⟩
  | addType => exact .inl ⟨List.length_modify .., rfl⟩
  | dropReader =>
      refine .inl ⟨rfl, ?_⟩
      rw [BasketGlobalInfo.dropReader]
      simp only
      split <;> rfl
  | reset => exact .inr (.inr ⟨rfl, rfl⟩)
  | stays => exact .inl ⟨rfl, rfl⟩
  | clearUpdate => exact .inl ⟨rfl, rfl⟩
  | addReader => exact .inl ⟨rfl, rfl⟩

/-- One more fragment is counted without a carry. -/
theorem toNat_fragmentNum_add_one {n : UInt32} (h : n < UInt32.ofNat basketFragmentNum) :
    n.toNat < basketFragmentNum ∧ (n + 1).toNat = n.toNat + 1 := by
  have hlt := UInt32.lt_iff_toNat_lt.1 h
  have hmax : (UInt32.ofNat basketFragmentNum).toNat = 1024 := rfl
  have hone : (1 : UInt32).toNat = 1 := rfl
  refine ⟨hlt, ?_⟩
  rw [UInt32.toNat_add_of_lt' (by omega), hone]

theorem Turns.counted {bgi bgi' : BasketGlobalInfo} (h : Turns bgi bgi') (hbgi : bgi.Counted) :
    bgi'.Counted := by
  unfold BasketGlobalInfo.Counted at *
  rcases h.table with ⟨hlen, hnum⟩ | ⟨hlen, hnum, hfew⟩ | ⟨hlen, _⟩
  · rwa [hlen, hnum]
  · rw [hlen, hnum, (toNat_fragmentNum_add_one hfew).2]
    omega
  · rw [hlen]
    exact Nat.zero_le _

theorem Turns.bounded {bgi bgi' : BasketGlobalInfo} (h : Turns bgi bgi') (hbgi : bgi.Bounded) :
    bgi'.Bounded := by
  unfold BasketGlobalInfo.Bounded at *
  rcases h.table with ⟨_, hnum⟩ | ⟨_, hnum, hfew⟩ | ⟨_, hnum⟩
  · rwa [hnum]
  · obtain ⟨hlt, hadd⟩ := toNat_fragmentNum_add_one hfew
    rw [hnum, hadd]
    exact hlt
  · rw [hnum]
    exact Nat.zero_le _

theorem DiskSteps.counted {C : Guard → DiskMng → Prop} {dm dm' : DiskMng}
    (h : DiskSteps C dm dm') (hdm : ∀ p, (dm.bgi p).Counted) : ∀ p, (dm'.bgi p).Counted :=
  h.invariant (I := fun d => ∀ p, (d.bgi p).Counted)
    (fun hstep hd p => (hstep.turns p).counted (hd p)) hdm

/-! ## Loading -/

theorem counted_alloc (idx : Nat) : (BasketGlobalInfo.alloc idx).Counted := Nat.zero_le _

theorem length_loadFragment (bgi : BasketGlobalInfo) (bf : BasketFragment) :
    (bgi.loadFragment bf).bfList.length = bgi.bfList.length + 1 := by
  simp [BasketGlobalInfo.loadFragment]

/-- The header stays, or it is taken from the file of the basket, where it
counts the fragment that was looked at. -/
theorem strgBasketScanFragment_table {dev : Dev} {bgi bgi' : BasketGlobalInfo} {bfIdx : Nat}
    {bf : BasketFragment} (h : (strgBasketScanFragment dev bgi bfIdx).1 = some (bf, bgi')) :
    bgi'.bfList = bgi.bfList ∧ bgi'.basketIdx = bgi.basketIdx ∧ (bgi'.bg = bgi.bg ∨
      ∃ bg, strgBasketReadGlobal dev.wait bgi.basketIdx = some bg ∧
        bgi'.bg = { bg with status := useStatusIdle } ∧ bfIdx < bg.fragmentNum.toNat) := by
  unfold strgBasketScanFragment at h
  simp only at h
  split at h
  · split at h
    · cases h
    · next bg hread =>
        split at h
        · next hlt =>
            split at h
            · cases h
            · split at h
              · cases h
              · split at h
                · simp only at h
                  split at h
                  · obtain ⟨_, rfl⟩ := Prod.mk.inj (Option.some.inj h)
                    exact ⟨rfl, rfl, .inr ⟨bg, hread, rfl, hlt⟩⟩
                  · cases h
                · simp only at h
                  split at h
                  · obtain ⟨_, rfl⟩ := Prod.mk.inj (Option.some.inj h)
                    exact ⟨rfl, rfl, .inl rfl⟩
                  · cases h
        · cases h
  · cases h

theorem openFragments_counted (fuel : Nat) :
    ∀ (bfIdx : Nat) (dev : Dev) (bgi : BasketGlobalInfo), bgi.bfList.length = bfIdx →
      bgi.Counted → (openFragments fuel bfIdx dev bgi).2.Counted := by
  induction fuel with
  | zero => exact fun _ _ _ _ hbgi => hbgi
  | succ fuel ih =>
      intro bfIdx dev bgi hlen hbgi
      rw [openFragments]
      split
      · next hlt =>
          split
          · exact hbgi
          · next bf _ =>
              split
              · exact hbgi
              · split
                · simp only
                  split
                  · exact hbgi
                  · next bf' bgi' hscan =>
                      obtain ⟨hlist, _, hbg⟩ := strgBasketScanFragment_table hscan
                      have hlt' : bfIdx < bgi'.bg.fragmentNum.toNat := by
                        rcases hbg with hbg | ⟨bg, _, hbg, hnum⟩
                        · rwa [hbg]
                        · rwa [hbg]
                      refine ih _ _ _ ?_ ?_
                      · rw [length_loadFragment, hlist, hlen]
                      · rw [BasketGlobalInfo.Counted, length_loadFragment, hlist, hlen]
                        exact hlt'
                · refine ih _ _ _ ?_ ?_
                  · rw [length_loadFragment, hlen]
                  · rw [BasketGlobalInfo.Counted, length_loadFragment, hlen]
                    exact hlt
      · exact hbgi

/-- The loop reads no more fragments than it is told, and leaves the header. -/
theorem scanFragments_table (n : Nat) :
    ∀ (dev : Dev) (bgi : BasketGlobalInfo) (bfIdx : Nat),
      (scanFragments dev bgi n bfIdx).2.bfList.length ≤ bgi.bfList.length + n ∧
        (scanFragments dev bgi n bfIdx).2.bg = bgi.bg := by
  induction n with
  | zero => exact fun _ _ _ => ⟨le_rfl, rfl⟩
  | succ n ih =>
      intro dev bgi bfIdx
      rw [scanFragments]
      split
      · exact ⟨Nat.le_add_right _ _, rfl⟩
      · next bf _ =>
          split
          · split
            · exact ⟨Nat.le_add_right _ _, rfl⟩
            · next bf' _ =>
                obtain ⟨hlen, hbg⟩ := ih
                  (strgBasketWriteFragment dev bgi.basketIdx bf' bfIdx).2
                  { bgi.loadFragment bf' with updateFlag := true } (bfIdx + 1)
                refine ⟨hlen.trans ?_, hbg⟩
                show (bgi.loadFragment bf').bfList.length + n ≤ _
                rw [length_loadFragment]
                omega
          · obtain ⟨hlen, hbg⟩ := ih dev (bgi.loadFragment bf) (bfIdx + 1)
            refine ⟨hlen.trans ?_, hbg⟩
            rw [length_loadFragment]
            omega

/-- A basket that was scanned is idle and its header counts exactly what was
found. -/
theorem strgBasketScan_table {dev : Dev} {idx : Nat} {bgi : BasketGlobalInfo}
    (h : (strgBasketScan dev (.alloc idx)).1 = some bgi) :
    bgi.bg.status = useStatusIdle ∧ bgi.bfList.length = bgi.bg.fragmentNum.toNat ∧
      (bgi.bg = .unused ∨ ∃ bg, strgBasketReadGlobal dev.wait idx = some bg ∧
        bgi.bg.fragmentNum.toNat ≤ bg.fragmentNum.toNat) := by
  unfold strgBasketScan at h
  simp only at h
  split at h
  · split at h
    · split at h
      · obtain rfl := Option.some.inj h
        exact ⟨rfl, rfl, .inl rfl⟩
      · cases h
    · next bg hread =>
        obtain ⟨hlen, hbg⟩ := scanFragments_table bg.fragmentNum.toNat dev.wait
          ((BasketGlobalInfo.alloc idx).vacant bg) 0
        have hlen : (scanFragments dev.wait ((BasketGlobalInfo.alloc idx).vacant bg)
            bg.fragmentNum.toNat 0).2.bfList.length ≤ bg.fragmentNum.toNat :=
          hlen.trans (Nat.le_of_eq (Nat.zero_add _))
        have hlt := bg.fragmentNum.toNat_lt
        split at h
        · obtain rfl := Option.some.inj h
          have hnum : (UInt32.ofNat (scanFragments dev.wait
              ((BasketGlobalInfo.alloc idx).vacant bg) bg.fragmentNum.toNat 0).2.bfList.length).toNat =
              (scanFragments dev.wait ((BasketGlobalInfo.alloc idx).vacant bg)
                bg.fragmentNum.toNat 0).2.bfList.length := by
            rw [UInt32.toNat_ofNat']
            exact Nat.mod_eq_of_lt (hlen.trans_lt hlt)
          exact ⟨rfl, hnum.symm, .inr ⟨bg, hread, hnum.trans_le hlen⟩⟩
        · next hsame =>
            obtain rfl := Option.some.inj h
            obtain ⟨hidle, hcount⟩ := not_or.1 hsame
            rw [not_not] at hidle hcount
            refine ⟨hidle, ?_, .inr ⟨bg, hread, ?_⟩⟩
            · rw [hcount, UInt32.toNat_ofNat']
              exact (Nat.mod_eq_of_lt (hlen.trans_lt hlt)).symm
            · rw [hbg]
              exact le_rfl
  · cases h

/-- What holds of every basket that is loaded holds of every basket. -/
theorem bgi_addBasket {dm : DiskMng} {bgi : BasketGlobalInfo} {I : BasketGlobalInfo → Prop}
    (hdm : ∀ p, I (dm.bgi p)) (hbgi : I bgi) : ∀ p, I ((dm.addBasket bgi).bgi p) := by
  have hset : ∀ p, I ((dm.setBgi bgi.basketIdx bgi).bgi p) := by
    intro p
    rw [bgi_setBgi_apply]
    split
    · exact hbgi
    · exact hdm p
  unfold DiskMng.addBasket
  simp only
  split
  · exact hset
  · exact hset

theorem openBaskets_counted (n : Nat) :
    ∀ (k : Nat) (dm : DiskMng), (∀ p, (dm.bgi p).Counted) →
      ∀ p, ((openBaskets n k dm).bgi p).Counted := by
  induction n with
  | zero => exact fun _ _ hdm => hdm
  | succ n ih =>
      intro k dm hdm
      rw [openBaskets]
      split
      · exact hdm
      · split
        · exact ih _ _ hdm
        · next bg _ =>
            refine ih _ _ (bgi_addBasket hdm (openFragments_counted _ _ _ _ rfl ?_))
            exact Nat.zero_le _

theorem scanBaskets_counted (n : Nat) :
    ∀ (k : Nat) (dm : DiskMng), (∀ p, (dm.bgi p).Counted) →
      ∀ p, ((scanBaskets n k dm).bgi p).Counted := by
  induction n with
  | zero => exact fun _ _ hdm => hdm
  | succ n ih =>
      intro k dm hdm
      rw [scanBaskets]
      split
      · exact ih _ _ hdm
      · next bgi hscan =>
          exact ih _ _ (bgi_addBasket hdm (strgBasketScan_table hscan).2.1.le)

theorem openGlobal_bgi {diskIdx : Int32} {dev : Dev} {dm : DiskMng}
    (h : (openGlobal diskIdx dev).1 = some dm) :
    dm.bgi = BasketGlobalInfo.alloc ∧ dm.diskIdx = diskIdx := by
  unfold openGlobal at h
  split at h
  · split at h
    · cases h
    · obtain rfl := Option.some.inj h
      exact ⟨rfl, rfl⟩
  · cases h

/-- A basket that is written back to the disk-global file keeps its table. -/
theorem strgDiskGlobalWrite_table (dm : DiskMng) (p : Nat) :
    ((strgDiskGlobalWrite dm).bgi p).bfList.length = (dm.bgi p).bfList.length ∧
      ((strgDiskGlobalWrite dm).bgi p).bg.fragmentNum = (dm.bgi p).bg.fragmentNum := by
  unfold strgDiskGlobalWrite
  refine List.foldlRecOn (motive := fun d : DiskMng => (d.bgi p).bfList.length = (dm.bgi p).bfList.length ∧
    (d.bgi p).bg.fragmentNum = (dm.bgi p).bg.fragmentNum) _ _ ⟨rfl, rfl⟩ fun d hd q _ => ?_
  unfold DiskMng.writeBasket
  split
  · simp only
    rw [bgi_setBgi_apply]
    split
    · next heq =>
        rw [← heq]
        exact ⟨(List.length_map _).trans hd.1, hd.2⟩
    · exact hd
  · exact hd

theorem strgDiskOpen_counted {diskIdx : Int32} {dev : Dev} {dm : DiskMng}
    (h : (strgDiskOpen diskIdx dev).1 = some dm) : ∀ p, (dm.bgi p).Counted := by
  have halloc : ∀ {d : DiskMng}, (openGlobal diskIdx dev).1 = some d → ∀ p, (d.bgi p).Counted := by
    intro d hd p
    rw [(openGlobal_bgi hd).1]
    exact counted_alloc p
  unfold strgDiskOpen at h
  split at h
  · split at h
    · split at h
      · cases h
      · next d _ hscan =>
          obtain rfl := Option.some.inj h
          intro p
          obtain ⟨hlen, hnum⟩ := strgDiskGlobalWrite_table d p
          have hloaded : (d.bgi p).Counted := by
            unfold strgDiskGlobalScan at hscan
            split at hscan
            · cases hscan
            · next hglobal =>
                obtain rfl := Option.some.inj (Prod.mk.inj hscan).1
                exact scanBaskets_counted _ 0 _ (halloc (congrArg Prod.fst hglobal)) p
          exact (hlen.trans_le hloaded).trans_eq (congrArg UInt32.toNat hnum).symm
    · unfold strgDiskGlobalOpen at h
      split at h
      · cases h
      · next hglobal =>
          obtain rfl := Option.some.inj h
          exact openBaskets_counted _ 0 _ (halloc (congrArg Prod.fst hglobal))
  · cases h

end Nvr.Storage
