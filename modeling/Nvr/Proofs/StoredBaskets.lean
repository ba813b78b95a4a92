import Nvr.Proofs.EntryTable
import Nvr.Proofs.Ownership
import Nvr.Proofs.StartEnds

/-!
# What a disk keeps in its entries

While nobody records into a basket, its entry in the disk-global file has the
header and every fragment that the basket has in memory; while a channel does,
the entry has at least the fragments in front of the one being written. `Kept`
says so of a disk, together with the layout of its baskets, and every operation
of a recorder that is not playing back preserves it as long as no call fails.

An operation changes the entry of one basket, the one that the channel has. So
each of them is a list of what it leaves alone (`Touches`) and what it does to
that basket; `Kept.touched` is the rest.
-/

namespace Nvr.Storage

open Custody Tiling

/-- The entries of the disk and the calls that reach them are the same. -/
structure SameEntries (dev dev' : Dev) : Prop where
  env : dev'.env = dev.env
  format : dev'.store.present .formatFlag = dev.store.present .formatFlag
  global : SameGlobal dev dev'

section Device

variable {dev dev' : Dev}

theorem SameEntries.refl (dev : Dev) : SameEntries dev dev := ⟨rfl, rfl, rfl⟩

theorem SameEntries.trans {dev'' : Dev} (h : SameEntries dev dev') (h' : SameEntries dev' dev'') :
    SameEntries dev dev'' where
  env := h'.env.trans h.env
  format := h'.format.trans h.format
  global := h'.global.trans h.global

theorem sameEntries_wait (dev : Dev) : SameEntries dev dev.wait := ⟨rfl, rfl, rfl⟩

theorem sameEntries_write (dev : Dev) {p : FilePath} (hp : p ≠ .global) (data : List UInt8)
    (off : Nat) : SameEntries dev (strgWrite dev p data off).2 := by
  obtain ⟨n, hcommit⟩ := strgWrite_commit dev p data off
  rw [hcommit]
  exact ⟨rfl, rfl, sameGlobal_write hp off _⟩

theorem sameEntries_createFlagFile (dev : Dev) : SameEntries dev (strgDiskCreateFlagFile dev) := by
  unfold strgDiskCreateFlagFile
  split
  · refine ⟨rfl, ?_, rfl⟩
    have hne : FilePath.formatFlag ≠ .writeFlag := by decide
    exact Function.update_of_ne hne true dev.store.present
  · exact sameEntries_wait dev

theorem sameEntries_deleteFlagFile (dev : Dev) : SameEntries dev (strgDiskDeleteFlagFile dev) := by
  refine ⟨rfl, ?_, rfl⟩
  have hne : FilePath.formatFlag ≠ .writeFlag := by decide
  exact Function.update_of_ne hne false dev.store.present

theorem sameEntries_writeFrame (dev : Dev) (idx : Nat) (pos : UInt32) (bframe : BasketFrame)
    (data : List UInt8) : SameEntries dev (strgBasketWriteFrame dev idx pos bframe data).2 := by
  have hne : FilePath.basket idx ≠ .global := by simp
  unfold strgBasketWriteFrame
  simp only
  split
  · exact (sameEntries_write dev hne _ _).trans (sameEntries_write _ hne _ _)
  · exact sameEntries_write dev hne _ _

/-! ## Operations on an open basket -/

/-- Recording into a basket leaves the entries alone. -/
theorem strgBasketWriteStart_sameEntries (b : Basket) (chn : Int32) (recordType : RecordType) :
    SameEntries b.dev (strgBasketWriteStart b chn recordType).2.dev := by
  have hne : FilePath.basket b.bgi.basketIdx ≠ .global := by simp
  unfold strgBasketWriteStart
  split
  · exact .refl _
  · split
    · exact .refl _
    · simp only
      split
      · split
        · exact (sameEntries_write _ hne _ _).trans (sameEntries_write _ hne _ _)
        · exact (sameEntries_write _ hne _ _).trans (sameEntries_write _ hne _ _)
      · exact sameEntries_write _ hne _ _

theorem strgBasketWrite_sameEntries (b : Basket) (minutes : Int32) (curTime : UInt64) (f : Frame) :
    SameEntries b.dev (strgBasketWrite b minutes curTime f).2.dev := by
  have hne : FilePath.basket b.bgi.basketIdx ≠ .global := by simp
  unfold strgBasketWrite
  split
  · exact .refl _
  · next i hcur =>
      simp only
      split
      · exact .refl _
      split
      · exact .refl _
      split
      · exact .refl _
      split
      · exact .refl _
      · set frame := strgBasketWriteFrame b.dev b.bgi.basketIdx _ _ f.data with hframe
        have hstored : SameEntries b.dev frame.2 := sameEntries_writeFrame _ _ _ _ _
        split
        · by_cases hi : f.frameType = .i
          · simp only [if_pos hi]
            have hindex := fun r n => hstored.trans (sameEntries_write frame.2 hne r n)
            split
            · exact hindex _ _
            · exact hindex _ _
          · simp only [if_neg hi, if_true]
            exact hstored
        · exact hstored

theorem strgBasketWriteStop_sameEntries (b : Basket) :
    SameEntries b.dev (strgBasketWriteStop b).dev := by
  have hne : FilePath.basket b.bgi.basketIdx ≠ .global := by simp
  unfold strgBasketWriteStop
  split
  · exact .refl _
  · exact (sameEntries_write _ hne _ _).trans (sameEntries_write _ hne _ _)

end Device

/-! ## Entries -/

/-- The place of a table has what the basket has there. -/
def RowKept (dev : Dev) (bgi : BasketGlobalInfo) (i : Nat) : Prop :=
  ∃ row, Usable bgi.bg.useCnt (rowAt dev bgi.basketIdx i) row ∧
    bgi.bfList[i]?.map BasketFragment.idled = some row.idled

/-- What holds of a basket at any time. -/
structure BasketKept (dev : Dev) (bgi : BasketGlobalInfo) : Prop where
  layout : Layout bgi
  useCnt : ∀ bf ∈ bgi.bfList, bf.useCnt = bgi.bg.useCnt
  rows : ∀ i, i + 1 < bgi.bfList.length → RowKept dev bgi i

/-- The entry has all of the basket. -/
structure Stored (dev : Dev) (bgi : BasketGlobalInfo) : Prop where
  updateFlag : bgi.updateFlag = false
  head : headAt dev bgi.basketIdx = some bgi.bg
  last : ∀ i, i + 1 = bgi.bfList.length → RowKept dev bgi i

/-- The basket's last fragment is the one being written. -/
structure Writing (bfi : BasketFileInfo) (bgi : BasketGlobalInfo) : Prop where
  curBf : bfi.curBf = some bfi.curBfIdx
  last : bfi.curBfIdx + 1 = bgi.bfList.length

/-- What a recorder keeps of a disk as long as no call fails and nobody plays
back. -/
structure Kept (dm : DiskMng) : Prop where
  env : dm.dev.env.Reliable
  format : dm.dev.store.present .formatFlag = true
  header : globalAt dm.dev = some dm.dg
  fits : diskBgOft dm.dg.basketNum.toNatClampNeg ≤ seekEnd
  once : AtMostOnce dm
  known : Known dm
  readList : dm.readList = []
  mem : ∀ p, p ∈ dm.bgiList ↔ p < dm.dg.basketNum.toNatClampNeg ∧ (headAt dm.dev p).isSome
  index : ∀ p ∈ dm.bgiList, (dm.bgi p).basketIdx = p
  basket : ∀ p ∈ dm.bgiList, BasketKept dm.dev (dm.bgi p)
  stored : ∀ p ∈ dm.bgiList, (∀ chn, dm.slot chn ≠ some p) → Stored dm.dev (dm.bgi p)
  writing : ∀ chn bfi, dm.bfiCur chn = some bfi → Writing bfi (dm.bgi bfi.bgi)

section Steps

variable {dm dm' : DiskMng} {chn : Chn} {p : Nat}

/-- The operation is about the basket `p` and nothing else on the disk. -/
structure Touches (p : Nat) (dm dm' : DiskMng) : Prop where
  env : dm'.dev.env = dm.dev.env
  format : dm'.dev.store.present .formatFlag = dm.dev.store.present .formatFlag
  header : globalAt dm'.dev = globalAt dm.dev
  dg : dm'.dg = dm.dg
  bgiList : dm'.bgiList = dm.bgiList
  readList : dm'.readList = dm.readList
  bgi : ∀ q, q ≠ p → dm'.bgi q = dm.bgi q
  head : ∀ q, q ≠ p → headAt dm'.dev q = headAt dm.dev q
  isSome : (headAt dm.dev p).isSome → (headAt dm'.dev p).isSome
  row : ∀ q, q ≠ p → ∀ i < basketFragmentNum, rowAt dm'.dev q i = rowAt dm.dev q i

theorem Touches.trans {dm'' : DiskMng} (h : Touches p dm dm') (h' : Touches p dm' dm'') :
    Touches p dm dm'' where
  env := h'.env.trans h.env
  format := h'.format.trans h.format
  header := h'.header.trans h.header
  dg := h'.dg.trans h.dg
  bgiList := h'.bgiList.trans h.bgiList
  readList := h'.readList.trans h.readList
  bgi q hq := (h'.bgi q hq).trans (h.bgi q hq)
  head q hq := (h'.head q hq).trans (h.head q hq)
  isSome hsome := h'.isSome (h.isSome hsome)
  row q hq i hi := (h'.row q hq i hi).trans (h.row q hq i hi)

/-- The basket itself may be anything. -/
theorem touches_setBgi (dm : DiskMng) (p : Nat) (bgi : BasketGlobalInfo) :
    Touches p dm (dm.setBgi p bgi) where
  env := rfl
  format := rfl
  header := rfl
  dg := rfl
  bgiList := rfl
  readList := rfl
  bgi _ hq := Function.update_of_ne hq _ _
  head _ _ := rfl
  isSome := id
  row _ _ _ _ := rfl

/-- So may the channels and the lists that baskets are taken from. -/
theorem touches_of_sameEntries (hdev : SameEntries dm.dev dm'.dev) (hdg : dm'.dg = dm.dg)
    (hlist : dm'.bgiList = dm.bgiList) (hread : dm'.readList = dm.readList)
    (hbgi : ∀ q, q ≠ p → dm'.bgi q = dm.bgi q) : Touches p dm dm' where
  env := hdev.env
  format := hdev.format
  header := hdev.global.globalAt
  dg := hdg
  bgiList := hlist
  readList := hread
  bgi := hbgi
  head q _ := hdev.global.headAt q
  isSome hsome := by rwa [hdev.global.headAt]
  row _ _ _ _ := hdev.global.rowAt _ _

/-- A row and the header of the entry are written. -/
theorem touches_putEntry (dm : DiskMng) {i : Nat} (hi : i < basketFragmentNum)
    (bf : BasketFragment) (bg : BasketGlobal) :
    Touches p dm (dm.setDev ((dm.dev.putRow p i bf).putHead p bg)) where
  env := rfl
  format := rfl
  header := (globalAt_putHead _ _ _).trans (globalAt_putRow _ _ _ _)
  dg := rfl
  bgiList := rfl
  readList := rfl
  bgi _ _ := rfl
  head q hq := (headAt_putHead_ne _ hq _).trans (headAt_putRow _ _ _ hi _)
  isSome _ := by
    rw [DiskMng.dev_setDev, headAt_putHead]
    rfl
  row q hq j hj := (rowAt_putHead _ _ _ hj _).trans (rowAt_putRow_ne _ hi hj (.inl hq) _)

/-! ## A basket after an operation -/

/-- Where the entries of a disk are, a write reaches them. -/
theorem Kept.diskBfOft_lt (h : Kept dm) (hp : p ∈ dm.bgiList) {i : Nat}
    (hi : i < basketFragmentNum) : diskBfOft p i < seekEnd := by
  have hfits := h.fits
  have hlt := ((h.mem p).1 hp).1
  have hnum : basketFragmentNum = 1024 := rfl
  rw [diskBgOft_eq] at hfits
  rw [diskBfOft_eq]
  omega

theorem writeEntry_reliable (dm : DiskMng) (hdev : dm.dev.env.Reliable) (hidx : (dm.bgi p).basketIdx = p) {i : Nat}
    (hoft : diskBfOft p i < seekEnd) (bf : BasketFragment) :
    dm.writeEntry p i bf = dm.setDev ((dm.dev.putRow p i bf).putHead p (dm.bgi p).bg) := by
  have hoft' : diskBgOft p < seekEnd := by
    rw [diskBfOft_eq] at hoft
    rw [diskBgOft_eq]
    omega
  unfold DiskMng.writeEntry strgDiskWriteBf strgDiskWriteBg
  simp only
  rw [hidx, strgWrite_reliable hdev _ _ hoft, strgWrite_reliable (by exact hdev) _ _ hoft']
  rfl

/-- A row is kept when what it is compared with is the same. -/
theorem RowKept.of_eq {dev dev' : Dev} {bgi bgi' : BasketGlobalInfo} {i : Nat}
    (h : RowKept dev bgi i) (hidx : bgi'.basketIdx = bgi.basketIdx)
    (huse : bgi'.bg.useCnt = bgi.bg.useCnt)
    (hrow : rowAt dev' bgi.basketIdx i = rowAt dev bgi.basketIdx i)
    (hbf : bgi'.bfList[i]? = bgi.bfList[i]?) : RowKept dev' bgi' i := by
  obtain ⟨row, husable, heq⟩ := h
  refine ⟨row, ?_, hbf ▸ heq⟩
  rw [hidx, hrow, huse]
  exact husable

/-- The last fragment of the basket has changed. -/
theorem BasketKept.modify {dev dev' : Dev} {bgi bgi' : BasketGlobalInfo} {i : Nat}
    {g : BasketFragment → BasketFragment} (h : BasketKept dev bgi) (hlayout : Layout bgi')
    (hidx : bgi'.basketIdx = bgi.basketIdx) (huse : bgi'.bg.useCnt = bgi.bg.useCnt)
    (hi : i + 1 = bgi.bfList.length) (hlist : bgi'.bfList = bgi.bfList.modify i g)
    (hg : ∀ bf, (g bf).useCnt = bf.useCnt)
    (hrow : ∀ j, j < i → rowAt dev' bgi.basketIdx j = rowAt dev bgi.basketIdx j) :
    BasketKept dev' bgi' where
  layout := hlayout
  useCnt bf hbf := by
    obtain ⟨before, last, hbefore, -, -, hmodify⟩ := modify_last hi default
    rw [hlist, hmodify, List.mem_append, List.mem_singleton] at hbf
    rw [huse]
    obtain hbf | rfl := hbf
    · exact h.useCnt bf (by simp [hbefore, hbf])
    · exact (hg last).trans (h.useCnt last (by simp [hbefore]))
  rows j hj := by
    rw [hlist, List.length_modify] at hj
    have hji : j ≠ i := by omega
    refine (h.rows j hj).of_eq hidx huse (hrow j (by omega)) ?_
    rw [hlist, List.getElem?_modify_ne _ _ (Ne.symm hji)]

/-- What is left to show of an operation on the basket that a channel has, or is
given. -/
theorem Kept.touched (h : Kept dm) (chn : Chn) (htouch : Touches p dm dm') (hp : p ∈ dm.bgiList)
    (honce : AtMostOnce dm') (hknown : Known dm')
    (hbefore : ∀ q, dm.slot chn = some q → q = p) (hother : ∀ c, c ≠ chn → dm.slot c ≠ some p)
    (hcur : ∀ c, c ≠ chn → dm'.bfiCur c = dm.bfiCur c)
    (hidx : (dm'.bgi p).basketIdx = p) (hbasket : BasketKept dm'.dev (dm'.bgi p))
    (hafter : dm'.bfiCur chn = none ∧ Stored dm'.dev (dm'.bgi p) ∨
      ∃ bfi, dm'.bfiCur chn = some bfi ∧ bfi.bgi = p ∧ Writing bfi (dm'.bgi p)) : Kept dm' where
  env := by
    rw [htouch.env]
    exact h.env
  format := htouch.format.trans h.format
  header := by
    rw [htouch.header, htouch.dg]
    exact h.header
  fits := by
    rw [htouch.dg]
    exact h.fits
  once := honce
  known := hknown
  readList := htouch.readList.trans h.readList
  mem q := by
    rw [htouch.bgiList, h.mem q, htouch.dg]
    by_cases hq : q = p
    · subst hq
      have hsome := ((h.mem q).1 hp).2
      simp [hsome, htouch.isSome hsome]
    · rw [htouch.head q hq]
  index q hq := by
    by_cases hqp : q = p
    · subst hqp
      exact hidx
    · rw [htouch.bgi q hqp]
      exact h.index q (htouch.bgiList ▸ hq)
  basket q hq := by
    rw [htouch.bgiList] at hq
    by_cases hqp : q = p
    · subst hqp
      exact hbasket
    · have hkept := h.basket q hq
      rw [htouch.bgi q hqp]
      refine ⟨hkept.layout, hkept.useCnt, fun i hi => (hkept.rows i hi).of_eq rfl rfl ?_ rfl⟩
      have hfew := hkept.layout.fragmentNum_le
      rw [h.index q hq]
      exact htouch.row q hqp i (by omega)
  stored q hq hfree := by
    rw [htouch.bgiList] at hq
    by_cases hqp : q = p
    · subst hqp
      obtain ⟨-, hstored⟩ | ⟨bfi, hbfi, heq, -⟩ := hafter
      · exact hstored
      · have hslot : dm'.slot chn = some q := by
          rw [DiskMng.slot, hbfi, Option.map_some, heq]
        exact absurd hslot (hfree chn)
    · have hfree' : ∀ c, dm.slot c ≠ some q := by
        intro c hslot
        by_cases hc : c = chn
        · subst hc
          exact hqp (hbefore q hslot)
        · refine hfree c ?_
          rw [DiskMng.slot, hcur c hc]
          exact hslot
      have hstored := h.stored q hq hfree'
      have hfew := (h.basket q hq).layout.fragmentNum_le
      rw [htouch.bgi q hqp]
      refine ⟨hstored.updateFlag, ?_, fun i hi => (hstored.last i hi).of_eq rfl rfl ?_ rfl⟩
      · rw [h.index q hq, htouch.head q hqp]
        exact (congrArg _ (h.index q hq)).symm.trans hstored.head
      · rw [h.index q hq]
        exact htouch.row q hqp i (by omega)
  writing c bfi hbfi := by
    by_cases hc : c = chn
    · subst hc
      obtain ⟨hnone, -⟩ | ⟨bfi', hbfi', heq, hwriting⟩ := hafter
      · rw [hnone] at hbfi
        cases hbfi
      · rw [hbfi'] at hbfi
        obtain rfl := Option.some.inj hbfi
        rw [heq]
        exact hwriting
    · rw [hcur c hc] at hbfi
      have hne : bfi.bgi ≠ p := by
        intro heq
        refine hother c hc ?_
        rw [DiskMng.slot, hbfi, Option.map_some, heq]
      rw [htouch.bgi _ hne]
      exact h.writing c bfi hbfi

/-! ## The basket of a channel -/

theorem Layout.addType {bgi : BasketGlobalInfo} {i : Nat} (h : Layout bgi)
    (hi : i + 1 = bgi.bfList.length) (type : RecordType) : Layout (bgi.addType i type) :=
  h.modify hi rfl (fun _ => ⟨rfl, rfl, rfl, rfl⟩) rfl rfl rfl

/-- What is known of the basket that a channel has. -/
structure Taken (dm : DiskMng) (chn : Chn) (p : Nat) : Prop where
  mem : p ∈ dm.bgiList
  only : ∀ q, dm.slot chn = some q → q = p
  other : ∀ c, c ≠ chn → dm.slot c ≠ some p

theorem Kept.taken (h : Kept dm) {bfi : BasketFileInfo} (hcur : dm.bfiCur chn = some bfi) :
    Taken dm chn bfi.bgi := by
  have hslot : dm.slot chn = some bfi.bgi := by rw [DiskMng.slot, hcur, Option.map_some]
  have hpos : 0 < slotCount dm.slot bfi.bgi := slotCount_pos.2 ⟨chn, hslot⟩
  refine ⟨h.known.places _ ?_, fun q hq => ?_, fun c hc hslot' => ?_⟩
  · rw [DiskMng.places]
    omega
  · rw [hslot] at hq
    exact (Option.some.inj hq).symm
  · have honce := h.once.places bfi.bgi
    rw [DiskMng.places] at honce
    exact hc (slot_unique (by omega) hslot' hslot)

/-- A basket in one of the two lists is in no channel's hands. -/
theorem Kept.listed (h : Kept dm) (hp : p ∈ dm.bgiNew ∨ p ∈ dm.bgiOld) :
    p ∈ dm.bgiList ∧ ∀ chn, dm.slot chn ≠ some p := by
  have hpos : 0 < dm.bgiNew.count p + dm.bgiOld.count p := by
    obtain hp | hp := hp
    · exact Nat.add_pos_left (List.count_pos_iff.2 hp) _
    · exact Nat.add_pos_right _ (List.count_pos_iff.2 hp)
  have honce := h.once.places p
  rw [DiskMng.places] at honce
  refine ⟨h.known.places p ?_, slotCount_eq_zero.1 (by omega)⟩
  rw [DiskMng.places]
  omega

/-- Something is done to the open basket of a channel, and its entry is left
alone. -/
theorem touches_putBasket (dm : DiskMng) (chn : Chn) {b : Basket} (hfile : b.bfi.bgi = p)
    (hdev : SameEntries dm.dev b.dev) : Touches p dm (dm.putBasket chn b) :=
  touches_of_sameEntries hdev rfl rfl rfl fun _ hq =>
    Function.update_of_ne (hfile ▸ hq) _ _

theorem putBasket_bgi (dm : DiskMng) (chn : Chn) {b : Basket} (hfile : b.bfi.bgi = p) :
    (dm.putBasket chn b).bgi p = b.bgi := by
  subst hfile
  exact Function.update_self _ _ _

theorem putBasket_bfiCur (dm : DiskMng) (chn : Chn) (b : Basket) :
    (dm.putBasket chn b).bfiCur chn = some b.bfi := Function.update_self _ _ _

theorem putBasket_bfiCur_ne (dm : DiskMng) {chn c : Chn} (hc : c ≠ chn) (b : Basket) :
    (dm.putBasket chn b).bfiCur c = dm.bfiCur c := Function.update_of_ne hc _ _

/-! ## Writing -/

theorem strgBasketWrite_kept {b : Basket} (hkept : BasketKept b.dev b.bgi)
    (hwriting : Writing b.bfi b.bgi) (minutes : Int32) (curTime : UInt64) (f : Frame) :
    BasketKept (strgBasketWrite b minutes curTime f).2.dev
        (strgBasketWrite b minutes curTime f).2.bgi ∧
      Writing (strgBasketWrite b minutes curTime f).2.bfi
        (strgBasketWrite b minutes curTime f).2.bgi := by
  have hrow := (strgBasketWrite_sameEntries b minutes curTime f).global.rowAt b.bgi.basketIdx
  have hsame : ∀ bgi', bgi' = b.bgi ∨ bgi' = b.bgi.setFull →
      BasketKept (strgBasketWrite b minutes curTime f).2.dev bgi' ∧
        bgi'.bfList = b.bgi.bfList := by
    rintro _ (rfl | rfl)
    · exact ⟨hkept.modify hkept.layout rfl rfl hwriting.last (List.modify_id _ _).symm
        (fun _ => rfl) fun j _ => hrow j, rfl⟩
    · exact ⟨hkept.modify hkept.layout.setFull rfl rfl hwriting.last (List.modify_id _ _).symm
        (fun _ => rfl) fun j _ => hrow j, rfl⟩
  rcases strgBasketWrite_cases b minutes curTime f with ⟨-, hbgi, hbfi⟩ | ⟨i, haccepts, heq⟩
  · obtain ⟨hkept', hlist⟩ := hsame _ hbgi
    refine ⟨hkept', ?_, ?_⟩
    · obtain hbfi | hbfi := hbfi
      · rw [hbfi]
        exact hwriting.curBf
      · rw [hbfi, stampFrame_curBf, stampFrame_curBfIdx]
        exact hwriting.curBf
    · rw [hlist]
      obtain hbfi | hbfi := hbfi
      · rw [hbfi]
        exact hwriting.last
      · rw [hbfi, stampFrame_curBfIdx]
        exact hwriting.last
  · have hi : i = b.bfi.curBfIdx := by
      have hcur := haccepts.cur
      rw [hwriting.curBf] at hcur
      exact (Option.some.inj hcur).symm
    subst hi
    rw [heq] at hrow ⊢
    refine ⟨hkept.modify (hkept.layout.takeFrame hwriting.last haccepts.iframeRoom
      haccepts.frameRoom _) rfl rfl hwriting.last rfl (fun _ => rfl) fun j _ => hrow j, ?_, ?_⟩
    · rw [stampFrame_curBf, stampFrame_curBfIdx]
      exact hwriting.curBf
    · rw [stampFrame_curBfIdx]
      show _ = (b.bgi.bfList.modify _ _).length
      rw [List.length_modify]
      exact hwriting.last

theorem Kept.write (h : Kept dm) (chn : Chn) (minutes : Int32) (curTime : UInt64) (f : Frame) :
    Kept (strgDiskWrite dm chn minutes curTime f).2 := by
  have hop : DiskOp.Does dm (.write chn minutes curTime f)
      (strgDiskWrite dm chn minutes curTime f).2 := rfl
  have honce := h.once.steps hop.anyhow
  have hknown := h.known.steps hop.anyhow
  clear hop
  unfold strgDiskWrite at honce hknown ⊢
  cases hcur : dm.bfiCur chn with
  | none => exact h
  | some bfi =>
    rw [hcur] at honce hknown
    simp only at honce hknown ⊢
    have htaken := h.taken hcur
    set b := (strgBasketWrite (dm.basket bfi) minutes curTime f).2 with hb
    have hfile : b.bfi.bgi = bfi.bgi :=
      (strgBasketWrite_keeps (dm.basket bfi) minutes curTime f).file
    have hdev : SameEntries dm.dev b.dev :=
      strgBasketWrite_sameEntries (dm.basket bfi) minutes curTime f
    obtain ⟨hkept, hwriting⟩ := strgBasketWrite_kept (b := dm.basket bfi)
      (h.basket _ htaken.mem) (h.writing _ _ hcur) minutes curTime f
    -- the sizes of the disk change besides, which nothing here looks at
    have hput : ∀ n, AtMostOnce { dm.putBasket chn b with freeValidSize := n } →
        Known { dm.putBasket chn b with freeValidSize := n } →
        Kept { dm.putBasket chn b with freeValidSize := n } := by
      intro n honce hknown
      have hsize : Touches bfi.bgi (dm.putBasket chn b)
          { dm.putBasket chn b with freeValidSize := n } :=
        touches_of_sameEntries (.refl _) rfl rfl rfl fun _ _ => rfl
      have htouch := (touches_putBasket dm chn hfile hdev).trans hsize
      have hbgi : ({ dm.putBasket chn b with freeValidSize := n } : DiskMng).bgi bfi.bgi = b.bgi :=
        putBasket_bgi dm chn hfile
      refine h.touched chn htouch htaken.mem honce hknown htaken.only htaken.other
        (fun c hc => putBasket_bfiCur_ne dm hc b) ?_ ?_
        (.inr ⟨b.bfi, putBasket_bfiCur dm chn b, hfile, ?_⟩)
      · rw [hbgi]
        exact (strgBasketWrite_keeps (dm.basket bfi) minutes curTime f).bgi.basketIdx.trans
          (h.index _ htaken.mem)
      · rw [hbgi]
        exact hkept
      · rw [hbgi]
        exact hwriting
    split at honce
    · next hret =>
        rw [if_pos hret] at hknown ⊢
        exact hput _ honce hknown
    · next hret =>
        rw [if_neg hret] at hknown ⊢
        exact hput _ honce hknown

/-! ## The entry of the basket -/

/-- The other rows of the entry that is written. -/
theorem rowAt_putEntry (dev : Dev) {p i j : Nat} (hi : i < basketFragmentNum) (hji : j < i)
    (bf : BasketFragment) (bg : BasketGlobal) :
    rowAt ((dev.putRow p i bf).putHead p bg) p j = rowAt dev p j := by
  rw [rowAt_putHead _ _ _ (by omega), rowAt_putRow_ne _ hi (by omega) (.inr (by omega))]

theorem Kept.setType (h : Kept dm) (chn : Chn) (type : RecordType) :
    Kept (strgDiskWriteSetType dm chn type).2 := by
  have hop : DiskOp.Does dm (.writeSetType chn type) (strgDiskWriteSetType dm chn type).2 := rfl
  have honce := h.once.steps hop.anyhow
  have hknown := h.known.steps hop.anyhow
  clear hop
  unfold strgDiskWriteSetType at honce hknown ⊢
  cases hcur : dm.bfiCur chn with
  | none => exact h
  | some bfi =>
    have htaken := h.taken hcur
    have hwriting := h.writing _ _ hcur
    have hkept := h.basket _ htaken.mem
    have hidx := h.index _ htaken.mem
    rw [hcur] at honce hknown
    simp only [hwriting.curBf] at honce hknown ⊢
    split
    · next hnew =>
        rw [if_pos hnew] at honce hknown
        have hi : bfi.curBfIdx < basketFragmentNum := by
          have hfew := hkept.layout.fragmentNum_le
          have hlast := hwriting.last
          omega
        set bgi := (dm.bgi bfi.bgi).addType bfi.curBfIdx type with hbgi
        have hself : (dm.setBgi bfi.bgi bgi).bgi bfi.bgi = bgi := Function.update_self _ _ _
        have hidx' : bgi.basketIdx = bfi.bgi := hidx
        rw [writeEntry_reliable (dm.setBgi bfi.bgi bgi) h.env (by rw [hself]; exact hidx')
          (h.diskBfOft_lt htaken.mem hi)]
          at honce hknown ⊢
        refine h.touched chn ((touches_setBgi dm bfi.bgi bgi).trans (touches_putEntry _ hi _ _))
          htaken.mem honce hknown htaken.only htaken.other (fun _ _ => rfl) ?_ ?_
          (.inr ⟨bfi, hcur, rfl, hwriting.curBf, ?_⟩)
        · rw [DiskMng.bgi_setDev, hself]
          exact hidx'
        · rw [DiskMng.bgi_setDev, hself]
          refine hkept.modify (hkept.layout.addType hwriting.last type) rfl rfl hwriting.last rfl
            (fun _ => rfl) fun j hj => ?_
          rw [hidx]
          exact rowAt_putEntry _ hi hj _ _
        · rw [DiskMng.bgi_setDev, hself, hwriting.last]
          exact (List.length_modify _ _ _).symm
    · exact h

/-! ## Stopping -/

theorem touches_free (dm : DiskMng) (chn : Chn) : Touches p dm (strgDiskFreeBasket dm chn) := by
  unfold strgDiskFreeBasket
  split
  · exact touches_of_sameEntries (.refl _) rfl rfl rfl fun _ _ => rfl
  · split
    · exact touches_of_sameEntries (.refl _) rfl rfl rfl fun _ _ => rfl
    · exact touches_of_sameEntries (.refl _) rfl rfl rfl fun _ _ => rfl

theorem strgDiskFreeBasket_same (dm : DiskMng) (chn : Chn) :
    (strgDiskFreeBasket dm chn).bgi = dm.bgi ∧ (strgDiskFreeBasket dm chn).dev = dm.dev ∧
      ∀ c, c ≠ chn → (strgDiskFreeBasket dm chn).bfiCur c = dm.bfiCur c := by
  unfold strgDiskFreeBasket
  split
  · exact ⟨rfl, rfl, fun _ _ => rfl⟩
  · split
    · exact ⟨rfl, rfl, fun _ hc => Function.update_of_ne hc _ _⟩
    · exact ⟨rfl, rfl, fun _ hc => Function.update_of_ne hc _ _⟩

/-- A basket whose last fragment has been closed, with its entry. -/
theorem stored_closed {dev : Dev} {bgi : BasketGlobalInfo} {i : Nat} (hkept : BasketKept dev bgi)
    (hi : i + 1 = bgi.bfList.length) :
    Stored ((dev.putRow bgi.basketIdx i ((bgi.closeFragment i).bfList.getD i default)).putHead
      bgi.basketIdx (bgi.closeFragment i).bg)
      { bgi.closeFragment i with updateFlag := false } where
  updateFlag := rfl
  head := headAt_putHead _ _ _
  last j hj := by
    have hlen : (bgi.closeFragment i).bfList.length = bgi.bfList.length := List.length_modify _ _ _
    obtain rfl : j = i := by
      have hj' : j + 1 = (bgi.closeFragment i).bfList.length := hj
      omega
    have hfew := hkept.layout.fragmentNum_le
    have hget : j < bgi.bfList.length := by omega
    have hclosed : (bgi.closeFragment j).bfList[j]? = some (bgi.bfList[j]).clearWriting := by
      show (bgi.bfList.modify j _)[j]? = _
      rw [List.getElem?_modify_eq, List.getElem?_eq_getElem hget]
      rfl
    have hrow : (bgi.closeFragment j).bfList.getD j default = (bgi.bfList[j]).clearWriting := by
      rw [List.getD_eq_getElem?_getD, hclosed, Option.getD_some]
    refine ⟨(bgi.bfList[j]).clearWriting, ⟨?_, ?_, Flag.and_not_and_self _ _⟩, ?_⟩
    · show rowAt _ bgi.basketIdx j = _
      rw [rowAt_putHead _ _ _ (by omega), hrow, rowAt_putRow]
    · exact hkept.useCnt (bgi.bfList[j]) (List.getElem_mem hget)
    · show ((bgi.closeFragment j).bfList[j]?).map _ = _
      rw [hclosed, Option.map_some]

theorem Kept.stop (h : Kept dm) (chn : Chn) : Kept (strgDiskWriteStop dm chn) := by
  have hop : DiskOp.Does dm (.writeStop chn) (strgDiskWriteStop dm chn) := rfl
  have honce := h.once.steps hop.anyhow
  have hknown := h.known.steps hop.anyhow
  clear hop
  unfold strgDiskWriteStop at honce hknown ⊢
  cases hcur : dm.bfiCur chn with
  | none => exact h
  | some bfi =>
    have htaken := h.taken hcur
    have hwriting := h.writing _ _ hcur
    have hkept := h.basket _ htaken.mem
    have hidx := h.index _ htaken.mem
    rw [hcur] at honce hknown
    simp only [hwriting.curBf] at honce hknown ⊢
    have hi : bfi.curBfIdx < basketFragmentNum := by
      have hfew := hkept.layout.fragmentNum_le
      have hlast := hwriting.last
      omega
    have hstop := strgBasketWriteStop_cur (b := dm.basket bfi) hwriting.curBf
    set b := strgBasketWriteStop (dm.basket bfi) with hb
    have hfile : b.bfi.bgi = bfi.bgi := by rw [hstop]; rfl
    have hbgi : b.bgi = (dm.bgi bfi.bgi).closeFragment bfi.curBfIdx := by rw [hstop]; rfl
    have hdev : SameEntries dm.dev b.dev := strgBasketWriteStop_sameEntries (dm.basket bfi)
    have hput := putBasket_bgi dm chn hfile
    have henv : (dm.putBasket chn b).dev.env.Reliable := by
      show b.dev.env.Reliable
      rw [hdev.env]
      exact h.env
    rw [writeEntry_reliable _ henv (by rw [hput, hbgi]; exact hidx) (h.diskBfOft_lt htaken.mem hi),
      hput] at honce hknown ⊢
    set d := (dm.putBasket chn b).setDev _ with hd
    obtain ⟨hfreeBgi, hfreeDev, hfreeCur⟩ :=
      strgDiskFreeBasket_same (d.clearUpdate bfi.bgi) chn
    have hclosed : (strgDiskFreeBasket (d.clearUpdate bfi.bgi) chn).bgi bfi.bgi =
        { (dm.bgi bfi.bgi).closeFragment bfi.curBfIdx with updateFlag := false } := by
      rw [hfreeBgi]
      show Function.update d.bgi bfi.bgi _ bfi.bgi = _
      rw [Function.update_self, hd, DiskMng.bgi_setDev, hput, hbgi]
    have htouch : Touches bfi.bgi dm (strgDiskFreeBasket (d.clearUpdate bfi.bgi) chn) :=
      (((touches_putBasket dm chn hfile hdev).trans (touches_putEntry _ hi _ _)).trans
        (touches_setBgi _ _ _)).trans (touches_free _ _)
    have hkept' : BasketKept b.dev (dm.bgi bfi.bgi) :=
      hkept.modify hkept.layout rfl rfl hwriting.last (List.modify_id _ _).symm (fun _ => rfl)
        fun j _ => hdev.global.rowAt _ _
    refine h.touched chn htouch htaken.mem honce hknown htaken.only htaken.other (fun c hc => ?_) ?_ ?_
      (.inl ⟨strgDiskFreeBasket_cur _, ?_⟩)
    · rw [hfreeCur c hc]
      exact putBasket_bfiCur_ne dm hc b
    · rw [hclosed]
      exact hidx
    · rw [hclosed, hfreeDev]
      refine hkept'.modify (hkept.layout.modify hwriting.last rfl (fun _ => ⟨rfl, rfl, rfl, rfl⟩)
        rfl rfl rfl) rfl rfl hwriting.last rfl (fun _ => rfl) fun j hj => ?_
      rw [hidx]
      exact rowAt_putEntry _ hi hj _ _
    · rw [hclosed, hfreeDev]
      have hstored := stored_closed hkept' hwriting.last
      rw [hidx] at hstored
      rw [← hbgi] at hstored ⊢
      exact hstored

/-! ## Starting -/

theorem strgBasketOpen_reliable {dev : Dev} (h : dev.env.Reliable) (p : Nat) :
    strgBasketOpen dev p = (some (.fresh p), dev.wait) := by
  rw [strgBasketOpen, if_pos (h.openOk _)]

theorem allocNew_reliable (hdev : dm.dev.env.Reliable) (chn : Chn) (l : List Nat) :
    allocNew chn l dm = (none, dm) ∨ ∃ p ∈ l, allocFits chn (dm.bgi p) = true ∧
      allocNew chn l dm = (some (.fresh p), (dm.setDev dm.dev.wait).takeNew chn (.fresh p)) := by
  induction l with
  | nil => exact .inl rfl
  | cons p rest ih =>
    rw [allocNew]
    split
    · next hfits =>
        rw [strgBasketOpen_reliable hdev]
        exact .inr ⟨p, List.mem_cons_self, hfits, rfl⟩
    · obtain hnone | ⟨q, hq, htake⟩ := ih
      · exact .inl hnone
      · exact .inr ⟨q, List.mem_cons_of_mem _ hq, htake⟩

theorem allocOld_reliable (hdev : dm.dev.env.Reliable) (chn : Chn) (overwrite : UInt32)
    (l : List Nat) :
    allocOld chn overwrite l dm = (none, dm) ∨ ∃ p ∈ l, allocOld chn overwrite l dm =
      (some (.fresh p),
        ((dm.setDev dm.dev.wait).resetBasket p (.fresh p) chn overwrite).2.takeOld chn (.fresh p)) := by
  induction l with
  | nil => exact .inl rfl
  | cons p rest ih =>
    rw [allocOld]
    split
    · rw [strgBasketOpen_reliable hdev]
      have hseek : basketGlobalOft < seekEnd := by decide
      have hret : ¬((dm.setDev dm.dev.wait).resetBasket p (.fresh p) chn overwrite).1 < 0 := by
        unfold DiskMng.resetBasket strgBasketReset strgBasketWriteGlobal
        simp only
        rw [strgWrite_reliable (by exact hdev) _ _ hseek, if_pos rfl]
        decide
      simp only
      rw [if_neg hret]
      exact .inr ⟨p, List.mem_cons_self, rfl⟩
    · obtain hnone | ⟨q, hq, htake⟩ := ih
      · exact .inl hnone
      · exact .inr ⟨q, List.mem_cons_of_mem _ hq, htake⟩

/-- A basket that the channel has been given and not begun to write. -/
structure Given (dm : DiskMng) (chn : Chn) (p : Nat) (t : DiskMng) : Prop where
  mem : p ∈ dm.bgiList
  free : ∀ c, dm.slot c ≠ some p
  touches : Touches p dm t
  cur : ∀ c, c ≠ chn → t.bfiCur c = dm.bfiCur c
  index : (t.bgi p).basketIdx = p
  fits : allocFits chn (t.bgi p) = true
  layout : Layout (t.bgi p)
  useCnt : ∀ bf ∈ (t.bgi p).bfList, bf.useCnt = (t.bgi p).bg.useCnt
  rows : ∀ i < (t.bgi p).bfList.length, RowKept t.dev (t.bgi p) i

/-- A basket in nobody's hands has all its rows in its entry. -/
theorem Kept.row (h : Kept dm) (hp : p ∈ dm.bgiList) (hfree : ∀ c, dm.slot c ≠ some p) {i : Nat}
    (hi : i < (dm.bgi p).bfList.length) : RowKept dm.dev (dm.bgi p) i := by
  by_cases hlast : i + 1 = (dm.bgi p).bfList.length
  · exact (h.stored p hp hfree).last i hlast
  · exact (h.basket p hp).rows i (by omega)

theorem Kept.alloc (h : Kept dm) (chn : Chn) (overwrite : UInt32) :
    strgDiskAllocBasket dm chn overwrite = (none, dm) ∨
      ∃ p t, Given dm chn p t ∧ strgDiskAllocBasket dm chn overwrite = (some (.fresh p), t) := by
  unfold strgDiskAllocBasket
  obtain hnone | ⟨p, hp, hfits, htake⟩ := allocNew_reliable h.env chn dm.bgiNew.reverse
  · rw [hnone]
    simp only
    obtain hnone' | ⟨p, hp, htake⟩ := allocOld_reliable h.env chn overwrite dm.bgiOld
    · exact .inl hnone'
    · obtain ⟨hmem, hfree⟩ := h.listed (.inr hp)
      refine .inr ⟨p, _, ?_, htake⟩
      set t := ((dm.setDev dm.dev.wait).resetBasket p (.fresh p) chn overwrite).2.takeOld chn
        (.fresh p) with ht
      have hbgi : t.bgi p = (dm.bgi p).reset (chnWord chn) dm.dg.useCnt :=
        resetBasket_bgi (dm.setDev dm.dev.wait) p (.fresh p)
      have hne : FilePath.basket (dm.bgi p).basketIdx ≠ .global := by simp
      refine ⟨hmem, hfree, touches_of_sameEntries ?_ rfl rfl rfl fun q hq => ?_,
        fun c hc => Function.update_of_ne hc _ _, ?_, ?_, ?_, ?_, ?_⟩
      · exact (sameEntries_wait dm.dev).trans (sameEntries_write _ hne _ _)
      · exact Function.update_of_ne hq _ _
      · rw [hbgi]
        exact h.index p hmem
      · rw [hbgi]
        exact allocFits_reset _ _ _
      · rw [hbgi]
        exact layout_reset _ _ _
      · rw [hbgi]
        intro bf hbf
        cases hbf
      · rw [hbgi]
        intro i hi
        cases hi
  · rw [htake]
    have hp' : p ∈ dm.bgiNew := List.mem_reverse.1 hp
    obtain ⟨hmem, hfree⟩ := h.listed (.inl hp')
    have hkept := h.basket p hmem
    refine .inr ⟨p, (dm.setDev dm.dev.wait).takeNew chn (.fresh p), ⟨hmem, hfree, ?_, fun c hc => Function.update_of_ne hc _ _,
      h.index p hmem, hfits, hkept.layout, hkept.useCnt, fun i hi => ?_⟩, rfl⟩
    · exact touches_of_sameEntries (sameEntries_wait dm.dev) rfl rfl rfl fun _ _ => rfl
    · exact (h.row hmem hfree hi).of_eq rfl rfl rfl rfl

/-- A basket that fits starts. -/
theorem strgBasketWriteStart_reliable {b : Basket} (hdev : b.dev.env.Reliable)
    (hfits : allocFits chn b.bgi = true) (hlayout : Layout b.bgi) (recordType : RecordType) :
    ∃ bf, strgBasketCreateFragment b.bgi recordType b.dev.now = some bf ∧
      (strgBasketWriteStart b (chnWord chn) recordType).1 = 0 ∧
      (strgBasketWriteStart b (chnWord chn) recordType).2.bgi =
        b.bgi.addFragment bf.setWriting recordType ∧
      (strgBasketWriteStart b (chnWord chn) recordType).2.bfi =
        { b.bfi with curBf := some b.bgi.bfList.length, curBfIdx := b.bgi.bfList.length } := by
  have hret : (strgBasketWriteStart b (chnWord chn) recordType).1 ≠ -1 := by
    obtain ⟨hret, -⟩ | ⟨-, -, -, n, -, hrefused⟩ := strgBasketWriteStart_fits hfits recordType
    · rw [hret]
      decide
    · have hfew := hlayout.fragmentNum_le
      have hnum : basketFragmentNum = 1024 := rfl
      have hseek : fragmentOft b.bgi.bfList.length < seekEnd := by
        have hoft : fragmentOft b.bgi.bfList.length = 40 + 64 * b.bgi.bfList.length := rfl
        have hend : seekEnd = 2147483648 := rfl
        omega
      have hseek' : basketGlobalOft < seekEnd := by decide
      obtain (hoff | ⟨data, hcut⟩) | (hoff | ⟨data, hcut⟩) := hrefused
      · omega
      · exact absurd (hdev.writeCut _ _ _ _) hcut
      · omega
      · exact absurd (hdev.writeCut _ _ _ _) hcut
  obtain ⟨hfails, -⟩ | ⟨bf, hbf, -, heq⟩ :=
    strgBasketWriteStart_cases b (chnWord chn) recordType
  · exact absurd hfails hret
  · rw [heq]
    exact ⟨bf, hbf, rfl, rfl, rfl⟩

theorem sameEntries_flagOnce (dm : DiskMng) : SameEntries dm.dev dm.flagOnce.dev := by
  unfold DiskMng.flagOnce
  split
  · exact .refl _
  · exact sameEntries_createFlagFile _

theorem touches_flagOnce (dm : DiskMng) : Touches p dm dm.flagOnce := by
  refine touches_of_sameEntries (sameEntries_flagOnce dm) ?_ ?_ ?_ fun q _ => by rw [bgi_flagOnce]
  all_goals
    unfold DiskMng.flagOnce
    split <;> rfl

/-- A basket with a fragment more, the one that is being written. -/
theorem BasketKept.addFragment {dev dev' : Dev} {bgi : BasketGlobalInfo} {bf : BasketFragment}
    {recordType : RecordType} {now : Int32} (hlayout : Layout bgi)
    (huse : ∀ bf ∈ bgi.bfList, bf.useCnt = bgi.bg.useCnt)
    (hrows : ∀ i < bgi.bfList.length, RowKept dev bgi i)
    (hbf : strgBasketCreateFragment bgi recordType now = some bf)
    (hrow : ∀ i < bgi.bfList.length, rowAt dev' bgi.basketIdx i = rowAt dev bgi.basketIdx i) :
    BasketKept dev' (bgi.addFragment bf.setWriting recordType) where
  layout := hlayout.addFragment hbf
  useCnt x hx := by
    have hnew : bf.useCnt = bgi.bg.useCnt := by
      unfold strgBasketCreateFragment at hbf
      repeat' split at hbf
      all_goals first
        | cases hbf; done
        | (obtain rfl := Option.some.inj hbf; rfl)
    obtain hx | hx := List.mem_append.1 hx
    · exact huse x hx
    · rw [List.mem_singleton.1 hx]
      exact hnew
  rows i hi := by
    have hi' : i < bgi.bfList.length := by
      have hlen : (bgi.addFragment bf.setWriting recordType).bfList.length =
          bgi.bfList.length + 1 := List.length_append
      omega
    exact (hrows i hi').of_eq rfl rfl (hrow i hi') (List.getElem?_append_left hi')

theorem Given.start {t : DiskMng} (h : Kept dm) (hgiven : Given dm chn p t)
    (hcur : dm.bfiCur chn = none) (recordType : RecordType) {dm' : DiskMng}
    (hstart : dm' = t.recordStart chn
      (strgBasketWriteStart (t.basket (.fresh p)) (chnWord chn) recordType).2)
    (honce : AtMostOnce dm') (hknown : Known dm') : Kept dm' := by
  have henv : t.dev.env.Reliable := hgiven.touches.env ▸ h.env
  obtain ⟨bf, hbf, -, hbgi, hbfi⟩ := strgBasketWriteStart_reliable (b := t.basket (.fresh p))
    henv hgiven.fits hgiven.layout recordType
  have hdev : SameEntries t.dev
      (strgBasketWriteStart (t.basket (.fresh p)) (chnWord chn) recordType).2.dev :=
    strgBasketWriteStart_sameEntries (t.basket (.fresh p)) (chnWord chn) recordType
  set b := (strgBasketWriteStart (t.basket (.fresh p)) (chnWord chn) recordType).2 with hb
  have hfile : b.bfi.bgi = p := by rw [hbfi]; rfl
  have hidx : b.bfi.curBfIdx = (t.bgi p).bfList.length := by rw [hbfi]; rfl
  have hi : (t.bgi p).bfList.length < basketFragmentNum :=
    (strgBasketCreateFragment_some hgiven.layout hbf).1
  set d := (t.putBasket chn b).flagOnce with hd
  have hdevd : SameEntries t.dev d.dev := hdev.trans (sameEntries_flagOnce (t.putBasket chn b))
  have hbgid : d.bgi p = (t.bgi p).addFragment bf.setWriting recordType := by
    rw [hd, bgi_flagOnce, putBasket_bgi t chn hfile, hbgi]
    rfl
  have hcurd : d.bfiCur chn = some b.bfi := by
    rw [hd, bfiCur_flagOnce, putBasket_bfiCur]
  have hentry : dm' = d.setDev ((d.dev.putRow p (t.bgi p).bfList.length
      (d.curFragment b.bfi)).putHead p (d.bgi p).bg) := by
    rw [hstart]
    show d.writeEntry b.bfi.bgi b.bfi.curBfIdx (d.curFragment b.bfi) = _
    rw [hfile, hidx]
    refine writeEntry_reliable _ (hdevd.env ▸ henv) ?_ (h.diskBfOft_lt hgiven.mem hi) _
    rw [hbgid]
    exact hgiven.index
  subst hentry
  have htouch : Touches p dm (d.setDev ((d.dev.putRow p (t.bgi p).bfList.length
      (d.curFragment b.bfi)).putHead p (d.bgi p).bg)) :=
    ((hgiven.touches.trans (touches_putBasket t chn hfile hdev)).trans
      (touches_flagOnce _)).trans (touches_putEntry _ hi _ _)
  refine h.touched chn htouch hgiven.mem honce hknown (fun q hq => ?_)
    (fun c _ => hgiven.free c) (fun c hc => ?_) ?_ ?_ (.inr ⟨b.bfi, hcurd, hfile, ?_, ?_⟩)
  · rw [DiskMng.slot, hcur] at hq
    cases hq
  · show d.bfiCur c = _
    rw [hd, bfiCur_flagOnce, putBasket_bfiCur_ne t hc, hgiven.cur c hc]
  · rw [DiskMng.bgi_setDev, hbgid]
    exact hgiven.index
  · rw [DiskMng.bgi_setDev, hbgid]
    refine BasketKept.addFragment hgiven.layout hgiven.useCnt hgiven.rows hbf fun i hi' => ?_
    rw [hgiven.index]
    exact (rowAt_putEntry _ hi hi' _ _).trans (hdevd.global.rowAt _ _)
  · rw [hbfi]
  · rw [DiskMng.bgi_setDev, hbgid, hidx]
    show _ = ((t.bgi p).bfList ++ [bf.setWriting]).length
    rw [List.length_append]
    rfl

theorem Kept.start (h : Kept dm) {recordType : RecordType} {overwrite : UInt32}
    (hcur : dm.bfiCur chn = none)
    (hop : DiskOp.Does dm (.writeStart chn recordType overwrite) dm') : Kept dm' := by
  have honce := h.once.steps hop.anyhow
  have hknown := h.known.steps hop.anyhow
  obtain ⟨fuel, r, hrun⟩ := hop
  cases fuel with
  | zero => cases hrun
  | succ fuel =>
    rw [strgDiskWriteStart] at hrun
    obtain hnone | ⟨p, t, hgiven, htake⟩ := h.alloc chn overwrite
    · simp only [hnone] at hrun
      obtain ⟨-, rfl⟩ := Prod.mk.inj (Option.some.inj hrun)
      exact h
    · obtain ⟨bf, -, hret, -, -⟩ := strgBasketWriteStart_reliable (b := t.basket (.fresh p))
        (hgiven.touches.env ▸ h.env) hgiven.fits hgiven.layout recordType
      simp only [htake, hret] at hrun
      rw [if_neg (by decide)] at hrun
      obtain ⟨-, heq⟩ := Prod.mk.inj (Option.some.inj hrun)
      exact hgiven.start h hcur recordType heq.symm honce hknown

/-! ## The next generation -/

theorem globalAt_magic {dev : Dev} {dg : DiskGlobal} (h : globalAt dev = some dg) :
    dg.magic = diskGlobalMagic := by
  obtain ⟨dg', -, hcheck⟩ := Option.bind_eq_some_iff.1 h
  unfold strgDiskCheckGlobal at hcheck
  split at hcheck
  · next hmagic =>
      obtain rfl := Option.some.inj hcheck
      exact hmagic
  · cases hcheck

theorem strgDiskReset_reliable (hdev : dm.dev.env.Reliable) (overwrite : UInt32) :
    (strgDiskReset dm overwrite).2 = dm ∨ (strgDiskReset dm overwrite).2 = dm.nextGeneration := by
  have hseek : diskGlobalOft < seekEnd := by decide
  unfold strgDiskReset
  split
  · have hok : (strgDiskWriteGlobal dm.dev { dm.dg with useCnt := dm.dg.useCnt + 1 }).1 = true := by
      rw [strgDiskWriteGlobal, strgWrite_reliable hdev _ _ hseek]
    simp only
    rw [if_pos hok]
    exact .inr rfl
  · exact .inl rfl

theorem Kept.reset (h : Kept dm) (overwrite : UInt32) : Kept (strgDiskReset dm overwrite).2 := by
  have hop : DiskOp.Does dm (.reset overwrite) (strgDiskReset dm overwrite).2 := rfl
  have honce := h.once.steps hop.anyhow
  have hknown := h.known.steps hop.anyhow
  clear hop
  obtain heq | heq := strgDiskReset_reliable h.env overwrite
  · rw [heq]
    exact h
  · rw [heq] at honce hknown ⊢
    have hdev : dm.nextGeneration.dev = dm.dev.putDisk dm.nextGeneration.dg := by
      have hseek : diskGlobalOft < seekEnd := by decide
      show (strgDiskWriteGlobal dm.dev dm.nextGeneration.dg).2 = _
      rw [strgDiskWriteGlobal, strgWrite_reliable h.env _ _ hseek]
      rfl
    have hrow : ∀ {p i}, RowKept dm.dev (dm.bgi p) i →
        RowKept dm.nextGeneration.dev (dm.nextGeneration.bgi p) i := fun hkept =>
      hkept.of_eq rfl rfl (by rw [hdev, rowAt_putDisk]) rfl
    have hmagic := globalAt_magic h.header
    refine ⟨hdev ▸ h.env, hdev ▸ h.format, ?_, h.fits, honce, hknown, h.readList,
      fun p => ?_, h.index, fun p hp => ?_, fun p hp hfree => ?_, h.writing⟩
    · rw [hdev]
      exact globalAt_putDisk dm.dev hmagic
    · rw [hdev, headAt_putDisk]
      exact h.mem p
    · have hkept := h.basket p hp
      exact ⟨hkept.layout, hkept.useCnt, fun i hi => hrow (hkept.rows i hi)⟩
    · have hstored := h.stored p hp hfree
      refine ⟨hstored.updateFlag, ?_, fun i hi => hrow (hstored.last i hi)⟩
      rw [hdev, headAt_putDisk]
      exact hstored.head

end Steps

end Nvr.Storage
