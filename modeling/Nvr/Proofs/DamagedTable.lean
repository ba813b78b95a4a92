import Nvr.Proofs.StoredBaskets

/-!
# What a damaged fragment table does

A disk is opened from its entries. The loader stops at the first fragment record
of an entry that it cannot use, with a wrong checksum or of another generation,
but leaves `fragment_num` as the header has it; a scan of the basket would set it
to what was found. So the count and the list of a basket agree after an open
exactly when no record in front of the count is damaged, and then recordings and
reopens keep everything in order.
-/

namespace Nvr.Storage

/-! ## Loading -/

/-- The entry is loaded to the last of the fragments that its header counts. -/
structure Intact (dev : Dev) (p : Nat) (bg : BasketGlobal) : Prop where
  tabled : Tabled (rows dev p bg.fragmentNum.toNat)
  usable : ∀ i < bg.fragmentNum.toNat, ∃ bf, Usable bg.useCnt (rowAt dev p i) bf

/-- A disk whose entries can all be loaded. -/
structure Loadable (dev : Dev) (dg : DiskGlobal) : Prop where
  env : dev.env.Reliable
  format : dev.store.present .formatFlag = true
  header : globalAt dev = some dg
  fits : diskBgOft dg.basketNum.toNatClampNeg ≤ seekEnd
  intact : ∀ p < dg.basketNum.toNatClampNeg, ∀ bg, headAt dev p = some bg → Intact dev p bg

section Load

variable {dev dev' : Dev} {dg : DiskGlobal} {p : Nat}

theorem SameGlobal.rows (h : SameGlobal dev dev') (p n : Nat) :
    Storage.rows dev' p n = Storage.rows dev p n := by
  rw [Storage.rows, Storage.rows]
  exact List.map_congr_left fun i _ => by rw [h.rowAt]

theorem Loadable.of_same (h : Loadable dev dg) (hsame : SameEntries dev dev') :
    Loadable dev' dg where
  env := hsame.env ▸ h.env
  format := hsame.format.trans h.format
  header := hsame.global.globalAt.trans h.header
  fits := h.fits
  intact p hp bg hbg := by
    rw [hsame.global.headAt] at hbg
    obtain ⟨htabled, husable⟩ := h.intact p hp bg hbg
    refine ⟨?_, fun i hi => ?_⟩
    · rw [hsame.global.rows]
      exact htabled
    · rw [hsame.global.rowAt]
      exact husable i hi

theorem rows_getElem? {n i : Nat} {bf : BasketFragment} (hi : i < n)
    (h : rowAt dev p i = some bf) : (rows dev p n)[i]? = some bf := by
  simp [rows, hi, h]

/-- The loader goes to the end of an entry that is intact. -/
theorem loadEntry_intact (hdev : dev.env.Reliable) (hend : diskBgOft (p + 1) ≤ seekEnd)
    {bg : BasketGlobal} (h : Intact dev p bg) :
    loadEntry dev p bg = (dev, ((BasketGlobalInfo.alloc p).vacant bg).loadAll
      (rows dev p bg.fragmentNum.toNat)) := by
  have hfew := h.tabled.few
  rw [length_rows] at hfew
  have hmax : basketFragmentNum = 1024 := rfl
  have hsize : UInt32.size = 4294967296 := rfl
  refine openFragments_stops hdev ?_ hfew (Nat.le_refl _) h.usable
    (fun hlt => absurd hlt (Nat.lt_irrefl _)) (by omega)
  rw [diskBgOft_eq] at hend
  rw [diskBfOft_eq]
  omega

/-- The header of the file is read, and the entries one after the other. -/
theorem strgDiskGlobalOpen_entries (hdev : dev.env.Reliable) (hheader : globalAt dev = some dg)
    (hfits : diskBgOft dg.basketNum.toNatClampNeg ≤ seekEnd)
    (hclean : ∀ q bg, q < dg.basketNum.toNatClampNeg → headAt dev.wait q = some bg →
      (loadEntry dev.wait q bg).1 = dev.wait) (diskIdx : Int32) :
    ∃ dm, (strgDiskGlobalOpen diskIdx dev).1 = some dm ∧
      EntriesLoaded dev.wait 0 dg.basketNum.toNatClampNeg (.empty diskIdx dev.wait dg) dm := by
  have hread : strgDiskReadGlobal dev.wait = some dg := by
    have hend : diskGlobalOft + diskGlobalLen ≤ seekEnd := by decide
    unfold strgDiskReadGlobal
    rw [strgRead_global (by exact hdev) hend]
    exact hheader
  have hglobal : openGlobal diskIdx dev = (some (.empty diskIdx dev.wait dg), dev.wait) := by
    rw [openGlobal, if_pos (hdev.openOk _), hread]
  refine ⟨_, ?_, openBaskets_entries (by exact hdev) dg.basketNum.toNatClampNeg 0 _ rfl ?_
    fun q bg _ hq => hclean q bg (by omega)⟩
  · rw [strgDiskGlobalOpen, hglobal]
    rfl
  · rw [Nat.zero_add]
    exact hfits

/-- A basket that has been loaded to the end of its entry. -/
theorem LoadedRows.kept {bg : BasketGlobal} {bgi : BasketGlobalInfo}
    (h : LoadedRows p bg (rows dev p bg.fragmentNum.toNat) bgi) (hintact : Intact dev p bg) :
    BasketKept dev bgi ∧ ∀ i < bgi.bfList.length, RowKept dev bgi i := by
  have hrows : ∀ i < bgi.bfList.length, RowKept dev bgi i := by
    intro i hi
    rw [h.bfList, List.length_map, length_rows] at hi
    obtain ⟨row, hrow⟩ := hintact.usable i hi
    refine ⟨row, ?_, ?_⟩
    · rw [h.basketIdx, h.bg_eq]
      exact hrow
    · rw [h.bfList, List.getElem?_map, rows_getElem? hi hrow.reads]
      rfl
  refine ⟨⟨h.layout hintact.tabled (length_rows _ _ _).symm, fun bf hbf => ?_,
    fun i hi => hrows i (by omega)⟩, hrows⟩
  obtain ⟨i, hi, rfl⟩ := List.mem_iff_getElem.1 hbf
  obtain ⟨row, hrow, heq⟩ := hrows i hi
  rw [List.getElem?_eq_getElem hi, Option.map_some] at heq
  have huse := congrArg BasketFragment.useCnt (Option.some.inj heq)
  exact huse.trans hrow.useCnt

/-- What has been loaded from entries that are intact is kept. -/
theorem Loadable.open (h : Loadable dev dg) (diskIdx : Int32) :
    ∃ dm, (strgDiskGlobalOpen diskIdx dev).1 = some dm ∧ Kept dm ∧
      ∀ p bg, p < dg.basketNum.toNatClampNeg → headAt dev p = some bg → p ∈ dm.bgiList ∧
        (dm.bgi p).bfList = (rows dev p bg.fragmentNum.toNat).map BasketFragment.idled := by
  have hwait := h.of_same (sameEntries_wait dev)
  have hload : ∀ q bg, q < dg.basketNum.toNatClampNeg → headAt dev.wait q = some bg →
      loadEntry dev.wait q bg = (dev.wait, ((BasketGlobalInfo.alloc q).vacant bg).loadAll
        (rows dev.wait q bg.fragmentNum.toNat)) := by
    intro q bg hq hbg
    refine loadEntry_intact hwait.env (le_trans ?_ h.fits) (hwait.intact q hq bg hbg)
    rw [diskBgOft_eq, diskBgOft_eq]
    omega
  obtain ⟨dm, hopen, hentries⟩ := strgDiskGlobalOpen_entries h.env h.header h.fits
    (fun q bg hq hbg => by rw [hload q bg hq hbg]) diskIdx
  have hloaded := strgDiskGlobalOpen_loaded hopen
  have hmem : ∀ q, q ∈ dm.bgiList ↔
      q < dg.basketNum.toNatClampNeg ∧ (headAt dev.wait q).isSome := by
    intro q
    rw [hentries.mem]
    simp [DiskMng.empty]
  have hrows : ∀ q bg, q < dg.basketNum.toNatClampNeg → headAt dev.wait q = some bg →
      LoadedRows q bg (rows dev.wait q bg.fragmentNum.toNat) (dm.bgi q) := by
    intro q bg hq hbg
    rw [hentries.bgi q bg (Nat.zero_le q) (by omega) hbg, hload q bg hq hbg]
    exact loadAll_rows q bg (hwait.intact q hq bg hbg).tabled
  refine ⟨dm, hopen, ?_, fun q bg hq hbg => ⟨(hmem q).2 ⟨hq, ?_⟩, (hrows q bg hq hbg).bfList⟩⟩
  swap
  · exact Option.isSome_iff_exists.2 ⟨bg, hbg⟩
  have hdev := hentries.dev_eq
  have hdg : dm.dg = dg := hentries.dg
  refine ⟨hdev ▸ hwait.env, hdev ▸ hwait.format, ?_, ?_, hloaded.atMostOnce, hloaded.known,
    hloaded.noReader, ?_, hloaded.index, fun q hq => ?_, fun q hq _ => ?_, fun chn bfi hbfi => ?_⟩
  · rw [hdev, hdg]
    exact hwait.header
  · rw [hdg]
    exact h.fits
  · rw [hdev, hdg]
    exact hmem
  · obtain ⟨hlt, hsome⟩ := (hmem q).1 hq
    obtain ⟨bg, hbg⟩ := Option.isSome_iff_exists.1 hsome
    rw [hdev]
    exact ((hrows q bg hlt hbg).kept (hwait.intact q hlt bg hbg)).1
  · obtain ⟨hlt, hsome⟩ := (hmem q).1 hq
    obtain ⟨bg, hbg⟩ := Option.isSome_iff_exists.1 hsome
    have hload := hrows q bg hlt hbg
    obtain ⟨-, hkept⟩ := hload.kept (hwait.intact q hlt bg hbg)
    rw [hdev]
    refine ⟨hload.updateFlag, ?_, fun i hi => hkept i (by omega)⟩
    rw [hload.basketIdx, hload.bg_eq]
    exact hbg
  · rw [hloaded.idle chn] at hbfi
    cases hbfi

end Load

/-! ## Closing and opening again -/

section Reopen

variable {dm : DiskMng}

/-- There is nothing to write when the entries have everything. -/
theorem foldl_writeBasket (l : List Nat) (h : ∀ p ∈ l, (dm.bgi p).updateFlag = false) :
    l.foldl DiskMng.writeBasket dm = dm := by
  induction l with
  | nil => rfl
  | cons p l ih =>
    have hp : dm.writeBasket p = dm := by
      unfold DiskMng.writeBasket
      rw [h p List.mem_cons_self]
      rfl
    rw [List.foldl_cons, hp]
    exact ih fun q hq => h q (List.mem_cons_of_mem _ hq)

theorem slot_idle (hidle : ∀ chn, dm.bfiCur chn = none) (p : Nat) (chn : Chn) :
    dm.slot chn ≠ some p := by
  rw [DiskMng.slot, hidle chn]
  simp

variable (h : Kept dm) (hidle : ∀ chn, dm.bfiCur chn = none)
include h hidle

theorem Kept.close : strgDiskClose dm = strgDiskDeleteFlagFile dm.dev := by
  have hstop : stopReaders dm = dm := by
    unfold stopReaders
    rw [h.readList]
    exact congrArg (fun l => { dm with readList := l }) h.readList.symm
  have hwrite : strgDiskGlobalWrite dm = dm :=
    foldl_writeBasket dm.bgiList fun p hp => (h.stored p hp (slot_idle hidle p)).updateFlag
  rw [strgDiskClose, hstop, hwrite]

/-- A basket's rows are what it has in memory. -/
theorem Kept.rows_eq {p : Nat} (hp : p ∈ dm.bgiList) :
    (rows dm.dev p (dm.bgi p).bfList.length).map BasketFragment.idled =
      (dm.bgi p).bfList.map BasketFragment.idled := by
  refine List.ext_getElem? fun i => ?_
  by_cases hi : i < (dm.bgi p).bfList.length
  · obtain ⟨row, hrow, heq⟩ := h.row hp (slot_idle hidle p) hi
    have hreads := hrow.reads
    rw [h.index p hp] at hreads
    rw [List.getElem?_map, List.getElem?_map, rows_getElem? hi hreads, heq, Option.map_some]
  · rw [List.getElem?_eq_none (by simpa using Nat.not_lt.1 hi),
      List.getElem?_eq_none (by simpa using Nat.not_lt.1 hi)]

theorem Kept.loadable : Loadable dm.dev dm.dg where
  env := h.env
  format := h.format
  header := h.header
  fits := h.fits
  intact p hp bg hbg := by
    have hmem : p ∈ dm.bgiList := (h.mem p).2 ⟨hp, by rw [hbg]; rfl⟩
    have hstored := h.stored p hmem (slot_idle hidle p)
    have hlayout := (h.basket p hmem).layout
    have hhead := hstored.head
    rw [h.index p hmem, hbg] at hhead
    obtain rfl := Option.some.inj hhead
    refine ⟨?_, fun i hi => ?_⟩
    · rw [hlayout.fragmentNum]
      exact hlayout.tabled.of_map_idled (h.rows_eq hidle hmem)
    · rw [hlayout.fragmentNum] at hi
      obtain ⟨row, hrow, -⟩ := h.row hmem (slot_idle hidle p) hi
      rw [h.index p hmem] at hrow
      exact ⟨row, hrow⟩

/-- A disk that is closed and opened again has the fragments that it had. -/
theorem Kept.reopen : ∃ dm', (strgDiskOpen dm.diskIdx (strgDiskClose dm)).1 = some dm' ∧ Kept dm' ∧
    ∀ p ∈ dm.bgiList, p ∈ dm'.bgiList ∧
      (dm'.bgi p).bfList = (dm.bgi p).bfList.map BasketFragment.idled := by
  have hloadable := (h.loadable hidle).of_same (sameEntries_deleteFlagFile dm.dev)
  obtain ⟨dm', hopen, hkept, hrows⟩ := hloadable.open dm.diskIdx
  refine ⟨dm', ?_, hkept, fun p hp => ?_⟩
  · have hflag : (strgDiskDeleteFlagFile dm.dev).store.present .writeFlag = false := by
      show Function.update dm.dev.store.present .writeFlag false .writeFlag = false
      rw [Function.update_self]
    rw [h.close hidle, strgDiskOpen, if_pos hloadable.format, hflag]
    exact hopen
  · obtain ⟨hlt, hsome⟩ := (h.mem p).1 hp
    have hhead := (h.stored p hp (slot_idle hidle p)).head
    rw [h.index p hp] at hhead
    have hsame := (sameEntries_deleteFlagFile dm.dev).global
    obtain ⟨hmem, hlist⟩ := hrows p (dm.bgi p).bg hlt (by rw [hsame.headAt, hhead])
    refine ⟨hmem, ?_⟩
    rw [hlist, hsame.rows, (h.basket p hp).layout.fragmentNum, h.rows_eq hidle hp]

end Reopen

/-! ## Files with damaged records -/

/-- A file in which every entry with a readable header had a table that fits its
basket, some records of which have been damaged since. -/
structure Entered (dev : Dev) (dg : DiskGlobal) : Prop where
  header : globalAt dev = some dg
  fits : diskBgOft dg.basketNum.toNatClampNeg ≤ seekEnd
  entries : ∀ p < dg.basketNum.toNatClampNeg, ∀ bg, headAt dev p = some bg →
    ∃ bfs, Tabled bfs ∧ bfs.length = bg.fragmentNum.toNat ∧ ∀ i (hi : i < bfs.length),
      Usable bg.useCnt (rowAt dev p i) (bfs.get ⟨i, hi⟩) ∨ Damaged bg.useCnt (rowAt dev p i)

/-- None of the records that a header counts is damaged. -/
def Undamaged (dev : Dev) (dg : DiskGlobal) : Prop :=
  ∀ p < dg.basketNum.toNatClampNeg, ∀ bg, headAt dev p = some bg →
    ∀ i < bg.fragmentNum.toNat, ¬Damaged bg.useCnt (rowAt dev p i)

/-- What happens to a disk that is recorded on. -/
inductive RecorderOp where
  | disk (op : DiskOp)
  | reopen

def RecorderOp.Does (dm : DiskMng) : RecorderOp → DiskMng → Prop
  | .disk op, dm' => op.Does dm dm'
  | .reopen, dm' => (strgDiskOpen dm.diskIdx (strgDiskClose dm)).1 = some dm'

/-- A channel starts when it is not recording, nobody plays back, and the disk is
closed when no channel records. -/
def RecorderOp.Permits (dm : DiskMng) : RecorderOp → Prop
  | .disk (.writeStart chn _ _) => dm.bfiCur chn = none
  | .disk (.readStart _) => False
  | .disk (.readStop _) => False
  | .disk _ => True
  | .reopen => ∀ chn, dm.bfiCur chn = none

instance (dm : DiskMng) (op : RecorderOp) : Decidable (op.Permits dm) :=
  match op with
  | .disk (.writeStart chn _ _) => inferInstanceAs (Decidable (dm.bfiCur chn = none))
  | .disk (.readStart _) => .isFalse id
  | .disk (.readStop _) => .isFalse id
  | .disk (.write _ _ _ _) => .isTrue trivial
  | .disk (.writeStop _) => .isTrue trivial
  | .disk (.writeSetType _ _) => .isTrue trivial
  | .disk (.reset _) => .isTrue trivial
  | .reopen => inferInstanceAs (Decidable (∀ chn, dm.bfiCur chn = none))

/-- The operation carried out, if it is permitted. -/
def RecorderOp.exec (dm : DiskMng) (op : RecorderOp) : Option DiskMng :=
  if op.Permits dm then
    match op with
    | .disk op => op.exec 1 dm
    | .reopen => (strgDiskOpen dm.diskIdx (strgDiskClose dm)).1
  else none

theorem RecorderOp.exec_does {dm dm' : DiskMng} {op : RecorderOp} (h : op.exec dm = some dm') :
    Restrict RecorderOp.Does RecorderOp.Permits dm op dm' := by
  unfold RecorderOp.exec at h
  split at h
  · next hpermits =>
      refine ⟨?_, hpermits⟩
      cases op with
      | disk op => exact DiskOp.exec_does h
      | reopen => exact h
  · cases h

/-- Every basket counts the fragments of its list. -/
def DiskMng.Counts (dm : DiskMng) : Prop :=
  ∀ p ∈ dm.bgiList, (dm.bgi p).bg.fragmentNum.toNat = (dm.bgi p).bfList.length

/-- The fragments of a basket are apart from each other, the free space is what
they leave, and a disk that is closed and opened again has all of them. -/
structure InOrder (dm : DiskMng) : Prop where
  apart : ∀ p ∈ dm.bgiList, (dm.bgi p).bfList.Pairwise fun a b =>
    a.pos + a.bytes ≤ b.pos ∧ a.slot + a.slots ≤ b.slot
  freeSpace : ∀ p ∈ dm.bgiList,
    (dm.bgi p).freeSpace.toNat + usedSpace (dm.bgi p).bfList = basketFrameSize
  found : (∀ chn, dm.bfiCur chn = none) →
    ∃ dm', (strgDiskOpen dm.diskIdx (strgDiskClose dm)).1 = some dm' ∧ ∀ p ∈ dm.bgiList,
      p ∈ dm'.bgiList ∧ (dm'.bgi p).bfList = (dm.bgi p).bfList.map BasketFragment.idled

/-- The disk is in order as soon as it is opened and ever after. -/
def Tolerates (diskIdx : Int32) (dev : Dev) : Prop :=
  ∃ dm, (strgDiskGlobalOpen diskIdx dev).1 = some dm ∧ dm.Counts ∧
    ∀ ops dm', Run (Restrict RecorderOp.Does RecorderOp.Permits) dm ops dm' → InOrder dm'

/-! ## Runs -/

theorem Kept.inOrder {dm : DiskMng} (h : Kept dm) : InOrder dm where
  apart p hp := (h.basket p hp).layout.tabled.apart
  freeSpace p hp := (h.basket p hp).layout.freeSpace
  found hidle := by
    obtain ⟨dm', hopen, -, hlist⟩ := h.reopen hidle
    exact ⟨dm', hopen, hlist⟩

theorem Kept.counts {dm : DiskMng} (h : Kept dm) : dm.Counts :=
  fun p hp => (h.basket p hp).layout.fragmentNum

theorem Kept.step {dm dm' : DiskMng} {op : RecorderOp} (h : Kept dm)
    (hop : Restrict RecorderOp.Does RecorderOp.Permits dm op dm') : Kept dm' := by
  obtain ⟨hdoes, hpermits⟩ := hop
  cases op with
  | disk op =>
    cases op with
    | writeStart chn recordType overwrite => exact h.start hpermits hdoes
    | write chn minutes curTime f =>
        obtain rfl := hdoes
        exact h.write chn minutes curTime f
    | writeStop chn =>
        obtain rfl := hdoes
        exact h.stop chn
    | writeSetType chn type =>
        obtain rfl := hdoes
        exact h.setType chn type
    | readStart q => exact hpermits.elim
    | readStop handle => exact hpermits.elim
    | reset overwrite =>
        obtain rfl := hdoes
        exact h.reset overwrite
  | reopen =>
    obtain ⟨d, hopen, hkept, -⟩ := h.reopen hpermits
    obtain rfl := Option.some.inj (hopen.symm.trans hdoes)
    exact hkept

theorem Kept.run {dm dm' : DiskMng} {ops : List RecorderOp} (h : Kept dm)
    (hrun : Run (Restrict RecorderOp.Does RecorderOp.Permits) dm ops dm') : Kept dm' :=
  hrun.invariant (I := Kept) (fun hd hop => hd.step hop) h

/-! ## Where the loader stops -/

section Damage

variable {dev : Dev} {dg : DiskGlobal}

theorem Entered.of_same {dev' : Dev} (h : Entered dev dg) (hsame : SameGlobal dev dev') :
    Entered dev' dg where
  header := hsame.globalAt.trans h.header
  fits := h.fits
  entries p hp bg hbg := by
    rw [hsame.headAt] at hbg
    obtain ⟨bfs, htabled, hlen, hrows⟩ := h.entries p hp bg hbg
    exact ⟨bfs, htabled, hlen, fun i hi => by rw [hsame.rowAt]; exact hrows i hi⟩

theorem Entered.intact (h : Entered dev dg) (hundamaged : Undamaged dev dg) {p : Nat}
    (hp : p < dg.basketNum.toNatClampNeg) {bg : BasketGlobal} (hbg : headAt dev p = some bg) :
    Intact dev p bg := by
  obtain ⟨bfs, htabled, hlen, hrows⟩ := h.entries p hp bg hbg
  have husable : ∀ i (hi : i < bfs.length),
      Usable bg.useCnt (rowAt dev p i) (bfs.get ⟨i, hi⟩) := fun i hi =>
    (hrows i hi).resolve_right (hundamaged p hp bg hbg i (hlen ▸ hi))
  have heq : rows dev p bg.fragmentNum.toNat = bfs := by
    rw [← hlen]
    refine List.ext_getElem (length_rows _ _ _) fun i _ hi => ?_
    have hget := rows_getElem? hi (husable i hi).reads
    exact (List.getElem?_eq_some_iff.1 hget).2
  refine ⟨by rw [heq]; exact htabled, fun i hi => ⟨_, husable i (hlen ▸ hi)⟩⟩

/-- Each entry is loaded up to the end or to the first damaged record. -/
theorem Entered.stops (h : Entered dev dg) (hdev : dev.env.Reliable) {p : Nat}
    (hp : p < dg.basketNum.toNatClampNeg) {bg : BasketGlobal} (hbg : headAt dev p = some bg) :
    ∃ n ≤ bg.fragmentNum.toNat, (∀ i < n, ¬Damaged bg.useCnt (rowAt dev p i)) ∧
      loadEntry dev p bg = (dev, ((BasketGlobalInfo.alloc p).vacant bg).loadAll (rows dev p n)) := by
  obtain ⟨bfs, htabled, hlen, hrows⟩ := h.entries p hp bg hbg
  have hfew := htabled.few
  have hend : diskBfOft p basketFragmentNum ≤ seekEnd := by
    have hfits := h.fits
    have hmax : basketFragmentNum = 1024 := rfl
    rw [diskBgOft_eq] at hfits
    rw [diskBfOft_eq]
    omega
  have hsize : UInt32.size = 4294967296 := rfl
  have hmax : basketFragmentNum = 1024 := rfl
  classical
  by_cases hdamaged : ∃ i, i < bfs.length ∧ Damaged bg.useCnt (rowAt dev p i)
  · have hfirst := Nat.find_spec hdamaged
    have hbefore : ∀ i < Nat.find hdamaged, ¬Damaged bg.useCnt (rowAt dev p i) := fun i hi hd =>
      Nat.find_min hdamaged hi ⟨hi.trans hfirst.1, hd⟩
    refine ⟨Nat.find hdamaged, by omega, hbefore, ?_⟩
    refine openFragments_stops hdev hend (by omega) (by omega) (fun i hi => ?_)
      (fun _ => hfirst.2) (by omega)
    exact ⟨_, (hrows i (hi.trans hfirst.1)).resolve_right (hbefore i hi)⟩
  · have hnone : ∀ i < bfs.length, ¬Damaged bg.useCnt (rowAt dev p i) := fun i hi hd =>
      hdamaged ⟨i, hi, hd⟩
    refine ⟨bg.fragmentNum.toNat, Nat.le_refl _, hlen ▸ hnone, ?_⟩
    refine openFragments_stops hdev hend (by omega) (Nat.le_refl _) (fun i hi => ?_)
      (fun hlt => absurd hlt (Nat.lt_irrefl _)) (by omega)
    exact ⟨_, (hrows i (hlen ▸ hi)).resolve_right (hnone i (hlen ▸ hi))⟩

theorem loadAll_bfList (bgi : BasketGlobalInfo) (bfs : List BasketFragment) :
    (bgi.loadAll bfs).bfList.length = bgi.bfList.length + bfs.length ∧
      (bgi.loadAll bfs).bg = bgi.bg := by
  induction bfs generalizing bgi with
  | nil => exact ⟨rfl, rfl⟩
  | cons bf bfs ih =>
    obtain ⟨hlen, hbg⟩ := ih (bgi.loadFragment bf)
    refine ⟨?_, hbg⟩
    show ((bgi.loadFragment bf).loadAll bfs).bfList.length = _
    rw [hlen]
    show (bgi.bfList ++ [_]).length + bfs.length = _
    simp only [List.length_append, List.length_cons, List.length_nil]
    omega

/-- A count that agrees with the list goes past no damaged record. -/
theorem undamaged_of_counts (h : Entered dev dg) (hdev : dev.env.Reliable) {diskIdx : Int32}
    {dm : DiskMng} (hopen : (strgDiskGlobalOpen diskIdx dev).1 = some dm) (hcounts : dm.Counts) :
    Undamaged dev dg := by
  have hwait : Entered dev.wait dg := h.of_same rfl
  obtain ⟨d, hopen', hentries⟩ := strgDiskGlobalOpen_entries hdev h.header h.fits
    (fun q bg hq hbg => by
      obtain ⟨n, -, -, hload⟩ := hwait.stops hdev hq hbg
      rw [hload]) diskIdx
  obtain rfl := Option.some.inj (hopen'.symm.trans hopen)
  intro p hp bg hbg
  have hbg' : headAt dev.wait p = some bg := hbg
  obtain ⟨n, hn, hbefore, hload⟩ := hwait.stops hdev hp hbg'
  have hmem : p ∈ d.bgiList := (hentries.mem p).2 (.inr ⟨by omega, by rw [hbg']; rfl⟩)
  have hbgi := hentries.bgi p bg (Nat.zero_le p) (by omega) hbg'
  obtain ⟨hlen, hhead⟩ :=
    loadAll_bfList ((BasketGlobalInfo.alloc p).vacant bg) (rows dev.wait p n)
  have hcount := hcounts p hmem
  rw [hbgi, hload, hlen, hhead, length_rows] at hcount
  have hcount' : bg.fragmentNum.toNat = 0 + n := hcount
  intro i hi
  exact hbefore i (by omega)

/-- An open leaves the counts right, and everything in order from then on, exactly
when no record that a header counts is damaged. -/
theorem strgDiskGlobalOpen_tolerates_iff (hdev : dev.env.Reliable)
    (hformat : dev.store.present .formatFlag = true) (h : Entered dev dg) (diskIdx : Int32) :
    Tolerates diskIdx dev ↔ Undamaged dev dg := by
  constructor
  · rintro ⟨dm, hopen, hcounts, -⟩
    exact undamaged_of_counts h hdev hopen hcounts
  · intro hundamaged
    have hloadable : Loadable dev dg :=
      ⟨hdev, hformat, h.header, h.fits, fun p hp bg hbg => h.intact hundamaged hp hbg⟩
    obtain ⟨dm, hopen, hkept, -⟩ := hloadable.open diskIdx
    exact ⟨dm, hopen, hkept.counts, fun ops dm' hrun => (hkept.run hrun).inOrder⟩

end Damage

/-- The unused disk: there is one basket, and nothing in it. -/
theorem entered_formatted : Entered (formatted 1100) ⟨diskGlobalMagic, 1, 1⟩ where
  header := rfl
  fits := by decide
  entries p hp bg hbg := by
    obtain rfl : p = 0 := Nat.lt_one_iff.1 hp
    have hhead : headAt (formatted 1100) 0 = some .unused := rfl
    rw [hhead] at hbg
    obtain rfl := Option.some.inj hbg
    exact ⟨[], ⟨Nat.zero_le _, trivial, trivial, by simp, by simp, by decide⟩, rfl,
      fun i hi => absurd hi (Nat.not_lt_zero i)⟩

theorem strgDiskGlobalOpen_tolerates_iff_formatted :
    Tolerates 0 (formatted 1100) ↔ Undamaged (formatted 1100) ⟨diskGlobalMagic, 1, 1⟩ :=
  strgDiskGlobalOpen_tolerates_iff (formatted_env 1100 ▸ Dev.blank_reliable) rfl
    entered_formatted 0

/-- The fragment of 80 bytes and one I-frame at place `i` of a table. -/
def smallFragment (i : Nat) : BasketFragment where
  magic := basketFragmentMagic
  status := useStatusIdle
  useCnt := 1
  beginTime := 1000
  endTime := 1000
  totalFrameCnt := 1
  firstIframeIdx := Int32.ofNat i
  iframeNum := 1
  beginFramePos := UInt32.ofNat (basketFrameOft + 80 * i)
  fragmentSize := 80
  recordType := recordTimeType

/-- A header of channel 0 that counts two fragments. -/
def twoFragments : BasketGlobal := ⟨basketGlobalMagic, 1, useStatusIdle, 0, 2⟩

/-- A disk with two small fragments, the record of the first one overwritten with
zeros. -/
def zeroedRow : Dev := ((formatted 1100).putRow 0 1 (smallFragment 1)).putHead 0 twoFragments

theorem zeroedRow_damaged : Damaged twoFragments.useCnt (rowAt zeroedRow 0 0) := by
  have hrow : ((rowAt zeroedRow 0 0).map BasketFragment.useCnt).getD 0 ≠ 1 := by decide
  intro bf hbf huse
  rw [hbf] at hrow
  exact hrow huse

theorem entered_zeroedRow : Entered zeroedRow ⟨diskGlobalMagic, 1, 1⟩ where
  header := by
    rw [zeroedRow, globalAt_putHead, globalAt_putRow]
    exact entered_formatted.header
  fits := entered_formatted.fits
  entries p hp bg hbg := by
    obtain rfl : p = 0 := Nat.lt_one_iff.1 hp
    rw [zeroedRow, headAt_putHead] at hbg
    obtain rfl := Option.some.inj hbg
    refine ⟨[smallFragment 0, smallFragment 1], ⟨by decide, ⟨rfl, rfl, trivial⟩,
      ⟨rfl, rfl, trivial⟩, by decide, by decide, by decide⟩, rfl, fun i hi => ?_⟩
    obtain rfl | rfl : i = 0 ∨ i = 1 := by
      have hi' : i < 2 := hi
      omega
    · exact .inr zeroedRow_damaged
    · refine .inl ⟨?_, rfl, UInt32.zero_and⟩
      rw [zeroedRow, rowAt_putHead _ _ _ (by decide), rowAt_putRow]
      rfl

/-- An I-frame of 100 bytes. -/
def longerFrame : Frame where
  data := List.replicate 100 1
  frameNo := 1
  frameType := .i
  encodeType := .h264
  timeStamp := 1000000
  size_lt := by decide

/-- The next recording takes the place of the first fragment, and the second one,
which still has its record, is found behind it after the disk has been closed: the
two overlap. -/
theorem zeroedRow_overlaps :
    ¬∀ (diskIdx : Int32) (dev : Dev) (dg : DiskGlobal), dev.env.Reliable →
      dev.store.present .formatFlag = true → Entered dev dg → Tolerates diskIdx dev := by
  intro h
  have henv : zeroedRow.env.Reliable := formatted_env 1100 ▸ Dev.blank_reliable
  have hformat : zeroedRow.store.present .formatFlag = true := rfl
  obtain ⟨dm, hopen, -, hrun⟩ := h 0 zeroedRow _ henv hformat entered_zeroedRow
  have hexec : (((strgDiskGlobalOpen 0 zeroedRow).1.bind fun dm =>
      ([.disk (.writeStart 0 recordTimeType 0), .disk (.write 0 0 1000000 longerFrame),
        .disk (.writeStop 0), .reopen] : List RecorderOp).foldlM RecorderOp.exec dm).map
          fun dm => (dm.bgiList, (dm.bgi 0).bfList.map fun bf => (bf.pos, bf.bytes))) =
        some ([0], [(basketFrameOft, 168), (basketFrameOft + 80, 80)]) := by decide +kernel
  rw [hopen, Option.bind_some] at hexec
  obtain ⟨dm', hsteps, heq⟩ := Option.map_eq_some_iff.1 hexec
  obtain ⟨hmem, hlist⟩ := Prod.mk.inj heq
  have hapart := (hrun _ dm' (Run.of_foldlM RecorderOp.exec_does hsteps)).apart 0
    (by rw [hmem]; decide)
  have hapart' : ((dm'.bgi 0).bfList.map fun bf => (bf.pos, bf.bytes)).Pairwise
      fun a b => a.1 + a.2 ≤ b.1 :=
    List.pairwise_map.2 (hapart.imp fun hab => hab.1)
  rw [hlist] at hapart'
  exact absurd hapart' (by decide)

end Nvr.Storage
