import Mathlib.Algebra.Order.Group.Nat
import Mathlib.Data.List.Induction
import Nvr.Proofs.BasketLayout
import Nvr.Proofs.Loaded
import Nvr.Storage.DiskLoad

/-!
# The entries of the disk-global file

What a loader finds for a basket is its header and the fragments at the first
places of its table. `headAt` and `rowAt` read them; a write to one place leaves
the other places as they were, and `strg_disk_global_open` loads exactly the
fragments in front of the first place that it cannot use.
-/

namespace Nvr.Storage

open Tiling WordRecord

/-! ## Places -/

/-- The header of a basket's entry. -/
def headAt (dev : Dev) (p : Nat) : Option BasketGlobal :=
  BasketGlobal.format.decode ((dev.file .global).read (diskBgOft p) basketGlobalLen)

/-- The fragment at a place of a basket's entry. -/
def rowAt (dev : Dev) (p i : Nat) : Option BasketFragment :=
  BasketFragment.format.decode ((dev.file .global).read (diskBfOft p i) basketFragmentLen)

/-- The header of the file. -/
def globalAt (dev : Dev) : Option DiskGlobal :=
  (DiskGlobal.format.decode ((dev.file .global).read diskGlobalOft diskGlobalLen)).bind
    strgDiskCheckGlobal

theorem diskBgOft_eq (p : Nat) : diskBgOft p = diskGlobalLen + 65576 * p := by
  simp [diskBgOft, diskGlobalOft, basketGlobalLen, basketFragmentSize, basketFragmentLen,
    basketFragmentNum]

theorem diskBfOft_eq (p i : Nat) : diskBfOft p i = diskGlobalLen + 65576 * p + 40 + 64 * i := by
  rw [diskBfOft, diskBgOft_eq]
  rfl

/-- The disk-global file is the same. -/
def SameGlobal (dev dev' : Dev) : Prop := dev'.file .global = dev.file .global

section Frame

variable {dev dev' : Dev}

theorem SameGlobal.headAt (h : SameGlobal dev dev') (p : Nat) :
    Storage.headAt dev' p = Storage.headAt dev p := by
  rw [Storage.headAt, h, Storage.headAt]

theorem SameGlobal.rowAt (h : SameGlobal dev dev') (p i : Nat) :
    Storage.rowAt dev' p i = Storage.rowAt dev p i := by
  rw [Storage.rowAt, h, Storage.rowAt]

theorem SameGlobal.globalAt (h : SameGlobal dev dev') :
    Storage.globalAt dev' = Storage.globalAt dev := by
  rw [Storage.globalAt, h, Storage.globalAt]

theorem sameGlobal_write {p : FilePath} (hp : p ≠ .global) (off : Nat) (data : List UInt8) :
    SameGlobal dev (dev.commit (.write p off data)) :=
  Dev.file_commit_write_ne dev (Ne.symm hp) off data

/-- A record that has just been written is read back. -/
theorem decode_written {α : Type} (F : WordFormat α) (file : ByteFile) (off : Nat) (a : α) :
    F.decode ((file.write off (F.encode a)).read off F.len) = some a := by
  rw [(ByteFile.holds_write file off (F.encode a)).read_eq (F.length_encode a).symm,
    F.decode_encode]

/-- A change of the disk-global file that leaves a stretch of it alone. -/
theorem read_global_apart {off len off' : Nat} {data : List UInt8}
    (h : ByteFile.Apart off len off' data.length) :
    ((dev.commit (.write .global off' data)).file .global).read off len =
      (dev.file .global).read off len := by
  rw [Dev.file_commit_write, ByteFile.read_write_apart h]

variable (dev)

/-- The disk with the header of an entry replaced. -/
def Dev.putHead (p : Nat) (bg : BasketGlobal) : Dev :=
  dev.commit (.write .global (diskBgOft p) (BasketGlobal.format.encode bg))

/-- The disk with a fragment of an entry replaced. -/
def Dev.putRow (p i : Nat) (bf : BasketFragment) : Dev :=
  dev.commit (.write .global (diskBfOft p i) (BasketFragment.format.encode bf))

/-- The disk with the header of the file replaced. -/
def Dev.putDisk (dg : DiskGlobal) : Dev :=
  dev.commit (.write .global diskGlobalOft (DiskGlobal.format.encode dg))

theorem headAt_putHead (p : Nat) (bg : BasketGlobal) : headAt (dev.putHead p bg) p = some bg := by
  rw [headAt, Dev.putHead, Dev.file_commit_write]
  exact decode_written BasketGlobal.format _ _ _

theorem rowAt_putRow (p i : Nat) (bf : BasketFragment) :
    rowAt (dev.putRow p i bf) p i = some bf := by
  rw [rowAt, Dev.putRow, Dev.file_commit_write]
  exact decode_written BasketFragment.format _ _ _

theorem headAt_putHead_ne {p q : Nat} (hq : q ≠ p) (bg : BasketGlobal) :
    headAt (dev.putHead p bg) q = headAt dev q := by
  have hlen : basketGlobalLen = 40 := rfl
  rw [headAt, Dev.putHead, read_global_apart, headAt]
  rw [ByteFile.Apart, BasketGlobal.format.length_encode, BasketGlobal.format_len, hlen,
    diskBgOft_eq, diskBgOft_eq]
  omega

theorem rowAt_putHead (p q : Nat) {i : Nat} (hi : i < basketFragmentNum) (bg : BasketGlobal) :
    rowAt (dev.putHead p bg) q i = rowAt dev q i := by
  have hlen : basketGlobalLen = 40 := rfl
  have hlen' : basketFragmentLen = 64 := rfl
  have hnum : basketFragmentNum = 1024 := rfl
  rw [rowAt, Dev.putHead, read_global_apart, rowAt]
  rw [ByteFile.Apart, BasketGlobal.format.length_encode, BasketGlobal.format_len, hlen, hlen',
    diskBgOft_eq, diskBfOft_eq]
  obtain hlt | heq | hgt := Nat.lt_trichotomy q p <;> omega

theorem headAt_putRow (p q : Nat) {i : Nat} (hi : i < basketFragmentNum) (bf : BasketFragment) :
    headAt (dev.putRow p i bf) q = headAt dev q := by
  have hlen : basketGlobalLen = 40 := rfl
  have hlen' : basketFragmentLen = 64 := rfl
  have hnum : basketFragmentNum = 1024 := rfl
  rw [headAt, Dev.putRow, read_global_apart, headAt]
  rw [ByteFile.Apart, BasketFragment.format.length_encode, BasketFragment.format_len, hlen, hlen',
    diskBgOft_eq, diskBfOft_eq]
  obtain hlt | heq | hgt := Nat.lt_trichotomy q p <;> omega

theorem rowAt_putRow_ne {p q i j : Nat} (hi : i < basketFragmentNum) (hj : j < basketFragmentNum)
    (hne : q ≠ p ∨ j ≠ i) (bf : BasketFragment) :
    rowAt (dev.putRow p i bf) q j = rowAt dev q j := by
  have hlen : basketFragmentLen = 64 := rfl
  have hnum : basketFragmentNum = 1024 := rfl
  rw [rowAt, Dev.putRow, read_global_apart, rowAt]
  rw [ByteFile.Apart, BasketFragment.format.length_encode, BasketFragment.format_len, hlen,
    diskBfOft_eq, diskBfOft_eq]
  obtain hlt | heq | hgt := Nat.lt_trichotomy q p <;> omega

theorem globalAt_putHead (p : Nat) (bg : BasketGlobal) :
    globalAt (dev.putHead p bg) = globalAt dev := by
  have hoft : diskGlobalOft = 0 := rfl
  rw [globalAt, Dev.putHead, read_global_apart, globalAt]
  rw [ByteFile.Apart, diskBgOft_eq]
  omega

theorem globalAt_putRow (p i : Nat) (bf : BasketFragment) :
    globalAt (dev.putRow p i bf) = globalAt dev := by
  have hoft : diskGlobalOft = 0 := rfl
  rw [globalAt, Dev.putRow, read_global_apart, globalAt]
  rw [ByteFile.Apart, diskBfOft_eq]
  omega

theorem globalAt_putDisk {dg : DiskGlobal} (hmagic : dg.magic = diskGlobalMagic) :
    globalAt (dev.putDisk dg) = some dg := by
  rw [globalAt, Dev.putDisk, Dev.file_commit_write, ← DiskGlobal.format_len, decode_written,
    Option.bind_some, strgDiskCheckGlobal, if_pos hmagic]

theorem headAt_putDisk (p : Nat) (dg : DiskGlobal) : headAt (dev.putDisk dg) p = headAt dev p := by
  have hoft : diskGlobalOft = 0 := rfl
  rw [headAt, Dev.putDisk, read_global_apart, headAt]
  rw [ByteFile.Apart, DiskGlobal.format.length_encode, DiskGlobal.format_len, diskBgOft_eq]
  omega

theorem rowAt_putDisk (p i : Nat) (dg : DiskGlobal) :
    rowAt (dev.putDisk dg) p i = rowAt dev p i := by
  have hoft : diskGlobalOft = 0 := rfl
  rw [rowAt, Dev.putDisk, read_global_apart, rowAt]
  rw [ByteFile.Apart, DiskGlobal.format.length_encode, DiskGlobal.format_len, diskBfOft_eq]
  omega

end Frame

/-! ## What is loaded of an entry -/

/-- A fragment with nobody at it. -/
def BasketFragment.idled (bf : BasketFragment) : BasketFragment :=
  { bf with status := useStatusIdle }

/-- A place of a table that the loader can use, for a basket of this generation. -/
structure Usable (useCnt : UInt32) (row : Option BasketFragment) (bf : BasketFragment) : Prop where
  reads : row = some bf
  useCnt : bf.useCnt = useCnt
  closed : bf.status &&& useStatusWriting = 0

/-- A place of a table with a wrong checksum, or left by another generation. -/
def Damaged (useCnt : UInt32) (row : Option BasketFragment) : Prop :=
  ∀ bf, row = some bf → bf.useCnt ≠ useCnt

/-- The fragments at the first `n` places of a table. -/
def rows (dev : Dev) (p n : Nat) : List BasketFragment :=
  (List.range n).map fun i => (rowAt dev p i).getD default

@[simp] theorem length_rows (dev : Dev) (p n : Nat) : (rows dev p n).length = n := by
  simp [rows]

theorem rows_succ {dev : Dev} {p n : Nat} {bf : BasketFragment} (h : rowAt dev p n = some bf) :
    rows dev p (n + 1) = rows dev p n ++ [bf] := by
  simp [rows, List.range_succ, h]

/-- The basket with the fragments of a list loaded. -/
def BasketGlobalInfo.loadAll (bgi : BasketGlobalInfo) (bfs : List BasketFragment) :
    BasketGlobalInfo :=
  bfs.foldl BasketGlobalInfo.loadFragment bgi

section Load

variable {dev : Dev} {p : Nat}

theorem strgRead_global (h : dev.env.Reliable) {len off : Nat} (hend : off + len ≤ seekEnd) :
    strgRead dev .global len off = some ((dev.file .global).read off len) :=
  strgRead_reliable h hend

/-- The loader goes through the places it can use, up to the end of the table or
to the first one that it cannot use. -/
theorem openFragments_stops (hdev : dev.env.Reliable) (hend : diskBfOft p basketFragmentNum ≤ seekEnd)
    {bg : BasketGlobal} {n : Nat} (hnum : bg.fragmentNum.toNat ≤ basketFragmentNum)
    (hle : n ≤ bg.fragmentNum.toNat)
    (huse : ∀ i < n, ∃ bf, Usable bg.useCnt (rowAt dev p i) bf)
    (hstop : n < bg.fragmentNum.toNat → Damaged bg.useCnt (rowAt dev p n))
    {fuel : Nat} (hfuel : n < fuel) :
    openFragments fuel 0 dev ((BasketGlobalInfo.alloc p).vacant bg) =
      (dev, ((BasketGlobalInfo.alloc p).vacant bg).loadAll (rows dev p n)) := by
  have hread : ∀ i < basketFragmentNum, (strgRead dev .global basketFragmentLen
      (diskBfOft p i)).bind BasketFragment.format.decode = rowAt dev p i := by
    intro i hi
    have hlen : basketFragmentLen = 64 := rfl
    rw [strgRead_global hdev, rowAt]
    · rfl
    · rw [diskBfOft_eq] at hend ⊢
      have hmax : basketFragmentNum = 1024 := rfl
      omega
  -- from place `i` on, with the places in front of it loaded
  have hfrom : ∀ (k i : Nat) (fuel : Nat), i + k = n → k < fuel → ∀ bgi : BasketGlobalInfo,
      bgi.basketIdx = p → bgi.bg = bg →
      bgi = ((BasketGlobalInfo.alloc p).vacant bg).loadAll (rows dev p i) →
      openFragments fuel i dev bgi =
        (dev, ((BasketGlobalInfo.alloc p).vacant bg).loadAll (rows dev p n)) := by
    intro k
    induction k with
    | zero =>
      intro i fuel hi hfuel bgi hidx hbg hbgi
      obtain ⟨fuel, rfl⟩ := Nat.exists_eq_add_of_lt hfuel
      obtain rfl : i = n := hi
      rw [Nat.zero_add, openFragments, hbg]
      split
      · next hlt =>
          rw [hidx, hread i (by omega)]
          split
          · rw [hbgi]
          · next bf hrow =>
              rw [if_pos (hstop hlt bf hrow), hbgi]
      · rw [hbgi]
    | succ k ih =>
      intro i fuel hi hfuel bgi hidx hbg hbgi
      obtain ⟨fuel, rfl⟩ : ∃ f, fuel = f + 1 := ⟨fuel - 1, by omega⟩
      obtain ⟨bf, hbf⟩ := huse i (by omega)
      rw [openFragments, hbg, if_pos (by omega), hidx, hread i (by omega), hbf.reads]
      simp only
      rw [if_neg (not_not.2 hbf.useCnt), if_neg (not_not.2 hbf.closed)]
      refine ih (i + 1) fuel (by omega) (by omega) _ hidx hbg ?_
      rw [rows_succ hbf.reads, hbgi, BasketGlobalInfo.loadAll, BasketGlobalInfo.loadAll,
        List.foldl_append]
      rfl
  exact hfrom n 0 fuel (by omega) hfuel _ rfl rfl rfl

end Load

/-! ## Tables that fit a basket -/

/-- Fragments that tile both areas of a basket. -/
structure Tabled (bfs : List BasketFragment) : Prop where
  few : bfs.length ≤ basketFragmentNum
  frames : Tiles BasketFragment.pos BasketFragment.bytes basketFrameOft bfs
  iframes : Tiles BasketFragment.slot BasketFragment.slots 0 bfs
  slots_nonneg : ∀ bf ∈ bfs, 0 ≤ bf.slots
  space : usedSpace bfs ≤ basketFrameSize
  slots : usedIframes bfs ≤ basketIframeNum

theorem Layout.tabled {bgi : BasketGlobalInfo} (h : Layout bgi) : Tabled bgi.bfList := by
  have hspace := h.freeSpace
  have hslots := h.freeIframe
  exact ⟨h.fragmentNum_le, h.frames, h.iframes, h.slots_nonneg, by omega, by omega⟩

theorem usedSpace_map_idled (bfs : List BasketFragment) :
    usedSpace (bfs.map BasketFragment.idled) = usedSpace bfs := by
  rw [usedSpace, total, List.map_map]
  rfl

theorem usedIframes_map_idled (bfs : List BasketFragment) :
    usedIframes (bfs.map BasketFragment.idled) = usedIframes bfs := by
  rw [usedIframes, total, List.map_map]
  rfl

/-- Nothing of it depends on the status of a fragment. -/
theorem Tabled.of_map_idled {bfs bfs' : List BasketFragment} (h : Tabled bfs)
    (heq : bfs'.map BasketFragment.idled = bfs.map BasketFragment.idled) : Tabled bfs' := by
  have hlen : bfs'.length = bfs.length := by
    rw [← List.length_map (f := BasketFragment.idled), heq, List.length_map]
  have hstart : ∀ {base : Nat} {l : List BasketFragment},
      Tiles BasketFragment.pos BasketFragment.bytes base (l.map BasketFragment.idled) ↔
        Tiles BasketFragment.pos BasketFragment.bytes base l := by
    intro base l
    induction l generalizing base with
    | nil => rfl
    | cons bf l ih => exact and_congr_right fun _ => ih
  have hslot : ∀ {base : Int} {l : List BasketFragment},
      Tiles BasketFragment.slot BasketFragment.slots base (l.map BasketFragment.idled) ↔
        Tiles BasketFragment.slot BasketFragment.slots base l := by
    intro base l
    induction l generalizing base with
    | nil => rfl
    | cons bf l ih => exact and_congr_right fun _ => ih
  refine ⟨hlen.trans_le h.few, ?_, ?_, fun bf hbf => ?_, ?_, ?_⟩
  · rw [← hstart, heq, hstart]
    exact h.frames
  · rw [← hslot, heq, hslot]
    exact h.iframes
  · have hmem : bf.idled ∈ bfs'.map BasketFragment.idled := List.mem_map_of_mem hbf
    rw [heq, List.mem_map] at hmem
    obtain ⟨bf', hbf', hidle⟩ := hmem
    have hslots := congrArg BasketFragment.slots hidle
    have hpos := h.slots_nonneg bf' hbf'
    exact hslots ▸ hpos
  · rw [← usedSpace_map_idled, heq, usedSpace_map_idled]
    exact h.space
  · rw [← usedIframes_map_idled, heq, usedIframes_map_idled]
    exact h.slots

/-- What a basket has loaded, fragment after fragment. -/
structure LoadedRows (p : Nat) (bg : BasketGlobal) (bfs : List BasketFragment)
    (bgi : BasketGlobalInfo) : Prop where
  basketIdx : bgi.basketIdx = p
  updateFlag : bgi.updateFlag = false
  bg_eq : bgi.bg = bg
  bfList : bgi.bfList = bfs.map BasketFragment.idled
  freeSpace : bgi.freeSpace.toNat + usedSpace bfs = basketFrameSize
  freeIframe : bgi.freeIframe.toNat + usedIframes bfs = basketIframeNum

theorem loadAll_rows (p : Nat) (bg : BasketGlobal) {bfs : List BasketFragment} (h : Tabled bfs) :
    LoadedRows p bg bfs (((BasketGlobalInfo.alloc p).vacant bg).loadAll bfs) := by
  have hnonneg := h.slots_nonneg
  have hspace := h.space
  have hslots := h.slots
  clear h
  induction bfs using List.reverseRecOn with
  | nil =>
    refine ⟨rfl, rfl, rfl, rfl, ?_, ?_⟩
    · show (UInt32.ofNat basketFrameSize).toNat + 0 = basketFrameSize
      decide
    · show ((UInt32.ofNat basketIframeNum).toNat : Int) + 0 = basketIframeNum
      decide
  | append_singleton bfs bf ih =>
    have hbf : 0 ≤ bf.slots := hnonneg bf (by simp)
    rw [usedSpace_concat] at hspace
    rw [usedIframes_concat] at hslots
    have hbefore := ih (fun x hx => hnonneg x (by simp [hx])) (by omega) (by omega)
    have hfree := hbefore.freeSpace
    have hfreeIframe := hbefore.freeIframe
    rw [BasketGlobalInfo.loadAll, List.foldl_append]
    set bgi := ((BasketGlobalInfo.alloc p).vacant bg).loadAll bfs with hbgi
    show LoadedRows p bg (bfs ++ [bf]) (bgi.loadFragment bf)
    have hword : bf.iframeNum.toUInt32.toNat = bf.slots.toNat :=
      Int32.toNat_toUInt32_of_nonneg hbf
    have hsub : (bgi.freeSpace - bf.fragmentSize).toNat = bgi.freeSpace.toNat - bf.bytes :=
      UInt32.toNat_sub_of_toNat_le (by show bf.bytes ≤ _; omega)
    have hsub' : (bgi.freeIframe - bf.iframeNum.toUInt32).toNat =
        bgi.freeIframe.toNat - bf.slots.toNat := by
      rw [UInt32.toNat_sub_of_toNat_le (by rw [hword]; omega), hword]
    refine ⟨hbefore.basketIdx, hbefore.updateFlag, hbefore.bg_eq, ?_, ?_, ?_⟩
    · show bgi.bfList ++ [_] = _
      rw [hbefore.bfList, List.map_append]
      rfl
    · show (bgi.freeSpace - bf.fragmentSize).toNat + _ = _
      rw [hsub, usedSpace_concat]
      omega
    · show ((bgi.freeIframe - bf.iframeNum.toUInt32).toNat : Int) + _ = _
      rw [hsub', usedIframes_concat]
      omega

/-- A table that is loaded to its end lays the basket out. -/
theorem LoadedRows.layout {p : Nat} {bg : BasketGlobal} {bfs : List BasketFragment}
    {bgi : BasketGlobalInfo} (h : LoadedRows p bg bfs bgi) (htable : Tabled bfs)
    (hnum : bg.fragmentNum.toNat = bfs.length) : Layout bgi := by
  have hidle : Tabled bgi.bfList := htable.of_map_idled (by
    rw [h.bfList, List.map_map]
    rfl)
  refine ⟨?_, hidle.few, hidle.frames, hidle.iframes, hidle.slots_nonneg, ?_, ?_⟩
  · rw [h.bg_eq, h.bfList, List.length_map, hnum]
  · rw [h.bfList, usedSpace_map_idled]
    exact h.freeSpace
  · rw [h.bfList, usedIframes_map_idled]
    exact h.freeIframe

/-- Fragments that tile an area do not overlap. -/
theorem Tabled.apart {bfs : List BasketFragment} (h : Tabled bfs) :
    bfs.Pairwise fun a b => a.pos + a.bytes ≤ b.pos ∧ a.slot + a.slots ≤ b.slot := by
  have hframes := h.frames
  have hiframes := h.iframes
  have hnonneg := h.slots_nonneg
  clear h
  induction bfs using List.reverseRecOn with
  | nil => exact .nil
  | append_singleton bfs bf ih =>
    rw [tiles_concat] at hframes hiframes
    have hnonneg' : ∀ x ∈ bfs, 0 ≤ x.slots := fun x hx => hnonneg x (by simp [hx])
    refine List.pairwise_append.2 ⟨ih hframes.1 hiframes.1 hnonneg', List.pairwise_singleton _ _,
      fun a ha b hb => ?_⟩
    obtain rfl := List.mem_singleton.1 hb
    have hpos := (hframes.1.bounds (fun _ _ => Nat.zero_le _) ha).2
    have hslot := (hiframes.1.bounds hnonneg' ha).2
    exact ⟨hpos.trans_eq hframes.2.symm, hslot.trans_eq hiframes.2.symm⟩

/-! ## All entries -/

/-- The basket as `strg_disk_global_open` makes it of an entry with this header. -/
def loadEntry (dev : Dev) (p : Nat) (bg : BasketGlobal) : Dev × BasketGlobalInfo :=
  openFragments UInt32.size 0 dev ((BasketGlobalInfo.alloc p).vacant bg)

theorem loadEntry_basketIdx (dev : Dev) (p : Nat) (bg : BasketGlobal) :
    (loadEntry dev p bg).2.basketIdx = p := (openFragments_same _ _ _ _).index

/-- The entries from `k` on, `n` of them, have been loaded. -/
structure EntriesLoaded (dev : Dev) (k n : Nat) (dm dm' : DiskMng) : Prop where
  dev_eq : dm'.dev = dev
  dg : dm'.dg = dm.dg
  diskIdx : dm'.diskIdx = dm.diskIdx
  mem : ∀ q, q ∈ dm'.bgiList ↔ q ∈ dm.bgiList ∨ (k ≤ q ∧ q < k + n) ∧ (headAt dev q).isSome
  bgi : ∀ q bg, k ≤ q → q < k + n → headAt dev q = some bg → dm'.bgi q = (loadEntry dev q bg).2
  before : ∀ q, q < k → dm'.bgi q = dm.bgi q

theorem addBasket_bgiList (dm : DiskMng) (bgi : BasketGlobalInfo) :
    (dm.addBasket bgi).bgiList = dm.bgiList ++ [bgi.basketIdx] := by
  unfold DiskMng.addBasket
  simp only
  split <;> rfl

theorem addBasket_same (dm : DiskMng) (bgi : BasketGlobalInfo) :
    (dm.addBasket bgi).dev = dm.dev ∧ (dm.addBasket bgi).dg = dm.dg ∧
      (dm.addBasket bgi).diskIdx = dm.diskIdx ∧
      (dm.addBasket bgi).bgi = Function.update dm.bgi bgi.basketIdx bgi := by
  unfold DiskMng.addBasket
  simp only
  split <;> exact ⟨rfl, rfl, rfl, rfl⟩

theorem openBaskets_entries {dev : Dev} (hdev : dev.env.Reliable) (n : Nat) :
    ∀ (k : Nat) (dm : DiskMng), dm.dev = dev → diskBgOft (k + n) ≤ seekEnd →
      (∀ q bg, k ≤ q → q < k + n → headAt dev q = some bg → (loadEntry dev q bg).1 = dev) →
      EntriesLoaded dev k n dm (openBaskets n k dm) := by
  induction n with
  | zero =>
    intro k dm hd _ _
    exact ⟨hd, rfl, rfl, fun q => by simp [openBaskets], fun q _ h h' => by omega,
      fun _ _ => rfl⟩
  | succ n ih =>
    intro k dm hd hend hclean
    have hlast : diskBgOft k + basketGlobalLen ≤ seekEnd := by
      have hlen : basketGlobalLen = 40 := rfl
      rw [diskBgOft_eq] at hend ⊢
      omega
    have hend' : diskBgOft (k + 1 + n) ≤ seekEnd := by rwa [Nat.add_right_comm]
    have hclean' : ∀ q bg, k + 1 ≤ q → q < k + 1 + n → headAt dev q = some bg →
        (loadEntry dev q bg).1 = dev :=
      fun q bg hq hq' => hclean q bg (by omega) (by omega)
    have hread : strgRead dm.dev .global basketGlobalLen (diskBgOft k) =
        some ((dev.file .global).read (diskBgOft k) basketGlobalLen) := by
      rw [hd]
      exact strgRead_global hdev hlast
    rw [openBaskets, hread]
    simp only
    cases hhead : headAt dev k with
    | none =>
      rw [headAt] at hhead
      rw [hhead]
      obtain ⟨hdev', hdg, hidx, hmem, hbgi, hbefore⟩ := ih (k + 1) dm hd hend' hclean'
      refine ⟨hdev', hdg, hidx, fun q => ?_, fun q bg hq hq' hbg => ?_, fun q hq => ?_⟩
      · rw [hmem]
        refine or_congr_right ⟨fun h => ⟨by omega, h.2⟩, fun h => ⟨?_, h.2⟩⟩
        have hne : q ≠ k := by
          rintro rfl
          rw [headAt, hhead] at h
          exact absurd h.2 (by simp)
        omega
      · have hne : q ≠ k := by
          rintro rfl
          rw [headAt, hhead] at hbg
          cases hbg
        exact hbgi q bg (by omega) (by omega) hbg
      · exact hbefore q (by omega)
    | some bg =>
      have hload := hclean k bg (Nat.le_refl _) (by omega) hhead
      have hbasket := loadEntry_basketIdx dev k bg
      rw [headAt] at hhead
      rw [hhead]
      show EntriesLoaded dev k (n + 1) dm (openBaskets n (k + 1)
        ((dm.setDev (openFragments _ _ dm.dev _).1).addBasket (openFragments _ _ dm.dev _).2))
      rw [hd]
      change EntriesLoaded dev k (n + 1) dm (openBaskets n (k + 1)
        ((dm.setDev (loadEntry dev k bg).1).addBasket (loadEntry dev k bg).2))
      rw [hload]
      set bgi := (loadEntry dev k bg).2 with hbgi'
      obtain ⟨hsame, hdg', hidx', hupdate⟩ := addBasket_same (dm.setDev dev) bgi
      obtain ⟨hdev', hdg, hidx, hmem, hbgi, hbefore⟩ :=
        ih (k + 1) ((dm.setDev dev).addBasket bgi) hsame hend' hclean'
      refine ⟨hdev', hdg.trans hdg', hidx.trans hidx', fun q => ?_, fun q bg' hq hq' hbg => ?_,
        fun q hq => ?_⟩
      · rw [hmem, addBasket_bgiList, List.mem_append, List.mem_singleton, hbasket]
        by_cases hqk : q = k
        · subst hqk
          have hsome : (headAt dev q).isSome := by
            rw [headAt, hhead]
            rfl
          exact ⟨fun _ => .inr ⟨by omega, hsome⟩, fun _ => .inl (.inr rfl)⟩
        · constructor
          · rintro ((hold | heq) | ⟨hq, hsome⟩)
            · exact .inl hold
            · exact absurd heq hqk
            · exact .inr ⟨by omega, hsome⟩
          · rintro (hold | ⟨hq, hsome⟩)
            · exact .inl (.inl hold)
            · exact .inr ⟨by omega, hsome⟩
      · by_cases hqk : q = k
        · subst hqk
          rw [headAt, hhead] at hbg
          obtain rfl := Option.some.inj hbg
          rw [hbefore q (by omega), hupdate, hbasket, Function.update_self]
        · exact hbgi q bg' (by omega) (by omega) hbg
      · rw [hbefore q (by omega), hupdate, hbasket, Function.update_of_ne (by omega)]
        rfl

end Nvr.Storage
