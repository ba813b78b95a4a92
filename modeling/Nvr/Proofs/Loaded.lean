import Nvr.Storage.DiskLoad

/-!
# A disk that has just been loaded

Both loaders go over the baskets in the order of their index and put each of
them into `bgi_list` and into one of the two other lists. `Loaded` is what that
leaves: the split between the lists is by generation, nobody records and nobody
plays back. Writing the entries of the baskets that a scan has repaired
changes none of it.
-/

namespace Nvr.Storage

structure Loaded (dm : DiskMng) : Prop where
  idle : ∀ chn, dm.bfiCur chn = none
  noReader : dm.readList = []
  noDiscard : dm.discards = []
  nodup : dm.bgiList.Nodup
  index : ∀ p ∈ dm.bgiList, (dm.bgi p).basketIdx = p
  readRef : ∀ p ∈ dm.bgiList, (dm.bgi p).readRef = 0
  new : dm.bgiNew = dm.bgiList.filter fun p => (dm.bgi p).bg.useCnt = dm.dg.useCnt
  old : dm.bgiOld = dm.bgiList.filter fun p => (dm.bgi p).bg.useCnt ≠ dm.dg.useCnt

/-- Two views of a basket that agree on what `Loaded` asks about. -/
structure SameBasket (bgi bgi' : BasketGlobalInfo) : Prop where
  index : bgi'.basketIdx = bgi.basketIdx
  readRef : bgi'.readRef = bgi.readRef

theorem SameBasket.refl (bgi : BasketGlobalInfo) : SameBasket bgi bgi := ⟨rfl, rfl⟩

theorem SameBasket.trans {a b c : BasketGlobalInfo} (h : SameBasket a b) (h' : SameBasket b c) :
    SameBasket a c := ⟨h'.index.trans h.index, h'.readRef.trans h.readRef⟩

theorem Loaded.setDev {dm : DiskMng} (h : Loaded dm) (dev : Dev) : Loaded (dm.setDev dev) :=
  ⟨h.idle, h.noReader, h.noDiscard, h.nodup, h.index, h.readRef, h.new, h.old⟩

theorem Loaded.empty (diskIdx : Int32) (dev : Dev) (dg : DiskGlobal) :
    Loaded (.empty diskIdx dev dg) where
  idle _ := rfl
  noReader := rfl
  noDiscard := rfl
  nodup := List.nodup_nil
  index p hp := by cases hp
  readRef p hp := by cases hp
  new := rfl
  old := rfl

/-- The next basket is none of those before. -/
theorem Loaded.addBasket {dm : DiskMng} (h : Loaded dm) {bgi : BasketGlobalInfo}
    (hnew : bgi.basketIdx ∉ dm.bgiList) (href : bgi.readRef = 0) :
    Loaded (dm.addBasket bgi) ∧
      (dm.addBasket bgi).bgiList = dm.bgiList ++ [bgi.basketIdx] := by
  have hother : ∀ p ∈ dm.bgiList, Function.update dm.bgi bgi.basketIdx bgi p = dm.bgi p := by
    intro p hp
    have hne : p ≠ bgi.basketIdx := fun heq => hnew (heq ▸ hp)
    exact Function.update_of_ne hne _ _
  have hself : Function.update dm.bgi bgi.basketIdx bgi bgi.basketIdx = bgi :=
    Function.update_self _ _ _
  have hnodup : (dm.bgiList ++ [bgi.basketIdx]).Nodup :=
    List.nodup_append.2 ⟨h.nodup, List.nodup_singleton _, by
      rintro a ha b hb rfl
      obtain rfl := List.mem_singleton.1 hb
      exact hnew ha⟩
  have hindex : ∀ p ∈ dm.bgiList ++ [bgi.basketIdx],
      (Function.update dm.bgi bgi.basketIdx bgi p).basketIdx = p := by
    intro p hp
    rcases List.mem_append.1 hp with hp | hp
    · rw [hother p hp, h.index p hp]
    · obtain rfl := List.mem_singleton.1 hp
      rw [hself]
  have hreadRef : ∀ p ∈ dm.bgiList ++ [bgi.basketIdx],
      (Function.update dm.bgi bgi.basketIdx bgi p).readRef = 0 := by
    intro p hp
    rcases List.mem_append.1 hp with hp | hp
    · rw [hother p hp, h.readRef p hp]
    · obtain rfl := List.mem_singleton.1 hp
      rw [hself, href]
  have hsplit : ∀ q : UInt32 → Bool,
      (dm.bgiList ++ [bgi.basketIdx]).filter
          (fun p => q (Function.update dm.bgi bgi.basketIdx bgi p).bg.useCnt) =
        dm.bgiList.filter (fun p => q (dm.bgi p).bg.useCnt) ++
          if q bgi.bg.useCnt then [bgi.basketIdx] else [] := by
    intro q
    rw [List.filter_append]
    congr 1
    · exact List.filter_congr fun p hp => by rw [hother p hp]
    · rw [List.filter_singleton, hself]
      cases q bgi.bg.useCnt <;> rfl
  have hsplitNew := hsplit fun useCnt => useCnt = dm.dg.useCnt
  have hsplitOld := hsplit fun useCnt => useCnt ≠ dm.dg.useCnt
  rw [← h.new] at hsplitNew
  rw [← h.old] at hsplitOld
  unfold DiskMng.addBasket
  simp only
  split
  · next hcurrent =>
      have hcurrent : dm.dg.useCnt = bgi.bg.useCnt := hcurrent
      refine ⟨⟨h.idle, h.noReader, h.noDiscard, hnodup, hindex, hreadRef, ?_, ?_⟩, rfl⟩
      · exact (hsplitNew.trans (by simp [hcurrent])).symm
      · exact (hsplitOld.trans (by simp [hcurrent])).symm
  · next hcurrent =>
      have hcurrent : ¬bgi.bg.useCnt = dm.dg.useCnt := fun heq => hcurrent heq.symm
      refine ⟨⟨h.idle, h.noReader, h.noDiscard, hnodup, hindex, hreadRef, ?_, ?_⟩, rfl⟩
      · exact (hsplitNew.trans (by simp [hcurrent])).symm
      · exact (hsplitOld.trans (by simp [hcurrent])).symm

/-! ## What the loaders keep of a basket -/

theorem loadFragment_same (bgi : BasketGlobalInfo) (bf : BasketFragment) :
    SameBasket bgi (bgi.loadFragment bf) := ⟨rfl, rfl⟩

theorem strgBasketScanFragment_same {dev : Dev} {bgi bgi' : BasketGlobalInfo} {bfIdx : Nat}
    {bf : BasketFragment} (h : (strgBasketScanFragment dev bgi bfIdx).1 = some (bf, bgi')) :
    SameBasket bgi bgi' := by
  unfold strgBasketScanFragment at h
  simp only at h
  repeat' split at h
  all_goals first
    | cases h; done
    | (obtain ⟨_, rfl⟩ := Prod.mk.inj (Option.some.inj h); exact ⟨rfl, rfl⟩)

theorem openFragments_same (fuel : Nat) :
    ∀ (bfIdx : Nat) (dev : Dev) (bgi : BasketGlobalInfo),
      SameBasket bgi (openFragments fuel bfIdx dev bgi).2 := by
  induction fuel with
  | zero => exact fun _ _ bgi => .refl bgi
  | succ fuel ih =>
      intro bfIdx dev bgi
      rw [openFragments]
      split
      · split
        · exact .refl bgi
        · next bf _ =>
            split
            · exact .refl bgi
            · split
              · simp only
                split
                · exact .refl bgi
                · next bf' bgi' hscan =>
                    refine (strgBasketScanFragment_same hscan).trans (.trans ?_ (ih _ _ _))
                    exact ⟨rfl, rfl⟩
              · exact (loadFragment_same bgi bf).trans (ih _ _ _)
      · exact .refl bgi

theorem scanFragments_same (n : Nat) :
    ∀ (bfIdx : Nat) (dev : Dev) (bgi : BasketGlobalInfo),
      SameBasket bgi (scanFragments dev bgi n bfIdx).2 := by
  induction n with
  | zero => exact fun _ _ bgi => .refl bgi
  | succ n ih =>
      intro bfIdx dev bgi
      rw [scanFragments]
      split
      · exact .refl bgi
      · next bf _ =>
          split
          · split
            · exact .refl bgi
            · refine SameBasket.trans ?_ (ih _ _ _)
              exact ⟨rfl, rfl⟩
          · exact (loadFragment_same bgi bf).trans (ih _ _ _)

theorem strgBasketScan_same {dev : Dev} {bgi bgi' : BasketGlobalInfo}
    (h : (strgBasketScan dev bgi).1 = some bgi') : SameBasket bgi bgi' := by
  unfold strgBasketScan at h
  simp only at h
  split at h
  · split at h
    · split at h
      · obtain rfl := Option.some.inj h
        exact ⟨rfl, rfl⟩
      · cases h
    · next bg _ =>
        have hscan := scanFragments_same bg.fragmentNum.toNat 0 dev.wait (bgi.vacant bg)
        split at h
        · obtain rfl := Option.some.inj h
          exact ⟨hscan.index, hscan.readRef⟩
        · obtain rfl := Option.some.inj h
          exact ⟨hscan.index, hscan.readRef⟩
  · cases h

/-! ## The loops over the baskets -/

/-- What `openBaskets` and `scanBaskets` carry: the baskets so far are below the
next index. -/
structure LoadedTo (k : Nat) (dm : DiskMng) : Prop where
  loaded : Loaded dm
  below : ∀ p ∈ dm.bgiList, p < k

theorem LoadedTo.skip {k : Nat} {dm : DiskMng} (h : LoadedTo k dm) : LoadedTo (k + 1) dm :=
  ⟨h.loaded, fun p hp => Nat.lt_succ_of_lt (h.below p hp)⟩

theorem LoadedTo.setDev {k : Nat} {dm : DiskMng} (h : LoadedTo k dm) (dev : Dev) :
    LoadedTo k (dm.setDev dev) := ⟨h.loaded.setDev dev, h.below⟩

theorem LoadedTo.addBasket {k : Nat} {dm : DiskMng} (h : LoadedTo k dm) {bgi : BasketGlobalInfo}
    (hsame : SameBasket (.alloc k) bgi) : LoadedTo (k + 1) (dm.addBasket bgi) := by
  have hindex : bgi.basketIdx = k := hsame.index
  have hnew : bgi.basketIdx ∉ dm.bgiList := fun hmem => by
    have := h.below _ hmem
    omega
  obtain ⟨hloaded, hlist⟩ := h.loaded.addBasket hnew hsame.readRef
  refine ⟨hloaded, fun p hp => ?_⟩
  rw [hlist] at hp
  rcases List.mem_append.1 hp with hp | hp
  · exact Nat.lt_succ_of_lt (h.below p hp)
  · rw [List.mem_singleton.1 hp, hindex]
    exact Nat.lt_succ_self k

theorem openBaskets_loaded (n : Nat) :
    ∀ {k : Nat} {dm : DiskMng}, LoadedTo k dm → Loaded (openBaskets n k dm) := by
  induction n with
  | zero => exact fun h => h.loaded
  | succ n ih =>
      intro k dm h
      rw [openBaskets]
      split
      · exact h.loaded
      · split
        · exact ih h.skip
        · next bg _ =>
            have hvacant : SameBasket (.alloc k) ((BasketGlobalInfo.alloc k).vacant bg) := ⟨rfl, rfl⟩
            exact ih (LoadedTo.addBasket (h.setDev _)
              (hvacant.trans (openFragments_same _ _ _ _)))

theorem scanBaskets_loaded (n : Nat) :
    ∀ {k : Nat} {dm : DiskMng}, LoadedTo k dm → Loaded (scanBaskets n k dm) := by
  induction n with
  | zero => exact fun h => h.loaded
  | succ n ih =>
      intro k dm h
      rw [scanBaskets]
      split
      · refine ih (LoadedTo.skip ⟨?_, h.below⟩)
        exact ⟨h.loaded.idle, h.loaded.noReader, h.loaded.noDiscard, h.loaded.nodup,
          h.loaded.index, h.loaded.readRef, h.loaded.new, h.loaded.old⟩
      · next bgi hscan =>
          exact ih (LoadedTo.addBasket (h.setDev _) (strgBasketScan_same hscan))

theorem openGlobal_loaded {diskIdx : Int32} {dev : Dev} {dm : DiskMng}
    (h : (openGlobal diskIdx dev).1 = some dm) : LoadedTo 0 dm := by
  unfold openGlobal at h
  split at h
  · split at h
    · cases h
    · obtain rfl := Option.some.inj h
      exact ⟨.empty _ _ _, fun p hp => by cases hp⟩
  · cases h

theorem strgDiskGlobalOpen_loaded {diskIdx : Int32} {dev : Dev} {dm : DiskMng}
    (h : (strgDiskGlobalOpen diskIdx dev).1 = some dm) : Loaded dm := by
  unfold strgDiskGlobalOpen at h
  split at h
  · cases h
  · next hglobal =>
      obtain rfl := Option.some.inj h
      exact openBaskets_loaded _ (openGlobal_loaded (congrArg Prod.fst hglobal))

theorem strgDiskGlobalScan_loaded {diskIdx : Int32} {dev : Dev} {dm : DiskMng}
    (h : (strgDiskGlobalScan diskIdx dev).1 = some dm) : Loaded dm := by
  unfold strgDiskGlobalScan at h
  split at h
  · cases h
  · next hglobal =>
      obtain rfl := Option.some.inj h
      exact scanBaskets_loaded _ (openGlobal_loaded (congrArg Prod.fst hglobal))

/-- A basket replaced by one of the same generation. -/
theorem Loaded.setBgi {dm : DiskMng} (h : Loaded dm) {p : Nat} {bgi : BasketGlobalInfo}
    (hsame : SameBasket (dm.bgi p) bgi) (huse : bgi.bg.useCnt = (dm.bgi p).bg.useCnt) :
    Loaded (dm.setBgi p bgi) := by
  have hbgi : ∀ q, SameBasket (dm.bgi q) ((dm.setBgi p bgi).bgi q) ∧
      ((dm.setBgi p bgi).bgi q).bg.useCnt = (dm.bgi q).bg.useCnt := by
    intro q
    by_cases hq : q = p
    · subst hq
      rw [DiskMng.bgi_setBgi, Function.update_self]
      exact ⟨hsame, huse⟩
    · rw [DiskMng.bgi_setBgi, Function.update_of_ne hq]
      exact ⟨.refl _, rfl⟩
  refine ⟨h.idle, h.noReader, h.noDiscard, h.nodup, fun q hq => ?_, fun q hq => ?_, ?_, ?_⟩
  · exact (hbgi q).1.index.trans (h.index q hq)
  · exact (hbgi q).1.readRef.trans (h.readRef q hq)
  · exact h.new.trans (List.filter_congr fun q _ => by rw [(hbgi q).2]; rfl)
  · exact h.old.trans (List.filter_congr fun q _ => by rw [(hbgi q).2]; rfl)

theorem strgDiskGlobalWrite_loaded {dm : DiskMng} (h : Loaded dm) :
    Loaded (strgDiskGlobalWrite dm) := by
  unfold strgDiskGlobalWrite
  refine List.foldlRecOn (motive := Loaded) _ _ h fun dm hdm p _ => ?_
  unfold DiskMng.writeBasket
  split
  · exact (hdm.setDev _).setBgi ⟨rfl, rfl⟩ rfl
  · exact hdm

theorem strgDiskOpen_loaded {diskIdx : Int32} {dev : Dev} {dm : DiskMng}
    (h : (strgDiskOpen diskIdx dev).1 = some dm) : Loaded dm := by
  unfold strgDiskOpen at h
  split at h
  · split at h
    · split at h
      · cases h
      · next hscan =>
          obtain rfl := Option.some.inj h
          exact (strgDiskGlobalWrite_loaded
            (strgDiskGlobalScan_loaded (congrArg Prod.fst hscan))).setDev _
    · exact strgDiskGlobalOpen_loaded h
  · cases h

/-! ## The surroundings stay the same -/

@[simp] theorem env_strgBasketWriteGlobal (dev : Dev) (idx : Nat) (bg : BasketGlobal) :
    (strgBasketWriteGlobal dev idx bg).2.env = dev.env := strgWrite_env _ _ _ _

@[simp] theorem env_strgBasketWriteFragment (dev : Dev) (idx bfIdx : Nat) (bf : BasketFragment) :
    (strgBasketWriteFragment dev idx bf bfIdx).2.env = dev.env := strgWrite_env _ _ _ _

@[simp] theorem env_strgDiskWriteBg (dev : Dev) (idx : Nat) (bg : BasketGlobal) :
    (strgDiskWriteBg dev idx bg).2.env = dev.env := strgWrite_env _ _ _ _

@[simp] theorem env_strgDiskWriteBf (dev : Dev) (idx bfIdx : Nat) (bf : BasketFragment) :
    (strgDiskWriteBf dev idx bfIdx bf).2.env = dev.env := strgWrite_env _ _ _ _

@[simp] theorem env_strgDiskWriteGlobal (dev : Dev) (dg : DiskGlobal) :
    (strgDiskWriteGlobal dev dg).2.env = dev.env := strgWrite_env _ _ _ _

theorem strgBasketScanFragment_env (dev : Dev) (bgi : BasketGlobalInfo) (bfIdx : Nat) :
    (strgBasketScanFragment dev bgi bfIdx).2.env = dev.env := by
  unfold strgBasketScanFragment
  simp only
  repeat' split
  all_goals simp

theorem openFragments_env (fuel : Nat) :
    ∀ (bfIdx : Nat) (dev : Dev) (bgi : BasketGlobalInfo),
      (openFragments fuel bfIdx dev bgi).1.env = dev.env := by
  induction fuel with
  | zero => exact fun _ _ _ => rfl
  | succ fuel ih =>
      intro bfIdx dev bgi
      have hscan := strgBasketScanFragment_env dev bgi bfIdx
      rw [openFragments]
      split
      · split
        · rfl
        · split
          · rfl
          · split
            · simp only
              split
              · exact hscan
              · rw [ih, env_strgDiskWriteBg, env_strgDiskWriteBf, hscan]
            · exact ih _ _ _
      · rfl

theorem scanFragments_env (n : Nat) :
    ∀ (bfIdx : Nat) (dev : Dev) (bgi : BasketGlobalInfo),
      (scanFragments dev bgi n bfIdx).1.env = dev.env := by
  induction n with
  | zero => exact fun _ _ _ => rfl
  | succ n ih =>
      intro bfIdx dev bgi
      rw [scanFragments]
      split
      · rfl
      · split
        · split
          · rfl
          · rw [ih, env_strgBasketWriteFragment]
        · exact ih _ _ _

theorem strgBasketScan_env (dev : Dev) (bgi : BasketGlobalInfo) :
    (strgBasketScan dev bgi).2.env = dev.env := by
  unfold strgBasketScan
  simp only
  split
  · split
    · exact env_strgBasketWriteGlobal _ _ _
    · split
      · rw [env_strgBasketWriteGlobal, scanFragments_env, Dev.env_wait]
      · rw [scanFragments_env, Dev.env_wait]
  · rfl

theorem addBasket_dev (dm : DiskMng) (bgi : BasketGlobalInfo) :
    (dm.addBasket bgi).dev = dm.dev := by
  unfold DiskMng.addBasket
  simp only
  split <;> rfl

theorem openBaskets_env (n : Nat) :
    ∀ (k : Nat) (dm : DiskMng), (openBaskets n k dm).dev.env = dm.dev.env := by
  induction n with
  | zero => exact fun _ _ => rfl
  | succ n ih =>
      intro k dm
      rw [openBaskets]
      split
      · rfl
      · split
        · exact ih _ _
        · rw [ih, addBasket_dev, DiskMng.dev_setDev, openFragments_env]

theorem scanBaskets_env (n : Nat) :
    ∀ (k : Nat) (dm : DiskMng), (scanBaskets n k dm).dev.env = dm.dev.env := by
  induction n with
  | zero => exact fun _ _ => rfl
  | succ n ih =>
      intro k dm
      have hscan := strgBasketScan_env dm.dev (.alloc k)
      rw [scanBaskets]
      split
      · exact (ih _ _).trans hscan
      · rw [ih, addBasket_dev]
        exact hscan

theorem writeBfs_env (idx : Nat) (bfs : List BasketFragment) :
    ∀ (bfIdx : Nat) (dev : Dev), (writeBfs idx bfIdx bfs dev).env = dev.env := by
  induction bfs with
  | nil => exact fun _ _ => rfl
  | cons bf bfs ih =>
      intro bfIdx dev
      rw [writeBfs, ih, env_strgDiskWriteBf]

theorem strgDiskGlobalWrite_env (dm : DiskMng) : (strgDiskGlobalWrite dm).dev.env = dm.dev.env := by
  unfold strgDiskGlobalWrite
  refine List.foldlRecOn (motive := fun d : DiskMng => d.dev.env = dm.dev.env) _ _ rfl
    fun d hd p _ => ?_
  unfold DiskMng.writeBasket
  split
  · simp only [DiskMng.dev_setBgi, DiskMng.dev_setDev]
    rw [writeBfs_env, env_strgDiskWriteBg, hd]
  · exact hd

theorem openGlobal_env {diskIdx : Int32} {dev : Dev} {dm : DiskMng}
    (h : (openGlobal diskIdx dev).1 = some dm) : dm.dev.env = dev.env := by
  unfold openGlobal at h
  split at h
  · split at h
    · cases h
    · obtain rfl := Option.some.inj h
      rfl
  · cases h

theorem strgDiskOpen_env {diskIdx : Int32} {dev : Dev} {dm : DiskMng}
    (h : (strgDiskOpen diskIdx dev).1 = some dm) : dm.dev.env = dev.env := by
  unfold strgDiskOpen at h
  split at h
  · split at h
    · split at h
      · cases h
      · next hscan =>
          obtain rfl := Option.some.inj h
          unfold strgDiskGlobalScan at hscan
          split at hscan
          · cases hscan
          · next hglobal =>
              obtain rfl := Option.some.inj (Prod.mk.inj hscan).1
              show (strgDiskGlobalWrite _).dev.env = _
              rw [strgDiskGlobalWrite_env, scanBaskets_env,
                openGlobal_env (congrArg Prod.fst hglobal)]
    · unfold strgDiskGlobalOpen at h
      split at h
      · cases h
      · next hglobal =>
          obtain rfl := Option.some.inj h
          rw [openBaskets_env, openGlobal_env (congrArg Prod.fst hglobal)]
  · cases h

/-! ## Disks just formatted -/

/-- A disk that has just been formatted, on a device where no call fails. -/
def formatted (freeMb : Int32) : Dev := (strgFormatDisk .blank freeMb).getD .blank

theorem formatEntries_env (n : Nat) :
    ∀ (k : Nat) (dev : Dev), (formatEntries n k dev).env = dev.env := by
  induction n with
  | zero => exact fun _ _ => rfl
  | succ n ih =>
      intro k dev
      rw [formatEntries, ih, env_strgDiskWriteBg]

theorem strgBasketFormat_env (dev : Dev) (idx : Nat) :
    (strgBasketFormat dev idx).2.env = dev.env := by
  unfold strgBasketFormat
  split
  · rw [env_strgBasketWriteGlobal, Dev.env_wait]
  · rfl

theorem formatBaskets_env (n : Nat) :
    ∀ (k : Nat) (dev : Dev), (formatBaskets n k dev).2.env = dev.env := by
  induction n with
  | zero => exact fun _ _ => rfl
  | succ n ih =>
      intro k dev
      rw [formatBaskets]
      split
      · rw [ih, strgBasketFormat_env]
      · exact strgBasketFormat_env dev k

theorem strgFormatDisk_env {dev dev' : Dev} {freeMb : Int32}
    (h : strgFormatDisk dev freeMb = some dev') : dev'.env = dev.env := by
  have hglobal : (strgDiskGlobalFormat dev freeMb).2.env = dev.env := by
    unfold strgDiskGlobalFormat
    simp only
    split
    · rw [formatEntries_env, env_strgDiskWriteGlobal, Dev.env_wait]
    · rfl
  have hbaskets : (strgFormatCreateBaskets dev freeMb).2.env = dev.env := by
    unfold strgFormatCreateBaskets
    simp only
    split
    · exact hglobal
    · rw [formatBaskets_env, hglobal]
  unfold strgFormatDisk strgFormatCreateFlagFile at h
  simp only at h
  split at h
  · obtain rfl := Option.some.inj h
    split
    · rw [Dev.env_commit, hbaskets]
    · rw [Dev.env_wait, hbaskets]
  · cases h

@[simp] theorem formatted_env (freeMb : Int32) : (formatted freeMb).env = Dev.blank.env := by
  unfold formatted
  cases h : strgFormatDisk .blank freeMb with
  | none => rfl
  | some dev => exact strgFormatDisk_env h

end Nvr.Storage
