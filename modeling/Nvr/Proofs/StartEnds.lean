import Mathlib
import Nvr.Proofs.BasketStep
import Nvr.Proofs.DiskStep
import Nvr.Storage.DiskLoad

/-!
# When a recording starts in finitely many attempts

`strg_disk_write_start` puts a basket back when its header cannot be written, and
the next attempt takes it again: it went to the list of the current generation,
from which a channel is served first, and nothing about it has changed. So a
disk on which opens succeed and fragment headers do not get written keeps the
loop busy for ever, as long as there is anything that it can take and put back
there (`Retried`). Such a basket is one of the current generation, or one that
may be reset into it.

Without one, each failed attempt moves a basket into the list of the older ones
for good, and the loop is over after as many attempts as there were baskets
(`ends_of_not_retried`). With one, the loop depends on the writes; it is over as
soon as they succeed again (`ends_of_recovers`).
-/

namespace Nvr.Storage

/-- Which opens and which writes succeed. -/
structure Calls where
  openOk : Nat → Bool
  writeCut : Nat → FilePath → Nat → List UInt8 → Option Nat

/-- The disk with the outcome of its calls replaced. -/
def DiskMng.under (dm : DiskMng) (calls : Calls) : DiskMng :=
  dm.setDev { dm.dev with
    env := { dm.dev.env with openOk := calls.openOk, writeCut := calls.writeCut } }

/-- Every write completes from some moment on. -/
def Calls.Recovers (calls : Calls) : Prop :=
  ∃ n, ∀ m ≥ n, ∀ p off data, calls.writeCut m p off data = none

/-- The start of a recording comes to an end, and a channel that has been given
no basket has none. -/
def StartEnds (chn : Chn) (recordType : RecordType) (overwrite : UInt32) (dm : DiskMng) : Prop :=
  ∃ fuel r dm', strgDiskWriteStart chn recordType overwrite fuel dm = some (r, dm') ∧
    (r = -1 → dm'.bfiCur chn = none)

/-- A basket that a failed attempt leaves where another one takes it. -/
def Retried (chn : Chn) (overwrite : UInt32) (dm : DiskMng) (p : Nat) : Prop :=
  p ∈ dm.bgiNew ∧ allocFits chn (dm.bgi p) = true ∧ (dm.bgi p).bg.useCnt = dm.dg.useCnt ∨
    overwritable overwrite (dm.bgi p) = true ∧
      (p ∈ dm.bgiOld ∨ p ∈ dm.bgiNew ∧ allocFits chn (dm.bgi p) = true)

/-- A pattern in which some open, or some write of a basket header, fails. -/
def Env.Fails (env : Env) : Prop :=
  (∃ n, env.openOk n = false) ∨
    ∃ n idx data, env.writeCut n (.basket idx) basketGlobalOft data ≠ none

section Attempts

variable {chn : Chn} {recordType : RecordType} {overwrite : UInt32} {dm : DiskMng}

/-! ## What an allocation does -/

/-- What is left of a disk while a basket is looked for: baskets that were to be
taken may have been reset, and time has passed. -/
structure Scanned (chn : Chn) (overwrite : UInt32) (dm d : DiskMng) : Prop where
  env : d.dev.env = dm.dev.env
  tick : dm.dev.tick ≤ d.dev.tick
  diskIdx : d.diskIdx = dm.diskIdx
  dg : d.dg = dm.dg
  bgiNew : d.bgiNew = dm.bgiNew
  bgiOld : d.bgiOld = dm.bgiOld
  bfiCur : d.bfiCur = dm.bfiCur
  bgi : ∀ q, d.bgi q = dm.bgi q ∨ overwritable overwrite (dm.bgi q) = true ∧
    d.bgi q = (dm.bgi q).reset (chnWord chn) dm.dg.useCnt

theorem Scanned.refl (dm : DiskMng) : Scanned chn overwrite dm dm :=
  ⟨rfl, Nat.le_refl _, rfl, rfl, rfl, rfl, rfl, fun _ => .inl rfl⟩

theorem Scanned.wait (dm : DiskMng) : Scanned chn overwrite dm (dm.setDev dm.dev.wait) :=
  ⟨rfl, Nat.le_succ _, rfl, rfl, rfl, rfl, rfl, fun _ => .inl rfl⟩

/-- What may still be taken after a scan could be taken before it. -/
theorem Scanned.overwritable {d : DiskMng} (h : Scanned chn overwrite dm d) {q : Nat}
    (hover : Storage.overwritable overwrite (d.bgi q) = true) :
    Storage.overwritable overwrite (dm.bgi q) = true := by
  obtain heq | ⟨hover', -⟩ := h.bgi q
  · rwa [heq] at hover
  · exact hover'

theorem Scanned.trans {d e : DiskMng} (h : Scanned chn overwrite dm d)
    (h' : Scanned chn overwrite d e) : Scanned chn overwrite dm e where
  env := h'.env.trans h.env
  tick := h.tick.trans h'.tick
  diskIdx := h'.diskIdx.trans h.diskIdx
  dg := h'.dg.trans h.dg
  bgiNew := h'.bgiNew.trans h.bgiNew
  bgiOld := h'.bgiOld.trans h.bgiOld
  bfiCur := h'.bfiCur.trans h.bfiCur
  bgi q := by
    obtain heq | ⟨hover, heq⟩ := h'.bgi q
    · rw [heq]
      exact h.bgi q
    · refine .inr ⟨h.overwritable hover, ?_⟩
      rw [heq, h.dg]
      obtain heq' | ⟨-, heq'⟩ := h.bgi q
      · rw [heq']
      · rw [heq']
        rfl

theorem Scanned.short {d : DiskMng} (h : Scanned chn overwrite dm d) (q : Nat) :
    (d.bgi q).bfList.length ≤ (dm.bgi q).bfList.length := by
  obtain heq | ⟨-, heq⟩ := h.bgi q
  · rw [heq]
  · rw [heq]
    exact Nat.zero_le _

/-- A basket that has been reset goes with the scan. -/
theorem Scanned.reset {dm : DiskMng} {p : Nat}
    (hover : Storage.overwritable overwrite (dm.bgi p) = true) :
    Scanned chn overwrite dm (dm.resetBasket p (.fresh p) chn overwrite).2 where
  env := strgWrite_env _ _ _ _
  tick := by
    obtain ⟨n, hcommit⟩ := strgWrite_commit dm.dev (.basket (dm.bgi p).basketIdx)
      (BasketGlobal.format.encode ((dm.bgi p).reset (chnWord chn) dm.dg.useCnt).bg)
      basketGlobalOft
    show dm.dev.tick ≤ (strgWrite _ _ _ _).2.tick
    rw [hcommit]
    exact Nat.le_succ _
  diskIdx := rfl
  dg := rfl
  bgiNew := rfl
  bgiOld := rfl
  bfiCur := rfl
  bgi q := by
    by_cases hq : q = p
    · subst hq
      exact .inr ⟨hover, resetBasket_bgi _ _ _⟩
    · exact .inl (Function.update_of_ne hq _ _)

/-- The disk with the basket `p` in the hands of the channel. -/
structure Took (chn : Chn) (dm : DiskMng) (p : Nat) (t : DiskMng) : Prop where
  env : t.dev.env = dm.dev.env
  tick : dm.dev.tick ≤ t.dev.tick
  diskIdx : t.diskIdx = dm.diskIdx
  dg : t.dg = dm.dg
  fits : allocFits chn (t.bgi p) = true
  opened : ∃ n, dm.dev.env.openOk n = true
  short : ∀ q, (t.bgi q).bfList.length ≤ (dm.bgi q).bfList.length

/-- It was one of the current generation. -/
structure FromNew (dm : DiskMng) (p : Nat) (t : DiskMng) : Prop where
  mem : p ∈ dm.bgiNew
  bgiNew : t.bgiNew = dm.bgiNew.erase p
  bgiOld : t.bgiOld = dm.bgiOld
  bgi : t.bgi = dm.bgi

/-- It was one of the older ones, and belongs to the current generation now. -/
structure FromOld (overwrite : UInt32) (dm : DiskMng) (p : Nat) (t : DiskMng) : Prop where
  mem : p ∈ dm.bgiOld
  overwrites : overwritable overwrite (dm.bgi p) = true
  useCnt : (t.bgi p).bg.useCnt = dm.dg.useCnt

theorem Took.after {d t : DiskMng} {p : Nat} (h : Took chn d p t)
    (hscan : Scanned chn overwrite dm d) : Took chn dm p t where
  env := h.env.trans hscan.env
  tick := hscan.tick.trans h.tick
  diskIdx := h.diskIdx.trans hscan.diskIdx
  dg := h.dg.trans hscan.dg
  fits := h.fits
  opened := hscan.env ▸ h.opened
  short q := (h.short q).trans (hscan.short q)

theorem FromOld.after {d t : DiskMng} {p : Nat} (h : FromOld overwrite d p t)
    (hscan : Scanned chn overwrite dm d) : FromOld overwrite dm p t where
  mem := hscan.bgiOld ▸ h.mem
  overwrites := hscan.overwritable h.overwrites
  useCnt := by rw [h.useCnt, hscan.dg]

theorem strgBasketOpen_fails {dev : Dev} {p : Nat} (h : (strgBasketOpen dev p).1 = none) :
    dev.env.Fails := by
  refine .inl ⟨dev.tick, ?_⟩
  unfold strgBasketOpen at h
  simpa using h

theorem strgBasketOpen_opened {dev : Dev} {p : Nat} {bfi : BasketFileInfo}
    (h : (strgBasketOpen dev p).1 = some bfi) : ∃ n, dev.env.openOk n = true := by
  refine ⟨dev.tick, ?_⟩
  by_contra hopen
  rw [strgBasketOpen, if_neg hopen] at h
  cases h

theorem allocNew_cases (chn : Chn) (overwrite : UInt32) (l : List Nat) (dm : DiskMng) (hl : ∀ p ∈ l, p ∈ dm.bgiNew) :
    (∃ dev, Scanned chn overwrite dm (dm.setDev dev) ∧
        ((∃ p ∈ l, allocFits chn (dm.bgi p) = true) → dm.dev.env.Fails) ∧
        allocNew chn l dm = (none, dm.setDev dev)) ∨
      ∃ p t, Took chn dm p t ∧ FromNew dm p t ∧ allocNew chn l dm = (some (.fresh p), t) := by
  induction l generalizing dm with
  | nil => exact .inl ⟨dm.dev, .refl dm, by simp, rfl⟩
  | cons p rest ih =>
    have hrest : ∀ q ∈ rest, q ∈ dm.bgiNew := fun q hq => hl q (List.mem_cons_of_mem _ hq)
    rw [allocNew]
    split
    · next hfits =>
        simp only
        split
        · next hclosed =>
            have hfails := strgBasketOpen_fails hclosed
            have hwait : Scanned chn overwrite dm (dm.setDev dm.dev.wait) := .wait dm
            obtain ⟨dev, hscan, -, heq⟩ | ⟨q, t, htook, hfrom, heq⟩ :=
              ih (dm.setDev dm.dev.wait) hrest
            · exact .inl ⟨dev, (Scanned.wait dm).trans hscan, fun _ => hfails, heq⟩
            · exact .inr ⟨q, t, htook.after hwait, ⟨hfrom.mem, hfrom.bgiNew, hfrom.bgiOld,
                hfrom.bgi⟩, heq⟩
        · next bfi hbfi =>
            have hopened := strgBasketOpen_opened hbfi
            obtain rfl := strgBasketOpen_some hbfi
            exact .inr ⟨p, (dm.setDev dm.dev.wait).takeNew chn (.fresh p),
              ⟨rfl, Nat.le_succ _, rfl, rfl, hfits, hopened, fun _ => Nat.le_refl _⟩,
              ⟨hl p List.mem_cons_self, rfl, rfl, rfl⟩, rfl⟩
    · next hfits =>
        obtain ⟨dev, hscan, hfails, heq⟩ | htook := ih dm hrest
        · refine .inl ⟨dev, hscan, ?_, heq⟩
          rintro ⟨q, hq, hfits'⟩
          obtain rfl | hq := List.mem_cons.1 hq
          · exact absurd hfits' hfits
          · exact hfails ⟨q, hq, hfits'⟩
        · exact .inr htook

/-- A reset fails when the header cannot be written. -/
theorem reset_fails {p : Nat} {bfi : BasketFileInfo}
    (h : (dm.resetBasket p bfi chn overwrite).1 < 0) :
    ∃ n idx data, dm.dev.env.writeCut n (.basket idx) basketGlobalOft data ≠ none := by
  by_contra hnone
  push Not at hnone
  have hseek : basketGlobalOft < seekEnd := by decide
  have hret : (dm.resetBasket p bfi chn overwrite).1 = 0 := by
    simp only [DiskMng.resetBasket, strgBasketReset, strgBasketWriteGlobal, strgWrite, writeStops,
      if_pos hseek, hnone, if_true]
  rw [hret] at h
  cases h

/-- A basket that has just been reset fits the channel it was reset for. -/
theorem allocFits_reset (bgi : BasketGlobalInfo) (chn : Chn) (useCnt : UInt32) :
    allocFits chn (bgi.reset (chnWord chn) useCnt) = true := by
  have hread : useStatusIdle &&& useStatusReading = 0 := by decide
  have hfull : useStatusIdle &&& useStatusFull = 0 := by decide
  unfold allocFits BasketGlobalInfo.reset
  rw [if_pos ⟨rfl, hread⟩]
  simp only [hfull]
  decide

/-- The channel takes a basket that was reset for it. -/
theorem Scanned.takeOld {d : DiskMng} {p : Nat} {bgi : BasketGlobalInfo}
    (h : Scanned chn overwrite dm d) (hp : p ∈ dm.bgiOld)
    (hover : Storage.overwritable overwrite (dm.bgi p) = true)
    (hopened : ∃ n, dm.dev.env.openOk n = true)
    (hbgi : d.bgi p = bgi.reset (chnWord chn) dm.dg.useCnt) :
    Took chn dm p (d.takeOld chn (.fresh p)) ∧
      FromOld overwrite dm p (d.takeOld chn (.fresh p)) := by
  refine ⟨⟨h.env, h.tick, h.diskIdx, h.dg, ?_, hopened, h.short⟩, ⟨hp, hover, ?_⟩⟩
  · show allocFits chn (d.bgi p) = true
    rw [hbgi]
    exact allocFits_reset _ _ _
  · show (d.bgi p).bg.useCnt = _
    rw [hbgi]
    rfl

theorem allocOld_cases (chn : Chn) (overwrite : UInt32) (l : List Nat) (dm : DiskMng) (hl : ∀ p ∈ l, p ∈ dm.bgiOld) :
    (∃ d, Scanned chn overwrite dm d ∧
        ((∃ p ∈ l, overwritable overwrite (dm.bgi p) = true) → dm.dev.env.Fails) ∧
        allocOld chn overwrite l dm = (none, d)) ∨
      ∃ p t, Took chn dm p t ∧ FromOld overwrite dm p t ∧
        allocOld chn overwrite l dm = (some (.fresh p), t) := by
  induction l generalizing dm with
  | nil => exact .inl ⟨dm, .refl dm, by simp, rfl⟩
  | cons p rest ih =>
    have hp : p ∈ dm.bgiOld := hl p List.mem_cons_self
    have hrest : ∀ q ∈ rest, q ∈ dm.bgiOld := fun q hq => hl q (List.mem_cons_of_mem _ hq)
    -- a basket that is passed by for a call that fails
    have hpass : ∀ d, Scanned chn overwrite dm d → dm.dev.env.Fails →
        (∃ e, Scanned chn overwrite dm e ∧
          ((∃ p' ∈ p :: rest, overwritable overwrite (dm.bgi p') = true) → dm.dev.env.Fails) ∧
          allocOld chn overwrite rest d = (none, e)) ∨
        ∃ q t, Took chn dm q t ∧ FromOld overwrite dm q t ∧
          allocOld chn overwrite rest d = (some (.fresh q), t) := by
      intro d hscan hfails
      obtain ⟨e, hscan', -, heq⟩ | ⟨q, t, htook, hfrom, heq⟩ :=
        ih d fun q hq => hscan.bgiOld ▸ hrest q hq
      · exact .inl ⟨e, hscan.trans hscan', fun _ => hfails, heq⟩
      · exact .inr ⟨q, t, htook.after hscan, hfrom.after hscan, heq⟩
    rw [allocOld]
    split
    · next hover =>
        simp only
        split
        · next hclosed => exact hpass _ (.wait dm) (strgBasketOpen_fails hclosed)
        · next bfi hbfi =>
            have hopened := strgBasketOpen_opened hbfi
            obtain rfl := strgBasketOpen_some hbfi
            have hreset : Scanned chn overwrite dm
                ((dm.setDev dm.dev.wait).resetBasket p (.fresh p) chn overwrite).2 :=
              (Scanned.wait dm).trans (.reset hover)
            split
            · next hret =>
                have hcut := reset_fails hret
                exact hpass _ hreset (.inr hcut)
            · obtain ⟨htook, hfrom⟩ := hreset.takeOld hp hover hopened (resetBasket_bgi _ _ _)
              exact .inr ⟨p, _, htook, hfrom, rfl⟩
    · next hover =>
        obtain ⟨e, hscan, hfails, heq⟩ | htook := ih dm hrest
        · refine .inl ⟨e, hscan, ?_, heq⟩
          rintro ⟨q, hq, hover'⟩
          obtain rfl | hq := List.mem_cons.1 hq
          · exact absurd hover' hover
          · exact hfails ⟨q, hq, hover'⟩
        · exact .inr htook

theorem strgDiskAllocBasket_cases (dm : DiskMng) (chn : Chn) (overwrite : UInt32) :
    (∃ d, Scanned chn overwrite dm d ∧
        ((∃ p ∈ dm.bgiNew, allocFits chn (dm.bgi p) = true) ∨
          (∃ p ∈ dm.bgiOld, overwritable overwrite (dm.bgi p) = true) → dm.dev.env.Fails) ∧
        strgDiskAllocBasket dm chn overwrite = (none, d)) ∨
      ∃ p t, Took chn dm p t ∧ (FromNew dm p t ∨ FromOld overwrite dm p t) ∧
        strgDiskAllocBasket dm chn overwrite = (some (.fresh p), t) := by
  unfold strgDiskAllocBasket
  obtain ⟨dev, hscan, hfails, heq⟩ | ⟨p, t, htook, hfrom, heq⟩ :=
    allocNew_cases chn overwrite dm.bgiNew.reverse dm
      fun p hp => List.mem_reverse.1 hp
  · obtain ⟨d, hscan', hfails', heq'⟩ | ⟨p, t, htook, hfrom, heq'⟩ :=
      allocOld_cases chn overwrite dm.bgiOld (dm.setDev dev)
        fun _ hp => hp
    · refine .inl ⟨d, hscan.trans hscan', ?_, ?_⟩
      · rintro (⟨p, hp, hfits⟩ | hold)
        · exact hfails ⟨p, List.mem_reverse.2 hp, hfits⟩
        · have henv : (dm.setDev dev).dev.env = dm.dev.env := hscan.env
          exact henv ▸ hfails' hold
      · simp only [heq]
        exact heq'
    · refine .inr ⟨p, t, htook.after hscan, .inr (hfrom.after hscan), ?_⟩
      simp only [heq]
      exact heq'
  · refine .inr ⟨p, t, htook, .inl hfrom, ?_⟩
    simp only [heq]

/-! ## What an attempt does -/

theorem strgBasketCreateFragment_of_fits {bgi : BasketGlobalInfo} (h : allocFits chn bgi = true)
    (recordType : RecordType) (now : Int32) :
    ∃ bf, strgBasketCreateFragment bgi recordType now = some bf := by
  unfold allocFits at h
  split at h
  · have hroom := of_decide_eq_true h
    have hspace : ¬bgi.freeSpace < basketSpaceMin := UInt32.not_lt.2 hroom.1
    have hfew : bgi.bg.fragmentNum ≠ UInt32.ofNat basketFragmentNum :=
      UInt32.ne_of_lt hroom.2.2.1
    have hiframe : ¬bgi.freeIframe < basketIframeMin := UInt32.not_lt.2 hroom.2.2.2
    unfold strgBasketCreateFragment
    rw [if_neg (by simp [hspace, hfew, hiframe]), if_neg hfew]
    split
    · exact ⟨_, rfl⟩
    · exact ⟨_, rfl⟩
  · cases h

/-- Whether a write is refused, or its place is out of reach. -/
def Dev.Refuses (dev : Dev) (n : Nat) (idx off : Nat) : Prop :=
  seekEnd ≤ off ∨ ∃ data, dev.env.writeCut n (.basket idx) off data ≠ none

theorem strgWrite_refused {dev : Dev} {idx off : Nat} {data : List UInt8}
    (h : (strgWrite dev (.basket idx) data off).1 ≠ true) : dev.Refuses dev.tick idx off := by
  by_cases hseek : off < seekEnd
  · refine .inr ⟨data, fun hcut => h ?_⟩
    simp [strgWrite, writeStops, hseek, hcut]
  · exact .inl (Nat.not_lt.1 hseek)

theorem strgWrite_accepted {dev : Dev} {p : FilePath} {off : Nat} {data : List UInt8}
    (h : (strgWrite dev p data off).1 = true) : dev.env.writeCut dev.tick p off data = none := by
  by_contra hcut
  have hseek := strgWrite_seek h
  obtain ⟨k, hk⟩ := Option.ne_none_iff_exists'.1 hcut
  simp [strgWrite, writeStops, hseek, hk] at h

@[simp] theorem strgWrite_tick (dev : Dev) (p : FilePath) (data : List UInt8) (off : Nat) :
    (strgWrite dev p data off).2.tick = dev.tick + 1 := by
  obtain ⟨n, hcommit⟩ := strgWrite_commit dev p data off
  rw [hcommit]
  rfl

/-- A basket that fits starts, unless one of the two headers is refused. -/
theorem strgBasketWriteStart_fits {b : Basket} (h : allocFits chn b.bgi = true)
    (recordType : RecordType) :
    ((strgBasketWriteStart b (chnWord chn) recordType).1 = 0 ∧
      ∃ n data, b.dev.env.writeCut n (.basket b.bgi.basketIdx)
        (fragmentOft b.bgi.bfList.length) data = none) ∨
    ((strgBasketWriteStart b (chnWord chn) recordType).1 = -1 ∧
      (strgBasketWriteStart b (chnWord chn) recordType).2.dev.env = b.dev.env ∧
      b.dev.tick < (strgBasketWriteStart b (chnWord chn) recordType).2.dev.tick ∧
      ∃ n ≥ b.dev.tick, b.dev.Refuses n b.bgi.basketIdx (fragmentOft b.bgi.bfList.length) ∨
        b.dev.Refuses n b.bgi.basketIdx basketGlobalOft) := by
  have hchn : b.bgi.bg.chn = chnWord chn := by
    unfold allocFits at h
    split at h
    · next hcond => exact hcond.1
    · cases h
  obtain ⟨bf, hbf⟩ := strgBasketCreateFragment_of_fits h recordType b.dev.now
  unfold strgBasketWriteStart
  rw [if_neg (not_not.2 hchn), hbf]
  set frag := strgBasketWriteFragment b.dev b.bgi.basketIdx bf.setWriting b.bgi.bfList.length
    with hwrite
  have henv : frag.2.env = b.dev.env := strgWrite_env _ _ _ _
  have htick : frag.2.tick = b.dev.tick + 1 := strgWrite_tick _ _ _ _
  simp only
  by_cases hfrag : frag.1 = true
  · rw [if_pos hfrag]
    set glob := strgBasketWriteGlobal frag.2 b.bgi.basketIdx b.bgi.bg.addFragment with hglobal
    have henv' : glob.2.env = frag.2.env := strgWrite_env _ _ _ _
    have htick' : glob.2.tick = frag.2.tick + 1 := strgWrite_tick _ _ _ _
    by_cases hglob : glob.1 = true
    · rw [if_pos hglob]
      refine .inl ⟨rfl, b.dev.tick, BasketFragment.format.encode bf.setWriting, ?_⟩
      exact strgWrite_accepted hfrag
    · rw [if_neg hglob]
      have hrefused : frag.2.Refuses frag.2.tick b.bgi.basketIdx basketGlobalOft :=
        strgWrite_refused hglob
      refine .inr ⟨rfl, henv'.trans henv, by show _ < glob.2.tick; omega, frag.2.tick, by omega,
        .inr ?_⟩
      exact hrefused.imp_right fun ⟨data, hcut⟩ => ⟨data, henv ▸ hcut⟩
  · rw [if_neg hfrag]
    exact .inr ⟨rfl, henv, by show _ < frag.2.tick; omega, b.dev.tick, Nat.le_refl _,
      .inl (strgWrite_refused hfrag)⟩

/-- The disk after the channel has put the basket `p` back. -/
structure Returned (chn : Chn) (t : DiskMng) (p : Nat) (d : DiskMng) : Prop where
  env : d.dev.env = t.dev.env
  tick : t.dev.tick < d.dev.tick
  diskIdx : d.diskIdx = t.diskIdx
  dg : d.dg = t.dg
  bfiCur : d.bfiCur chn = none
  bgi : ∀ q, d.bgi q = t.bgi q ∨
    d.bgi q = { t.bgi q with bg := (t.bgi q).bg.addFragment.dropFragment }
  lists : (t.bgi p).bg.useCnt = t.dg.useCnt ∧
      d.bgiNew = t.bgiNew.orderedInsert (· ≤ ·) p ∧ d.bgiOld = t.bgiOld ∨
    (t.bgi p).bg.useCnt ≠ t.dg.useCnt ∧
      d.bgiNew = t.bgiNew ∧ d.bgiOld = t.bgiOld.orderedInsert (· ≤ ·) p

theorem returned {t : DiskMng} {p : Nat} {b : Basket} (hbfi : b.bfi = .fresh p)
    (henv : b.dev.env = t.dev.env) (htick : t.dev.tick < b.dev.tick)
    (hbgi : b.bgi = t.bgi p ∨
      b.bgi = { t.bgi p with bg := (t.bgi p).bg.addFragment.dropFragment }) :
    Returned chn t p (strgDiskFreeBasket (t.putBasket chn b) chn) := by
  have hcur : (t.putBasket chn b).bfiCur chn = some b.bfi := Function.update_self _ _ _
  have hp : b.bfi.bgi = p := by
    rw [hbfi]
    rfl
  have hput : (t.putBasket chn b).bgi p = b.bgi := by
    rw [← hp]
    exact Function.update_self _ _ _
  have hput' : ∀ q, q ≠ p → (t.putBasket chn b).bgi q = t.bgi q := by
    intro q hq
    rw [← hp] at hq
    exact Function.update_of_ne hq _ _
  have hall : ∀ q, (t.putBasket chn b).bgi q = t.bgi q ∨
      (t.putBasket chn b).bgi q =
        { t.bgi q with bg := (t.bgi q).bg.addFragment.dropFragment } := by
    intro q
    by_cases hq : q = p
    · rw [hq, hput]
      exact hbgi
    · exact .inl (hput' q hq)
  have huse : b.bgi.bg.useCnt = (t.bgi p).bg.useCnt := by
    obtain heq | heq := hbgi <;> rw [heq]
    rfl
  unfold strgDiskFreeBasket
  rw [hcur]
  simp only
  rw [hp, hput, huse]
  split
  · next hgen =>
      exact ⟨henv, htick, rfl, rfl, Function.update_self _ _ _, hall, .inl ⟨hgen, rfl, rfl⟩⟩
  · next hgen =>
      exact ⟨henv, htick, rfl, rfl, Function.update_self _ _ _, hall, .inr ⟨hgen, rfl, rfl⟩⟩

/-- What one attempt of a start comes to. -/
inductive Attempt (chn : Chn) (recordType : RecordType) (overwrite : UInt32) (dm : DiskMng) :
    Prop
  | nothing {d : DiskMng} (hscan : Scanned chn overwrite dm d)
      (hfails : (∃ p ∈ dm.bgiNew, allocFits chn (dm.bgi p) = true) ∨
        (∃ p ∈ dm.bgiOld, overwritable overwrite (dm.bgi p) = true) → dm.dev.env.Fails)
      (heq : ∀ fuel, strgDiskWriteStart chn recordType overwrite (fuel + 1) dm = some (-1, d))
  | started (hopened : ∃ n, dm.dev.env.openOk n = true) (hcut : ∃ n idx k data,
        dm.dev.env.writeCut n (.basket idx) (fragmentOft k) data = none)
      (heq : ∀ fuel, ∃ d, strgDiskWriteStart chn recordType overwrite (fuel + 1) dm =
        some (dm.diskIdx.toInt, d))
  | again {p : Nat} {t d : DiskMng} (htook : Took chn dm p t)
      (hfrom : FromNew dm p t ∨ FromOld overwrite dm p t) (hret : Returned chn t p d)
      (hrefused : ∃ n ≥ dm.dev.tick, ∃ idx,
        t.dev.Refuses n idx (fragmentOft (t.bgi p).bfList.length) ∨
        t.dev.Refuses n idx basketGlobalOft)
      (heq : ∀ fuel, strgDiskWriteStart chn recordType overwrite (fuel + 1) dm =
        strgDiskWriteStart chn recordType overwrite fuel d)

theorem diskIdx_start (t : DiskMng) (b : Basket) :
    ((t.putBasket chn b).flagOnce.writeEntry b.bfi.bgi b.bfi.curBfIdx
      ((t.putBasket chn b).flagOnce.curFragment b.bfi)).diskIdx = t.diskIdx := by
  show (t.putBasket chn b).flagOnce.diskIdx = _
  unfold DiskMng.flagOnce
  split <;> rfl

theorem attempt (chn : Chn) (recordType : RecordType) (overwrite : UInt32) (dm : DiskMng) :
    Attempt chn recordType overwrite dm := by
  obtain ⟨d, hscan, hfails, halloc⟩ | ⟨p, t, htook, hfrom, halloc⟩ :=
    strgDiskAllocBasket_cases dm chn overwrite
  · refine .nothing hscan hfails fun fuel => ?_
    rw [strgDiskWriteStart]
    simp only [halloc]
  · set b := t.basket (.fresh p) with hb
    have hstart := strgBasketWriteStart_fits (b := b) htook.fits recordType
    obtain ⟨hok, n, data, hcut⟩ | ⟨hbad, henv, htick, n, hn, hrefused⟩ := hstart
    · refine .started htook.opened ⟨n, _, _, data, htook.env ▸ hcut⟩ fun fuel => ?_
      rw [strgDiskWriteStart]
      simp only [halloc]
      rw [if_neg (by rw [hok]; decide), diskIdx_start, htook.diskIdx]
      exact ⟨_, rfl⟩
    · have hcases := strgBasketWriteStart_cases b (chnWord chn) recordType
      obtain ⟨-, hbfi, hbgi⟩ | ⟨bf, -, -, heq⟩ := hcases
      · refine .again htook hfrom (returned hbfi henv htick hbgi)
          ⟨n, htook.tick.trans hn, _, hrefused⟩ fun fuel => ?_
        rw [strgDiskWriteStart]
        simp only [halloc]
        rw [if_pos (by rw [hbad]; decide)]
      · rw [heq] at hbad
        cases hbad

/-! ## Endless attempts -/

/-- Opens and basket headers succeed, fragment headers do not. -/
def fragmentsRefused : Calls where
  openOk _ := true
  writeCut _ _ off _ := if off = basketGlobalOft then none else some 0

theorem fragmentsRefused_fails (dm : DiskMng) : ¬(dm.under fragmentsRefused).dev.env.Fails := by
  rintro (⟨n, hopen⟩ | ⟨n, idx, data, hcut⟩)
  · cases hopen
  · exact hcut rfl

theorem fragmentsRefused_cut (n idx k : Nat) (data : List UInt8) :
    fragmentsRefused.writeCut n (.basket idx) (fragmentOft k) data ≠ none := by
  have hoft : fragmentOft k ≠ basketGlobalOft := by
    have hlen : basketFragmentOft ≠ 0 := by decide
    have hglob : basketGlobalOft = 0 := rfl
    unfold fragmentOft
    omega
  simp [fragmentsRefused, hoft]

/-- The header that a failed start leaves is the one it found, as far as
allocations look at it. -/
structure Alike (bgi bgi' : BasketGlobalInfo) : Prop where
  fits : ∀ chn, allocFits chn bgi' = allocFits chn bgi
  overwrites : ∀ overwrite, overwritable overwrite bgi' = overwritable overwrite bgi
  useCnt : bgi'.bg.useCnt = bgi.bg.useCnt
  short : bgi'.bfList = bgi.bfList

theorem Alike.refl (bgi : BasketGlobalInfo) : Alike bgi bgi :=
  ⟨fun _ => rfl, fun _ => rfl, rfl, rfl⟩

/-- Marking a basket as written to and back touches no other flag. -/
theorem addFragment_dropFragment_and (s : UInt32) {flag : UInt32}
    (hflag : useStatusWriting &&& flag = 0) :
    ((s ||| useStatusWriting) &&& ~~~useStatusWriting) &&& flag = s &&& flag := by
  rw [Flag.and_not_and_of_disjoint hflag, Flag.or_and_of_disjoint hflag]

theorem alike_dropFragment (bgi : BasketGlobalInfo) :
    Alike bgi { bgi with bg := bgi.bg.addFragment.dropFragment } := by
  have hread := addFragment_dropFragment_and bgi.bg.status
    (by decide : useStatusWriting &&& useStatusReading = 0)
  have hfull := addFragment_dropFragment_and bgi.bg.status
    (by decide : useStatusWriting &&& useStatusFull = 0)
  refine ⟨fun chn => ?_, fun overwrite => ?_, rfl, rfl⟩
  · simp only [allocFits, BasketGlobal.addFragment, BasketGlobal.dropFragment, hread, hfull]
    simp
  · simp only [overwritable, BasketGlobal.addFragment, BasketGlobal.dropFragment, hread]

theorem Returned.alike {t d : DiskMng} {p : Nat} (h : Returned chn t p d) (q : Nat) :
    Alike (t.bgi q) (d.bgi q) := by
  obtain heq | heq := h.bgi q
  · rw [heq]
    exact .refl _
  · rw [heq]
    exact alike_dropFragment _

/-- After a failed attempt there is again a basket that makes for another one. -/
theorem Retried.again {t d : DiskMng} {p q : Nat} (h : Retried chn overwrite dm q)
    (htook : Took chn dm p t) (hfrom : FromNew dm p t ∨ FromOld overwrite dm p t)
    (hret : Returned chn t p d) : ∃ q', Retried chn overwrite d q' := by
  have hdg : d.dg.useCnt = t.dg.useCnt := by rw [hret.dg]
  have hp := hret.alike p
  obtain ⟨hgen, hnew, -⟩ | ⟨hgen, hnew, hold⟩ := hret.lists
  · -- it is in the list of the current generation
    refine ⟨p, .inl ⟨?_, ?_, ?_⟩⟩
    · rw [hnew]
      exact (List.mem_orderedInsert _).2 (.inl rfl)
    · rw [hp.fits]
      exact htook.fits
    · rw [hp.useCnt, hgen, hdg]
  · obtain hfrom | hfrom := hfrom
    · have hq := hret.alike q
      rw [hfrom.bgi] at hq
      by_cases hqp : q = p
      · -- it went to the older ones, from where it may be reset
        subst hqp
        obtain ⟨-, -, huse⟩ | ⟨hover, -⟩ := h
        · rw [hfrom.bgi, htook.dg] at hgen
          exact absurd huse hgen
        · refine ⟨q, .inr ⟨?_, .inl ?_⟩⟩
          · rw [hq.overwrites]
            exact hover
          · rw [hold]
            exact (List.mem_orderedInsert _).2 (.inl rfl)
      · -- another one is where it was
        have hnew' : q ∈ dm.bgiNew → q ∈ d.bgiNew := by
          intro hmem
          rw [hnew, hfrom.bgiNew]
          exact (List.mem_erase_of_ne hqp).2 hmem
        have hold' : q ∈ dm.bgiOld → q ∈ d.bgiOld := by
          intro hmem
          rw [hold, hfrom.bgiOld]
          exact (List.mem_orderedInsert _).2 (.inr hmem)
        refine ⟨q, ?_⟩
        unfold Retried
        rw [hq.fits, hq.overwrites, hq.useCnt, hdg, htook.dg]
        exact h.imp (And.imp_left hnew')
          (And.imp_right (Or.imp hold' (And.imp_left hnew')))
    · rw [hfrom.useCnt, htook.dg] at hgen
      exact absurd rfl hgen

/-- With fragment headers refused, a disk that has something to take keeps the
loop going. -/
theorem never_ends (fuel : Nat) {dm : DiskMng} {q : Nat} (h : Retried chn overwrite dm q)
    (hcalls : ¬dm.dev.env.Fails)
    (hcut : ∀ n idx k data, dm.dev.env.writeCut n (.basket idx) (fragmentOft k) data ≠ none) :
    strgDiskWriteStart chn recordType overwrite fuel dm = none := by
  induction fuel generalizing dm q with
  | zero => rfl
  | succ fuel ih =>
    cases attempt chn recordType overwrite dm with
    | nothing hscan hfails heq =>
        refine absurd (hfails ?_) hcalls
        obtain ⟨hmem, hfits, -⟩ | ⟨hover, hmem | ⟨hmem, hfits⟩⟩ := h
        · exact .inl ⟨q, hmem, hfits⟩
        · exact .inr ⟨q, hmem, hover⟩
        · exact .inl ⟨q, hmem, hfits⟩
    | started hopened hok heq =>
        obtain ⟨n, idx, k, data, hok⟩ := hok
        exact absurd hok (hcut n idx k data)
    | again htook hfrom hret hrefused heq =>
        obtain ⟨q', hq'⟩ := h.again htook hfrom hret
        have henv := hret.env.trans htook.env
        rw [heq]
        exact ih hq' (henv ▸ hcalls) (henv ▸ hcut)

/-! ## Attempts that come to an end -/

/-- A failed attempt that leaves nothing to take again uses up a basket of the
current generation. -/
theorem not_retried_again {t d : DiskMng} {p : Nat} (h : ∀ q, ¬Retried chn overwrite dm q)
    (htook : Took chn dm p t) (hfrom : FromNew dm p t ∨ FromOld overwrite dm p t)
    (hret : Returned chn t p d) :
    (∀ q, ¬Retried chn overwrite d q) ∧ d.bgiNew.length < dm.bgiNew.length := by
  obtain hfrom | hfrom := hfrom
  · have hfits := htook.fits
    rw [hfrom.bgi] at hfits
    have huse : (dm.bgi p).bg.useCnt ≠ dm.dg.useCnt :=
      fun huse => h p (.inl ⟨hfrom.mem, hfits, huse⟩)
    obtain ⟨hgen, -, -⟩ | ⟨-, hnew, hold⟩ := hret.lists
    · rw [hfrom.bgi, htook.dg] at hgen
      exact absurd hgen huse
    · have hnew' : ∀ q, q ∈ d.bgiNew → q ∈ dm.bgiNew := by
        intro q hmem
        rw [hnew, hfrom.bgiNew] at hmem
        exact List.mem_of_mem_erase hmem
      constructor
      · intro q hq
        have halike := hret.alike q
        rw [hfrom.bgi] at halike
        unfold Retried at hq
        rw [halike.fits, halike.overwrites, halike.useCnt, hret.dg, htook.dg] at hq
        obtain ⟨hmem, hfits', huse'⟩ | ⟨hover, hmem | ⟨hmem, hfits'⟩⟩ := hq
        · exact h q (.inl ⟨hnew' q hmem, hfits', huse'⟩)
        · rw [hold, List.mem_orderedInsert] at hmem
          obtain rfl | hmem := hmem
          · exact h q (.inr ⟨hover, .inr ⟨hfrom.mem, hfits⟩⟩)
          · rw [hfrom.bgiOld] at hmem
            exact h q (.inr ⟨hover, .inl hmem⟩)
        · exact h q (.inr ⟨hover, .inr ⟨hnew' q hmem, hfits'⟩⟩)
      · rw [hnew, hfrom.bgiNew, List.length_erase_of_mem hfrom.mem]
        have hpos := List.length_pos_of_mem hfrom.mem
        omega
  · exact absurd (.inr ⟨hfrom.overwrites, .inl hfrom.mem⟩) (h p)

theorem StartEnds.of_again {d : DiskMng} (h : StartEnds chn recordType overwrite d)
    (heq : ∀ fuel, strgDiskWriteStart chn recordType overwrite (fuel + 1) dm =
      strgDiskWriteStart chn recordType overwrite fuel d) :
    StartEnds chn recordType overwrite dm := by
  obtain ⟨fuel, r, dm', hrun, hcur⟩ := h
  exact ⟨fuel + 1, r, dm', (heq fuel).trans hrun, hcur⟩

theorem startEnds_nothing {d : DiskMng} (hcur : dm.bfiCur chn = none)
    (hscan : Scanned chn overwrite dm d)
    (heq : ∀ fuel, strgDiskWriteStart chn recordType overwrite (fuel + 1) dm = some (-1, d)) :
    StartEnds chn recordType overwrite dm :=
  ⟨1, -1, d, heq 0, fun _ => hscan.bfiCur ▸ hcur⟩

theorem startEnds_started (hidx : 0 ≤ dm.diskIdx.toInt)
    (heq : ∀ fuel, ∃ d, strgDiskWriteStart chn recordType overwrite (fuel + 1) dm =
      some (dm.diskIdx.toInt, d)) :
    StartEnds chn recordType overwrite dm := by
  obtain ⟨d, heq⟩ := heq 0
  exact ⟨1, _, d, heq, fun hret => by omega⟩

theorem ends_of_not_retried {dm : DiskMng} (hidx : 0 ≤ dm.diskIdx.toInt)
    (hcur : dm.bfiCur chn = none) (h : ∀ q, ¬Retried chn overwrite dm q) :
    StartEnds chn recordType overwrite dm := by
  induction hn : dm.bgiNew.length using Nat.strong_induction_on generalizing dm with
  | _ n ih =>
    cases attempt chn recordType overwrite dm with
    | nothing hscan hfails heq => exact startEnds_nothing hcur hscan heq
    | started hopened hok heq => exact startEnds_started hidx heq
    | again htook hfrom hret hrefused heq =>
        obtain ⟨h', hlt⟩ := not_retried_again h htook hfrom hret
        refine .of_again (ih _ (hn ▸ hlt) ?_ hret.bfiCur h' rfl) heq
        rw [hret.diskIdx, htook.diskIdx]
        exact hidx

/-- No table of fragments is longer than the file has room for. -/
def DiskMng.Short (dm : DiskMng) : Prop :=
  ∀ p, (dm.bgi p).bfList.length ≤ basketFragmentNum

theorem ends_of_recovers {dm : DiskMng} (hidx : 0 ≤ dm.diskIdx.toInt)
    (hcur : dm.bfiCur chn = none) (hshort : dm.Short) {last : Nat}
    (h : ∀ n ≥ last, ∀ p off data, dm.dev.env.writeCut n p off data = none) :
    StartEnds chn recordType overwrite dm := by
  induction hn : last - dm.dev.tick using Nat.strong_induction_on generalizing dm with
  | _ m ih =>
    cases attempt chn recordType overwrite dm with
    | nothing hscan hfails heq => exact startEnds_nothing hcur hscan heq
    | started hopened hok heq => exact startEnds_started hidx heq
    | @again p t d htook hfrom hret hrefused heq =>
        have henv := hret.env.trans htook.env
        have htick := htook.tick.trans_lt hret.tick
        have hshort' : d.Short := fun q => by
          rw [(hret.alike q).short]
          exact (htook.short q).trans (hshort q)
        by_cases hlast : last ≤ dm.dev.tick
        · -- the headers of this attempt were not refused
          obtain ⟨k, hk, idx, hrefused⟩ := hrefused
          have hseek : fragmentOft (t.bgi p).bfList.length < seekEnd := by
            have hle := (htook.short p).trans (hshort p)
            have hlen : basketFragmentLen * (t.bgi p).bfList.length ≤
                basketFragmentLen * basketFragmentNum := Nat.mul_le_mul_left _ hle
            have hend : fragmentOft basketFragmentNum < seekEnd := by decide
            unfold fragmentOft at hend ⊢
            omega
          have hglob : basketGlobalOft < seekEnd := by decide
          have hnone := h k (hlast.trans hk)
          rw [← htook.env] at hnone
          obtain (hoff | ⟨data, hcut⟩) | (hoff | ⟨data, hcut⟩) := hrefused
          · omega
          · exact absurd (hnone _ _ _) hcut
          · omega
          · exact absurd (hnone _ _ _) hcut
        · refine .of_again (ih _ (by omega) ?_ hret.bfiCur hshort' (henv ▸ h) rfl) heq
          rw [hret.diskIdx, htook.diskIdx]
          exact hidx

/-! ## Every pattern -/

/-- No open succeeds. -/
def opensRefused : Calls where
  openOk _ := false
  writeCut _ _ _ _ := none

/-- A channel that is not served keeps the basket it has. -/
theorem cur_of_opensRefused
    (h : StartEnds chn recordType overwrite (dm.under opensRefused)) :
    dm.bfiCur chn = none := by
  obtain ⟨fuel, r, d, hrun, hcur⟩ := h
  cases fuel with
  | zero => cases hrun
  | succ fuel =>
    cases attempt chn recordType overwrite (dm.under opensRefused) with
    | nothing hscan hfails heq =>
        rw [heq] at hrun
        obtain ⟨rfl, rfl⟩ := Prod.mk.inj (Option.some.inj hrun)
        have hnone := hcur rfl
        rwa [hscan.bfiCur] at hnone
    | started hopened hok heq =>
        obtain ⟨n, hopen⟩ := hopened
        cases hopen
    | again htook hfrom hret hrefused heq =>
        obtain ⟨n, hopen⟩ := htook.opened
        cases hopen

/-- A start ends whatever opens and writes do exactly when the channel has no
basket and there is none that a failed attempt would leave to be taken again.
Otherwise it still ends once writes succeed. -/
theorem strgDiskWriteStart_ends_iff (hidx : 0 ≤ dm.diskIdx.toInt) :
    ((∀ calls, StartEnds chn recordType overwrite (dm.under calls)) ↔
      dm.bfiCur chn = none ∧ ∀ p, ¬Retried chn overwrite dm p) ∧
    (dm.bfiCur chn = none → dm.Short → ∀ calls : Calls, calls.Recovers →
      StartEnds chn recordType overwrite (dm.under calls)) := by
  refine ⟨⟨fun h => ⟨cur_of_opensRefused (h opensRefused), fun p hp => ?_⟩, fun h calls => ?_⟩,
    fun hcur hshort calls ⟨last, hlast⟩ => ?_⟩
  · obtain ⟨fuel, r, d, hrun, -⟩ := h fragmentsRefused
    have hp' : Retried chn overwrite (dm.under fragmentsRefused) p := hp
    rw [never_ends fuel hp' (fragmentsRefused_fails dm) fragmentsRefused_cut] at hrun
    cases hrun
  · have h' : ∀ p, ¬Retried chn overwrite (dm.under calls) p := h.2
    exact ends_of_not_retried hidx h.1 h'
  · exact ends_of_recovers hidx hcur hshort hlast

end Attempts

/-- A disk with one basket, as a format leaves it. -/
def oneBasket : DiskMng :=
  (DiskMng.empty 0 .blank ⟨diskGlobalMagic, 1, 1⟩).addBasket
    ((BasketGlobalInfo.alloc 0).vacant .unused)

/-- The basket is reset, its fragment header refused, and it is taken again. -/
theorem oneBasket_never_starts :
    ¬StartEnds 0 recordTimeType 0xf (oneBasket.under fragmentsRefused) := by
  rintro ⟨fuel, r, d, hrun, -⟩
  have hp : Retried 0 0xf (oneBasket.under fragmentsRefused) 0 :=
    .inr ⟨by decide +kernel, .inl (by decide +kernel)⟩
  rw [never_ends fuel hp (fragmentsRefused_fails oneBasket) fragmentsRefused_cut] at hrun
  cases hrun

theorem strgDiskWriteStart_ends_iff_oneBasket :
    ((∀ calls, StartEnds 0 recordTimeType 0xf (oneBasket.under calls)) ↔
      oneBasket.bfiCur 0 = none ∧ ∀ p, ¬Retried 0 0xf oneBasket p) ∧
    (oneBasket.bfiCur 0 = none → oneBasket.Short → ∀ calls : Calls, calls.Recovers →
      StartEnds 0 recordTimeType 0xf (oneBasket.under calls)) :=
  strgDiskWriteStart_ends_iff (by decide)

end Nvr.Storage
