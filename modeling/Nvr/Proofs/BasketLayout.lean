import Mathlib.Algebra.Order.Group.Int
import Nvr.Lib.Tiling
import Nvr.Proofs.BasketStep

/-!
# The layout of a basket

The fragments of a basket tile its frame area and its index table, in the
order of the list, and the two free counters are what is left. `Layout` is
that statement about a basket in memory; it mentions no file, so an operation
whose writes fail has nothing to prove beyond leaving the counters alone.

Only the last fragment grows, and only while it is the current one. What it
grows by is what the frame and its header take, checked against the free space
beforehand, so nothing wraps. The extents of everything ever stored then lie
below the end of the tiling, where the next record goes.
-/

namespace Nvr.Storage

open Tiling

abbrev BasketFragment.pos (bf : BasketFragment) : Nat := bf.beginFramePos.toNat
abbrev BasketFragment.bytes (bf : BasketFragment) : Nat := bf.fragmentSize.toNat
abbrev BasketFragment.slot (bf : BasketFragment) : Int := bf.firstIframeIdx.toInt
abbrev BasketFragment.slots (bf : BasketFragment) : Int := bf.iframeNum.toInt

/-- The frame area used by the fragments, in bytes. -/
def usedSpace (bfList : List BasketFragment) : Nat := total BasketFragment.bytes bfList

/-- The index slots used by the fragments. -/
def usedIframes (bfList : List BasketFragment) : Int := total BasketFragment.slots bfList

@[simp] theorem usedSpace_nil : usedSpace [] = 0 := rfl
@[simp] theorem usedIframes_nil : usedIframes [] = 0 := rfl

@[simp] theorem usedSpace_concat (bfs : List BasketFragment) (bf : BasketFragment) :
    usedSpace (bfs ++ [bf]) = usedSpace bfs + bf.bytes := by simp [usedSpace]

@[simp] theorem usedIframes_concat (bfs : List BasketFragment) (bf : BasketFragment) :
    usedIframes (bfs ++ [bf]) = usedIframes bfs + bf.slots := by simp [usedIframes]

/-- The counters of a basket agree with its fragments, and the fragments tile
both areas. -/
structure Layout (bgi : BasketGlobalInfo) : Prop where
  fragmentNum : bgi.bg.fragmentNum.toNat = bgi.bfList.length
  fragmentNum_le : bgi.bfList.length ≤ basketFragmentNum
  frames : Tiles BasketFragment.pos BasketFragment.bytes basketFrameOft bgi.bfList
  iframes : Tiles BasketFragment.slot BasketFragment.slots 0 bgi.bfList
  slots_nonneg : ∀ bf ∈ bgi.bfList, 0 ≤ bf.slots
  freeSpace : bgi.freeSpace.toNat + usedSpace bgi.bfList = basketFrameSize
  freeIframe : bgi.freeIframe.toNat + usedIframes bgi.bfList = basketIframeNum

/-- Only the last fragment is ever being written. -/
def CurLast (b : Basket) : Prop := ∀ i, b.bfi.curBf = some i → i + 1 = b.bgi.bfList.length

theorem Layout.usedIframes_nonneg {bgi : BasketGlobalInfo} (h : Layout bgi) :
    0 ≤ usedIframes bgi.bfList := total_nonneg h.slots_nonneg

/-! ## Reset -/

theorem layout_reset (bgi : BasketGlobalInfo) (chn : Int32) (useCnt : UInt32) :
    Layout (bgi.reset chn useCnt) where
  fragmentNum := rfl
  fragmentNum_le := Nat.zero_le _
  frames := trivial
  iframes := trivial
  slots_nonneg _ h := absurd h List.not_mem_nil
  freeSpace := by
    show (UInt32.ofNat basketFrameSize).toNat + 0 = basketFrameSize
    decide
  freeIframe := by
    show ((UInt32.ofNat basketIframeNum).toNat : Int) + 0 = basketIframeNum
    decide

/-! ## A new fragment -/

/-- What a created fragment looks like: it is empty and starts where the
fragments before it end, and there was room for one more. -/
theorem strgBasketCreateFragment_some {bgi : BasketGlobalInfo} {recordType : RecordType}
    {now : Int32} {bf : BasketFragment} (h : Layout bgi)
    (hbf : strgBasketCreateFragment bgi recordType now = some bf) :
    bgi.bfList.length < basketFragmentNum ∧ bf.pos = basketFrameOft + usedSpace bgi.bfList ∧
      bf.slot = usedIframes bgi.bfList ∧ bf.bytes = 0 ∧ bf.slots = 0 := by
  unfold strgBasketCreateFragment at hbf
  split at hbf
  · cases hbf
  next hroom =>
  have hnum : bgi.bfList.length < basketFragmentNum := by
    have hne : bgi.bg.fragmentNum ≠ UInt32.ofNat basketFragmentNum :=
      fun e => hroom (.inr (.inl e))
    have hne' : bgi.bg.fragmentNum.toNat ≠ basketFragmentNum :=
      fun e => hne (UInt32.toNat_inj.1 e)
    have := h.fragmentNum
    have := h.fragmentNum_le
    omega
  refine ⟨hnum, ?_⟩
  split at hbf
  · cases hbf
  split at hbf
  · next last hlast =>
      obtain ⟨before, hlist⟩ := List.getLast?_eq_some_iff.1 hlast
      obtain rfl := Option.some.inj hbf
      have hframes := h.frames
      have hiframes := h.iframes
      have hspace := h.freeSpace
      have hiframe := h.freeIframe
      have hnonneg : 0 ≤ last.slots := h.slots_nonneg last (by simp [hlist])
      have hbefore : 0 ≤ usedIframes before :=
        total_nonneg fun bf hbf => h.slots_nonneg bf (by simp [hlist, hbf])
      rw [hlist, tiles_concat] at hframes hiframes
      rw [hlist, usedSpace_concat] at hspace
      rw [hlist, usedIframes_concat] at hiframe
      have hpos : last.pos = basketFrameOft + usedSpace before := hframes.2
      have hslot : last.slot = usedIframes before := by
        simpa [usedIframes] using hiframes.2
      have hend : (last.beginFramePos + last.fragmentSize).toNat = last.pos + last.bytes :=
        UInt32.toNat_add_of_lt' (by
          rw [basketFrameOft_eq] at hpos
          rw [basketFrameSize_eq] at hspace
          show last.pos + last.bytes < _
          omega)
      have hslots : (last.firstIframeIdx + last.iframeNum).toInt = last.slot + last.slots := by
        rw [basketIframeNum_eq] at hiframe
        refine Int32.toInt_add_of_range ?_ ?_
        · show -2 ^ 31 ≤ last.slot + last.slots
          omega
        · show last.slot + last.slots < 2 ^ 31
          omega
      refine ⟨?_, ?_, rfl, rfl⟩
      · rw [hlist, usedSpace_concat]
        show (last.beginFramePos + last.fragmentSize).toNat = _
        omega
      · rw [hlist, usedIframes_concat]
        show (last.firstIframeIdx + last.iframeNum).toInt = _
        omega
  · next hnone =>
      obtain rfl := Option.some.inj hbf
      rw [List.getLast?_eq_none_iff.1 hnone]
      exact ⟨rfl, rfl, rfl, rfl⟩

/-- Taking a header change back leaves what `Layout` is about. -/
theorem Layout.dropFragment {bgi : BasketGlobalInfo} (h : Layout bgi) :
    Layout { bgi with bg := bgi.bg.addFragment.dropFragment } where
  fragmentNum := by
    show (bgi.bg.fragmentNum + 1 - 1).toNat = _
    rw [UInt32.add_sub_cancel]
    exact h.fragmentNum
  fragmentNum_le := h.fragmentNum_le
  frames := h.frames
  iframes := h.iframes
  slots_nonneg := h.slots_nonneg
  freeSpace := h.freeSpace
  freeIframe := h.freeIframe

theorem Layout.addFragment {bgi : BasketGlobalInfo} {recordType : RecordType} {now : Int32}
    {bf : BasketFragment} (h : Layout bgi)
    (hbf : strgBasketCreateFragment bgi recordType now = some bf) :
    Layout (bgi.addFragment bf.setWriting recordType) := by
  obtain ⟨hnum, hpos, hslot, hbytes, hslots⟩ := strgBasketCreateFragment_some h hbf
  have hbytes' : bf.setWriting.bytes = 0 := hbytes
  have hslots' : bf.setWriting.slots = 0 := hslots
  exact {
    fragmentNum := by
      have hlt := h.fragmentNum
      rw [basketFragmentNum] at hnum
      show (bgi.bg.fragmentNum + 1).toNat = (bgi.bfList ++ [bf.setWriting]).length
      rw [UInt32.toNat_add_of_lt' (by simp; omega), hlt]
      simp
    fragmentNum_le := by
      show (bgi.bfList ++ [bf.setWriting]).length ≤ _
      rw [List.length_append]
      exact hnum
    frames := tiles_concat.2 ⟨h.frames, hpos⟩
    iframes := tiles_concat.2 ⟨h.iframes, hslot.trans (Int.zero_add _).symm⟩
    slots_nonneg := by
      intro x hx
      obtain hx | hx := List.mem_append.1 hx
      · exact h.slots_nonneg x hx
      · rw [List.mem_singleton.1 hx, hslots']
    freeSpace := by
      show _ + usedSpace (bgi.bfList ++ [bf.setWriting]) = _
      rw [usedSpace_concat, hbytes']
      exact h.freeSpace
    freeIframe := by
      show _ + usedIframes (bgi.bfList ++ [bf.setWriting]) = _
      rw [usedIframes_concat, hslots', Int.add_zero]
      exact h.freeIframe }

/-! ## A frame taken -/

/-- How many index slots a frame takes. -/
def iframeSlots (f : Frame) : Nat := if f.frameType = .i then 1 else 0

@[simp] theorem updateFragment_pos (bf : BasketFragment) (curTime : Int32) (f : Frame) :
    (updateFragment bf curTime f).pos = bf.pos := rfl

@[simp] theorem updateFragment_slot (bf : BasketFragment) (curTime : Int32) (f : Frame) :
    (updateFragment bf curTime f).slot = bf.slot := rfl

theorem updateFragment_bytes (bf : BasketFragment) (f : Frame)
    (h : bf.bytes + (basketFrameLen + f.data.length) < 2 ^ 32) (curTime : Int32) :
    (updateFragment bf curTime f).bytes = bf.bytes + (basketFrameLen + f.data.length) := by
  show (bf.fragmentSize + (UInt32.ofNat basketFrameLen + f.size)).toNat = _
  rw [UInt32.toNat_add_of_lt' (by rw [toNat_frameLen_add]; exact h), toNat_frameLen_add]

theorem updateFragment_slots {bf : BasketFragment} (h0 : 0 ≤ bf.slots)
    (h : bf.slots + 1 < 2 ^ 31) (curTime : Int32) (f : Frame) :
    (updateFragment bf curTime f).slots = bf.slots + iframeSlots f := by
  show (if f.frameType = .i then bf.iframeNum + 1 else bf.iframeNum).toInt = _
  unfold iframeSlots
  split
  · exact Int32.toInt_add_of_range (by show -2 ^ 31 ≤ bf.slots + 1; omega) h
  · simp

theorem takeFrame_freeSpace {bgi : BasketGlobalInfo} {f : Frame} (h : ¬noFrameRoom bgi f)
    (i : Nat) (curTime : Int32) :
    (bgi.takeFrame i curTime f).freeSpace.toNat + (basketFrameLen + f.data.length) =
      bgi.freeSpace.toNat := by
  have hle : (UInt32.ofNat basketFrameLen + f.size).toNat ≤ bgi.freeSpace.toNat :=
    UInt32.le_iff_toNat_le.1 (UInt32.not_lt.1 h)
  show (bgi.freeSpace - (UInt32.ofNat basketFrameLen + f.size)).toNat + _ = _
  rw [UInt32.toNat_sub_of_toNat_le hle]
  rw [toNat_frameLen_add] at hle ⊢
  omega

theorem takeFrame_freeIframe {bgi : BasketGlobalInfo} {f : Frame} (h : ¬noIframeRoom bgi f)
    (i : Nat) (curTime : Int32) :
    (bgi.takeFrame i curTime f).freeIframe.toNat + iframeSlots f = bgi.freeIframe.toNat := by
  show (if f.frameType = .i then bgi.freeIframe - 1 else bgi.freeIframe).toNat + _ = _
  unfold iframeSlots
  split
  · next hi =>
      have hne : bgi.freeIframe ≠ 0 := fun e => h ⟨hi, .inl e⟩
      have hpos : bgi.freeIframe.toNat ≠ 0 := fun e => hne (UInt32.toNat_inj.1 e)
      have hone : (1 : UInt32).toNat = 1 := rfl
      rw [UInt32.toNat_sub_of_toNat_le (by omega), hone]
      omega
  · rfl

/-- The fragment being written, and the layout of the basket around it. -/
theorem Layout.current {bgi : BasketGlobalInfo} {i : Nat} (h : Layout bgi)
    (hi : i + 1 = bgi.bfList.length) :
    ∃ before bf, bgi.bfList = before ++ [bf] ∧ bgi.bfList.getD i default = bf ∧
      bf.pos = basketFrameOft + usedSpace before ∧ bf.slot = usedIframes before ∧
      0 ≤ bf.slots ∧ 0 ≤ usedIframes before ∧
      bgi.freeSpace.toNat + usedSpace before + bf.bytes = basketFrameSize ∧
      bgi.freeIframe.toNat + usedIframes before + bf.slots = basketIframeNum ∧
      ∀ g, bgi.bfList.modify i g = before ++ [g bf] := by
  obtain ⟨before, bf, hlist, _, hget, hmodify⟩ := modify_last hi default
  have hframes := h.frames
  have hiframes := h.iframes
  have hspace := h.freeSpace
  have hiframe := h.freeIframe
  rw [hlist, tiles_concat] at hframes hiframes
  rw [hlist, usedSpace_concat] at hspace
  rw [hlist, usedIframes_concat] at hiframe
  refine ⟨before, bf, hlist, hget, hframes.2, by simpa [usedIframes] using hiframes.2,
    h.slots_nonneg bf (by simp [hlist]),
    total_nonneg fun x hx => h.slots_nonneg x (by simp [hlist, hx]), by omega, by omega, hmodify⟩

theorem Layout.takeFrame {bgi : BasketGlobalInfo} {i : Nat} {f : Frame} (h : Layout bgi)
    (hi : i + 1 = bgi.bfList.length) (hiframe : ¬noIframeRoom bgi f)
    (hframe : ¬noFrameRoom bgi f) (curTime : Int32) : Layout (bgi.takeFrame i curTime f) := by
  obtain ⟨before, bf, hlist, _, hpos, hslot, hnonneg, hbefore, hspace, hslots, hmodify⟩ :=
    h.current hi
  have hfree := takeFrame_freeSpace hframe i curTime
  have hfreeIframe := takeFrame_freeIframe hiframe i curTime
  have hbytes := updateFragment_bytes bf f
    (by rw [basketFrameSize_eq] at hspace; omega) curTime
  have hnum := updateFragment_slots hnonneg
    (by rw [basketIframeNum_eq] at hslots; omega) curTime f
  have hlist' : (bgi.takeFrame i curTime f).bfList = before ++ [updateFragment bf curTime f] :=
    hmodify _
  exact {
    fragmentNum := by
      rw [hlist']
      have := h.fragmentNum
      rw [hlist] at this
      show bgi.bg.fragmentNum.toNat = _
      simpa using this
    fragmentNum_le := by
      rw [hlist']
      have := h.fragmentNum_le
      rw [hlist] at this
      simpa using this
    frames := by
      rw [hlist']
      exact (hlist ▸ h.frames).replace_last rfl
    iframes := by
      rw [hlist']
      exact (hlist ▸ h.iframes).replace_last rfl
    slots_nonneg := by
      rw [hlist']
      intro x hx
      obtain hx | hx := List.mem_append.1 hx
      · exact h.slots_nonneg x (by simp [hlist, hx])
      · rw [List.mem_singleton.1 hx, hnum]
        omega
    freeSpace := by
      rw [hlist', usedSpace_concat, hbytes]
      omega
    freeIframe := by
      rw [hlist', usedIframes_concat, hnum]
      omega }

/-! ## Changes that leave the counters alone -/

theorem Layout.setFull {bgi : BasketGlobalInfo} (h : Layout bgi) : Layout bgi.setFull :=
  ⟨h.fragmentNum, h.fragmentNum_le, h.frames, h.iframes, h.slots_nonneg, h.freeSpace,
    h.freeIframe⟩

/-- The last fragment may change in all but its extents. -/
theorem Layout.modify {bgi bgi' : BasketGlobalInfo} {i : Nat} {g : BasketFragment → BasketFragment}
    (h : Layout bgi) (hi : i + 1 = bgi.bfList.length) (hlist : bgi'.bfList = bgi.bfList.modify i g)
    (hg : ∀ bf, (g bf).pos = bf.pos ∧ (g bf).bytes = bf.bytes ∧ (g bf).slot = bf.slot ∧
      (g bf).slots = bf.slots)
    (hnum : bgi'.bg.fragmentNum = bgi.bg.fragmentNum) (hspace : bgi'.freeSpace = bgi.freeSpace)
    (hiframe : bgi'.freeIframe = bgi.freeIframe) : Layout bgi' := by
  obtain ⟨before, bf, hbefore, _, _, _, _, _, _, _, hmodify⟩ := h.current hi
  obtain ⟨hpos, hbytes, hslot, hslots⟩ := hg bf
  rw [hmodify] at hlist
  have hused : usedSpace bgi'.bfList = usedSpace bgi.bfList := by
    rw [hlist, hbefore, usedSpace_concat, usedSpace_concat, hbytes]
  have husedIframes : usedIframes bgi'.bfList = usedIframes bgi.bfList := by
    rw [hlist, hbefore, usedIframes_concat, usedIframes_concat, hslots]
  have hlen : bgi'.bfList.length = bgi.bfList.length := by
    rw [hlist, hbefore, List.length_append, List.length_append]
    rfl
  refine ⟨?_, hlen.trans_le h.fragmentNum_le, ?_, ?_, ?_, ?_, ?_⟩
  · rw [hnum, hlen]
    exact h.fragmentNum
  · rw [hlist]
    exact (hbefore ▸ h.frames).replace_last hpos
  · rw [hlist]
    exact (hbefore ▸ h.iframes).replace_last hslot
  · rw [hlist]
    intro x hx
    obtain hx | hx := List.mem_append.1 hx
    · exact h.slots_nonneg x (by simp [hbefore, hx])
    · rw [List.mem_singleton.1 hx, hslots]
      exact h.slots_nonneg bf (by simp [hbefore])
  · rw [hused, hspace]
    exact h.freeSpace
  · rw [husedIframes, hiframe]
    exact h.freeIframe

theorem Layout.closeFragment {bgi : BasketGlobalInfo} {i : Nat} (h : Layout bgi)
    (hi : i + 1 = bgi.bfList.length) : Layout (bgi.closeFragment i) :=
  h.modify hi rfl (fun _ => ⟨rfl, rfl, rfl, rfl⟩) rfl rfl rfl

/-! ## Runs -/

/-- What is asked of an open basket. -/
inductive BasketOp where
  | writeStart (chn : Int32) (recordType : RecordType)
  | write (minutes : Int32) (curTime : UInt64) (f : Frame)
  | writeStop

inductive Area where
  | frame
  | iframe
  deriving DecidableEq, Repr

/-- A range of a basket file that a record was stored in. -/
structure Extent where
  area : Area
  off : Nat
  len : Nat
  deriving DecidableEq, Repr

/-- Where an area begins and how long it is. -/
def Area.range : Area → Nat × Nat
  | .frame => (basketFrameOft, basketFrameSize)
  | .iframe => (basketIframeOft, basketIframeSize)

def Extent.Inside (e : Extent) : Prop :=
  e.area.range.1 ≤ e.off ∧ e.off + e.len ≤ e.area.range.1 + e.area.range.2

def Extent.Apart (e e' : Extent) : Prop := ByteFile.Apart e.off e.len e'.off e'.len

def FileOp.extent (area : Area) : FileOp FilePath → Option Extent
  | .write _ off data => some ⟨area, off, data.length⟩
  | _ => none

/-- The extents of one stored frame, from what the call logged: its header, its
data and, for an I-frame, its index record. -/
def storedExtents (log : List (FileOp FilePath)) : List Extent :=
  (log.take 2).filterMap (FileOp.extent .frame) ++ (log.drop 2).filterMap (FileOp.extent .iframe)

/-- An open basket and the extents of everything that successful calls of
`strg_basket_write` have stored in it. -/
structure Written where
  basket : Basket
  extents : List Extent

/-- One operation, whatever it returns. -/
def Written.step (w : Written) : BasketOp → Written
  | .writeStart chn recordType =>
      { w with basket := (strgBasketWriteStart w.basket chn recordType).2 }
  | .write minutes curTime f =>
      let written := strgBasketWrite w.basket minutes curTime f
      { basket := written.2
        extents :=
          if written.1 > 0 then
            w.extents ++ storedExtents (written.2.dev.log.drop w.basket.dev.log.length)
          else w.extents }
  | .writeStop => { w with basket := strgBasketWriteStop w.basket }

/-- A basket just reset, with nothing stored since. -/
def Written.reset (dev : Dev) (bgi : BasketGlobalInfo) (chn : Int32) (useCnt : UInt32) :
    Written where
  basket := (strgBasketReset ⟨dev, bgi, .fresh bgi.basketIdx⟩ chn useCnt).2
  extents := []

/-- How far an area is in use. -/
def areaEnd (bgi : BasketGlobalInfo) : Area → Nat
  | .frame => basketFrameOft + usedSpace bgi.bfList
  | .iframe => basketIframeOft + basketIframeLen * (usedIframes bgi.bfList).toNat

/-- What every run keeps: the layout, and the stored extents below the end of
the part in use. -/
structure Written.Inv (w : Written) : Prop where
  layout : Layout w.basket.bgi
  curLast : CurLast w.basket
  below : ∀ e ∈ w.extents, e.area.range.1 ≤ e.off ∧ e.off + e.len ≤ areaEnd w.basket.bgi e.area
  apart : w.extents.Pairwise Extent.Apart

theorem areaEnd_le {bgi : BasketGlobalInfo} (h : Layout bgi) (area : Area) :
    areaEnd bgi area ≤ area.range.1 + area.range.2 := by
  cases area with
  | frame =>
      have := h.freeSpace
      simp only [areaEnd, Area.range]
      omega
  | iframe =>
      have hfree := h.freeIframe
      have hnonneg := h.usedIframes_nonneg
      have hsize : basketIframeLen * basketIframeNum ≤ basketIframeSize := by decide
      have hle : (usedIframes bgi.bfList).toNat ≤ basketIframeNum := by omega
      have := Nat.mul_le_mul_left basketIframeLen hle
      simp only [areaEnd, Area.range]
      omega

theorem Written.Inv.inside {w : Written} (h : w.Inv) {e : Extent} (he : e ∈ w.extents) :
    e.Inside :=
  ⟨(h.below e he).1, (h.below e he).2.trans (areaEnd_le h.layout e.area)⟩

/-- Extents that lie from the old ends on, up to the new ends and apart from
each other, may be added. -/
theorem Written.Inv.extend {w : Written} (h : w.Inv) {b : Basket} {es : List Extent}
    (hlayout : Layout b.bgi) (hcur : CurLast b)
    (hgrow : ∀ area, areaEnd w.basket.bgi area ≤ areaEnd b.bgi area)
    (hes : ∀ e ∈ es, areaEnd w.basket.bgi e.area ≤ e.off ∧
      e.off + e.len ≤ areaEnd b.bgi e.area)
    (hapart : es.Pairwise Extent.Apart) : (Written.mk b (w.extents ++ es)).Inv where
  layout := hlayout
  curLast := hcur
  below := by
    intro e he
    obtain he | he := List.mem_append.1 he
    · exact ⟨(h.below e he).1, (h.below e he).2.trans (hgrow e.area)⟩
    · refine ⟨le_trans ?_ (hes e he).1, (hes e he).2⟩
      cases e.area with
      | frame => exact Nat.le_add_right _ _
      | iframe => exact Nat.le_add_right _ _
  apart := by
    refine List.pairwise_append.2 ⟨h.apart, hapart, fun e he e' he' => ?_⟩
    have hbelow := h.below e he
    have hinside := h.inside he
    have hnew := hes e' he'
    have hend' := hnew.2.trans (areaEnd_le hlayout e'.area)
    have hareas : basketIframeOft + basketIframeSize = basketFrameOft := rfl
    unfold Extent.Apart ByteFile.Apart
    unfold Extent.Inside at hinside
    cases harea : e.area <;> cases harea' : e'.area <;>
      simp only [harea, harea', Area.range, areaEnd] at hbelow hinside hnew hend' ⊢ <;> omega

/-- The extents of a frame and of its index record. -/
def takenExtents (pos : Nat) (f : Frame) (slot : Nat) : List Extent :=
  ⟨.frame, pos, basketFrameLen⟩ :: ⟨.frame, pos + basketFrameLen, f.data.length⟩ ::
    if f.frameType = .i then [⟨.iframe, slot, basketIframeLen⟩] else []

theorem areaEnd_frame (bgi : BasketGlobalInfo) :
    areaEnd bgi .frame = basketFrameOft + usedSpace bgi.bfList := rfl

theorem areaEnd_iframe (bgi : BasketGlobalInfo) :
    areaEnd bgi .iframe = basketIframeOft + basketIframeLen * (usedIframes bgi.bfList).toNat :=
  rfl

/-- The part in use ends where the current fragment does. -/
theorem Layout.areaEnd_current {bgi : BasketGlobalInfo} {i : Nat} (h : Layout bgi)
    (hi : i + 1 = bgi.bfList.length) :
    areaEnd bgi .frame =
        (bgi.bfList.getD i default).pos + (bgi.bfList.getD i default).bytes ∧
      areaEnd bgi .iframe = basketIframeOft + basketIframeLen *
        ((bgi.bfList.getD i default).slot + (bgi.bfList.getD i default).slots).toNat := by
  obtain ⟨before, bf, hlist, hget, hpos, hslot, _⟩ := h.current hi
  rw [hget, areaEnd_frame, areaEnd_iframe, hlist, usedSpace_concat, usedIframes_concat, hpos,
    hslot, Nat.add_assoc]
  exact ⟨rfl, rfl⟩

/-- Where an accepted frame goes, and how far both areas are in use before and
after it. -/
structure Placed (bgi : BasketGlobalInfo) (bf : BasketFragment) (f : Frame) (i : Nat)
    (curTime : Int32) : Prop where
  pos : (bf.beginFramePos + bf.fragmentSize).toNat = areaEnd bgi .frame
  data : (bf.beginFramePos + bf.fragmentSize + UInt32.ofNat basketFrameLen).toNat =
    areaEnd bgi .frame + basketFrameLen
  slot : f.frameType = .i → iframeOft (bf.firstIframeIdx + bf.iframeNum) = areaEnd bgi .iframe
  frameEnd : areaEnd (bgi.takeFrame i curTime f) .frame =
    areaEnd bgi .frame + (basketFrameLen + f.data.length)
  iframeEnd : areaEnd (bgi.takeFrame i curTime f) .iframe =
    areaEnd bgi .iframe + basketIframeLen * iframeSlots f

theorem Layout.placed {bgi : BasketGlobalInfo} {i : Nat} {f : Frame} (h : Layout bgi)
    (hi : i + 1 = bgi.bfList.length) (hiframe : ¬noIframeRoom bgi f)
    (hframe : ¬noFrameRoom bgi f) (curTime : Int32) :
    Placed bgi (bgi.bfList.getD i default) f i curTime := by
  obtain ⟨before, bf, hlist, hget, hpos, hslot, hnonneg, hbefore, hspace, hslots, hmodify⟩ :=
    h.current hi
  have hfree := takeFrame_freeSpace hframe i curTime
  have hfreeIframe := takeFrame_freeIframe hiframe i curTime
  have hspace' := (h.takeFrame hi hiframe hframe curTime).freeSpace
  have hslots' := (h.takeFrame hi hiframe hframe curTime).freeIframe
  have hspace0 := h.freeSpace
  have hslots0 := h.freeIframe
  rw [basketFrameSize_eq] at hspace hspace' hspace0
  rw [basketIframeNum_eq] at hslots hslots' hslots0
  have hused : usedSpace bgi.bfList = usedSpace before + bf.bytes := by
    rw [hlist, usedSpace_concat]
  have husedIf : usedIframes bgi.bfList = usedIframes before + bf.slots := by
    rw [hlist, usedIframes_concat]
  have hend : (bf.beginFramePos + bf.fragmentSize).toNat = areaEnd bgi .frame := by
    have hlt : bf.pos + bf.bytes < 2 ^ 32 := by
      rw [basketFrameOft_eq] at hpos
      omega
    rw [UInt32.toNat_add_of_lt' hlt, areaEnd_frame, hused, ← Nat.add_assoc, ← hpos]
  rw [hget]
  refine ⟨hend, ?_, fun hf => ?_, ?_, ?_⟩
  · rw [areaEnd_frame, basketFrameOft_eq] at hend ⊢
    have hlen : (UInt32.ofNat basketFrameLen).toNat = basketFrameLen := rfl
    rw [UInt32.toNat_add_of_lt' (by rw [hend, hlen, basketFrameLen]; omega), hend, hlen]
  · have hone : iframeSlots f = 1 := if_pos hf
    have hsum : (bf.firstIframeIdx + bf.iframeNum).toInt = usedIframes bgi.bfList := by
      have hlo : -2 ^ 31 ≤ bf.slot + bf.slots := by omega
      have hhi : bf.slot + bf.slots < 2 ^ 31 := by omega
      rw [Int32.toInt_add_of_range hlo hhi, husedIf, ← hslot]
    rw [iframeOft_eq (by rw [hsum]; omega) (by rw [hsum, basketIframeNum_eq]; omega), hsum,
      areaEnd_iframe]
  · simp only [areaEnd_frame]
    omega
  · have hnum : (usedIframes (bgi.takeFrame i curTime f).bfList).toNat =
        (usedIframes bgi.bfList).toNat + iframeSlots f := by omega
    rw [areaEnd_iframe, areaEnd_iframe, hnum, Nat.mul_add, Nat.add_assoc]

theorem storedExtents_taken {dev : Dev} {bgi : BasketGlobalInfo} {bf : BasketFragment}
    {f : Frame} {i : Nat} {curTime : Int32} (h : Placed bgi bf f i curTime) (ts : Timeval) :
    storedExtents ((dev.putTaken bgi bf f ts).log.drop dev.log.length) =
      takenExtents (areaEnd bgi .frame) f (areaEnd bgi .iframe) := by
  unfold Dev.putTaken takenExtents
  simp only
  split
  · next hi =>
      simp [Dev.putIframe, Dev.putFrame, storedExtents, FileOp.extent, h.pos, h.data, h.slot hi]
  · simp [Dev.putFrame, storedExtents, FileOp.extent, h.pos, h.data]

theorem Written.Inv.keep {w : Written} (h : w.Inv) {b : Basket} (hlayout : Layout b.bgi)
    (hcur : CurLast b) (hend : ∀ area, areaEnd b.bgi area = areaEnd w.basket.bgi area) :
    (Written.mk b w.extents).Inv where
  layout := hlayout
  curLast := hcur
  below e he := by
    rw [hend]
    exact h.below e he
  apart := h.apart

theorem areaEnd_congr {bgi bgi' : BasketGlobalInfo}
    (hspace : usedSpace bgi'.bfList = usedSpace bgi.bfList)
    (hslots : usedIframes bgi'.bfList = usedIframes bgi.bfList) (area : Area) :
    areaEnd bgi' area = areaEnd bgi area := by
  cases area with
  | frame => rw [areaEnd_frame, areaEnd_frame, hspace]
  | iframe => rw [areaEnd_iframe, areaEnd_iframe, hslots]

theorem Written.Inv.writeStart {w : Written} (h : w.Inv) (chn : Int32)
    (recordType : RecordType) : (w.step (.writeStart chn recordType)).Inv := by
  obtain ⟨_, hbfi, hbgi⟩ | ⟨bf, hbf, _, heq⟩ :=
    strgBasketWriteStart_cases w.basket chn recordType
  · refine h.keep ?_ ?_ ?_
    · obtain hbgi | hbgi := hbgi <;> rw [hbgi]
      · exact h.layout
      · exact h.layout.dropFragment
    · intro i hi
      rw [hbfi] at hi
      obtain hbgi | hbgi := hbgi <;> rw [hbgi] <;> exact h.curLast i hi
    · obtain hbgi | hbgi := hbgi <;> rw [hbgi] <;> exact fun area => areaEnd_congr rfl rfl area
  · obtain ⟨_, _, _, hbytes, hslots⟩ := strgBasketCreateFragment_some h.layout hbf
    simp only [Written.step, heq]
    refine h.keep (h.layout.addFragment hbf) ?_ (areaEnd_congr ?_ ?_)
    · intro i hi
      obtain rfl := Option.some.inj hi
      simp [BasketGlobalInfo.addFragment]
    · show usedSpace (w.basket.bgi.bfList ++ [bf.setWriting]) = _
      rw [usedSpace_concat]
      exact congrArg (usedSpace w.basket.bgi.bfList + ·) hbytes
    · show usedIframes (w.basket.bgi.bfList ++ [bf.setWriting]) = _
      rw [usedIframes_concat]
      exact (congrArg (usedIframes w.basket.bgi.bfList + ·) hslots).trans (Int.add_zero _)

theorem Written.Inv.write {w : Written} (h : w.Inv) (minutes : Int32) (curTime : UInt64)
    (f : Frame) : (w.step (.write minutes curTime f)).Inv := by
  obtain ⟨hret, hbgi, hbfi⟩ | ⟨i, hacc, heq⟩ :=
    strgBasketWrite_cases w.basket minutes curTime f
  · have hcur : (strgBasketWrite w.basket minutes curTime f).2.bfi.curBf =
        w.basket.bfi.curBf := by
      obtain hbfi | hbfi := hbfi <;> rw [hbfi]
      exact stampFrame_curBf _ _ _
    simp only [Written.step, if_neg (not_lt.2 hret)]
    refine h.keep ?_ ?_ ?_
    · obtain hbgi | hbgi := hbgi <;> rw [hbgi]
      · exact h.layout
      · exact h.layout.setFull
    · intro i hi
      rw [hcur] at hi
      obtain hbgi | hbgi := hbgi <;> rw [hbgi] <;> exact h.curLast i hi
    · obtain hbgi | hbgi := hbgi <;> rw [hbgi] <;> exact fun area => areaEnd_congr rfl rfl area
  · have hlast := h.curLast i hacc.cur
    have hplaced := h.layout.placed hlast hacc.iframeRoom hacc.frameRoom (secOf curTime)
    have hpos : (f.data.length : Int) > 0 := by
      have := List.length_pos_iff.2 hacc.nonempty
      omega
    simp only [Written.step, heq, if_pos hpos, storedExtents_taken hplaced]
    refine h.extend (h.layout.takeFrame hlast hacc.iframeRoom hacc.frameRoom _) ?_ ?_ ?_ ?_
    · intro j hj
      rw [stampFrame_curBf] at hj
      simpa [BasketGlobalInfo.takeFrame, strgBasketUpdateFragment] using h.curLast j hj
    · intro area
      cases area with
      | frame => rw [hplaced.frameEnd]; omega
      | iframe => rw [hplaced.iframeEnd]; omega
    · have hframe := hplaced.frameEnd
      have hiframe := hplaced.iframeEnd
      intro e he
      simp only [takenExtents, List.mem_cons] at he
      obtain rfl | rfl | he := he
      · simp only
        omega
      · simp only
        omega
      · split at he
        · next hi =>
            rw [iframeSlots, if_pos hi] at hiframe
            obtain rfl := List.mem_singleton.1 he
            simp only
            omega
        · exact absurd he List.not_mem_nil
    · have hareas := areaEnd_le h.layout .iframe
      have hregions : basketIframeOft + basketIframeSize = basketFrameOft := rfl
      have hiframe := hplaced.iframeEnd
      have hend' := areaEnd_le
        (h.layout.takeFrame hlast hacc.iframeRoom hacc.frameRoom (secOf curTime)) .iframe
      have hframes : basketFrameOft ≤ areaEnd w.basket.bgi .frame := Nat.le_add_right _ _
      unfold takenExtents
      simp only [Area.range] at hend'
      split
      · next hi =>
          rw [iframeSlots, if_pos hi] at hiframe
          simp [Extent.Apart, ByteFile.Apart]
          omega
      · simp [Extent.Apart, ByteFile.Apart]

theorem Written.Inv.writeStop {w : Written} (h : w.Inv) : (w.step .writeStop).Inv := by
  cases hcur : w.basket.bfi.curBf with
  | none =>
      simp only [Written.step, strgBasketWriteStop, hcur]
      exact h
  | some i =>
      have hlast := h.curLast i hcur
      obtain ⟨before, bf, hlist, _, _, _, _, _, _, _, hmodify⟩ := h.layout.current hlast
      have hlist' : (w.basket.bgi.closeFragment i).bfList = before ++ [bf.clearWriting] :=
        hmodify _
      simp only [Written.step, strgBasketWriteStop, hcur]
      refine h.keep (h.layout.closeFragment hlast) (fun j hj => absurd hj (by simp))
        (areaEnd_congr ?_ ?_)
      · rw [hlist', hlist, usedSpace_concat, usedSpace_concat]
        rfl
      · rw [hlist', hlist, usedIframes_concat, usedIframes_concat]
        rfl

theorem Written.Inv.step {w : Written} (h : w.Inv) (op : BasketOp) : (w.step op).Inv := by
  cases op with
  | writeStart chn recordType => exact h.writeStart chn recordType
  | write minutes curTime f => exact h.write minutes curTime f
  | writeStop => exact h.writeStop

theorem written_reset_inv (dev : Dev) (bgi : BasketGlobalInfo) (chn : Int32) (useCnt : UInt32) :
    (Written.reset dev bgi chn useCnt).Inv where
  layout := layout_reset bgi chn useCnt
  curLast i hi := absurd hi (by simp [Written.reset, strgBasketReset, BasketFileInfo.fresh])
  below e he := absurd he List.not_mem_nil
  apart := .nil

/-- The operations in turn. -/
def Written.run (w : Written) (ops : List BasketOp) : Written := ops.foldl Written.step w

theorem Written.Inv.run {w : Written} (h : w.Inv) (ops : List BasketOp) : (w.run ops).Inv := by
  induction ops generalizing w with
  | nil => exact h
  | cons op ops ih => exact ih (h.step op)

/-- After any operations on a basket that has been reset, whichever of their
writes fail, the fragments tile the two areas, the counters are what is left,
and all records stored lie inside their areas and apart from each other. -/
theorem basket_layout (dev : Dev) (bgi : BasketGlobalInfo) (chn : Int32) (useCnt : UInt32)
    (ops : List BasketOp) :
    let w := (Written.reset dev bgi chn useCnt).run ops
    Layout w.basket.bgi ∧ (∀ e ∈ w.extents, e.Inside) ∧ w.extents.Pairwise Extent.Apart := by
  have hinv := (written_reset_inv dev bgi chn useCnt).run ops
  exact ⟨hinv.layout, fun e he => hinv.inside he, hinv.apart⟩

end Nvr.Storage
