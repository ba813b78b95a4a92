import Nvr.Lib.FixedWidth
import Nvr.Storage.Basket

/-!
# What one basket operation can do

One lemma per operation of `Basket.lean`, listing its outcomes: what each
leaves in memory and what it has done to the files. Everything later about
baskets argues from these lists and does not open the definitions again.
-/

namespace Nvr.Storage

/-- A frame and its header, as a record length. -/
theorem toNat_frameLen_add (f : Frame) :
    (UInt32.ofNat basketFrameLen + f.size).toNat = basketFrameLen + f.data.length := by
  have h := f.size_lt
  rw [UInt32.toNat_add, f.toNat_size]
  simp only [basketFrameLen, UInt32.toNat_ofNat']
  omega

/-! ## What a completed write leaves on the disk -/

/-- The disk after a basket header has been stored. -/
def Dev.putGlobal (dev : Dev) (idx : Nat) (bg : BasketGlobal) : Dev :=
  dev.commit (.write (.basket idx) basketGlobalOft (BasketGlobal.format.encode bg))

/-- The disk after a fragment has been stored. -/
def Dev.putFragment (dev : Dev) (idx : Nat) (bf : BasketFragment) (bfIdx : Nat) : Dev :=
  dev.commit (.write (.basket idx) (fragmentOft bfIdx) (BasketFragment.format.encode bf))

/-- The disk after an index record has been stored. -/
def Dev.putIframe (dev : Dev) (idx : Nat) (r : BasketIFrame) (ifIdx : Int32) : Dev :=
  dev.commit (.write (.basket idx) (iframeOft ifIdx) (BasketIFrame.format.encode r))

/-- The disk after a frame has been stored. -/
def Dev.putFrame (dev : Dev) (idx : Nat) (pos : UInt32) (bframe : BasketFrame)
    (data : List UInt8) : Dev :=
  (dev.commit (.write (.basket idx) pos.toNat
    (BasketFrame.format.encode (sampledHeader dev bframe data)))).commit
    (.write (.basket idx) (pos + UInt32.ofNat basketFrameLen).toNat data)

theorem strgBasketWriteGlobal_ok {dev : Dev} {idx : Nat} {bg : BasketGlobal}
    (h : (strgBasketWriteGlobal dev idx bg).1 = true) :
    (strgBasketWriteGlobal dev idx bg).2 = dev.putGlobal idx bg := strgWrite_ok h

theorem strgBasketWriteFragment_ok {dev : Dev} {idx bfIdx : Nat} {bf : BasketFragment}
    (h : (strgBasketWriteFragment dev idx bf bfIdx).1 = true) :
    (strgBasketWriteFragment dev idx bf bfIdx).2 = dev.putFragment idx bf bfIdx :=
  strgWrite_ok h

theorem strgBasketWriteIframe_ok {dev : Dev} {idx : Nat} {r : BasketIFrame} {ifIdx : Int32}
    (h : (strgBasketWriteIframe dev idx r ifIdx).1 = true) :
    (strgBasketWriteIframe dev idx r ifIdx).2 = dev.putIframe idx r ifIdx := strgWrite_ok h

theorem strgBasketWriteFrame_ok {dev : Dev} {idx : Nat} {pos : UInt32} {bframe : BasketFrame}
    {data : List UInt8} (h : (strgBasketWriteFrame dev idx pos bframe data).1 = true) :
    (strgBasketWriteFrame dev idx pos bframe data).2 = dev.putFrame idx pos bframe data := by
  unfold strgBasketWriteFrame at h ⊢
  simp only at h ⊢
  split at h
  · next hheader =>
      rw [if_pos hheader, strgWrite_ok h, strgWrite_ok hheader]
      rfl
  · next hheader => exact absurd h hheader

/-! ## The operations -/

theorem strgBasketWriteStart_cases (b : Basket) (chn : Int32) (recordType : RecordType) :
    ((strgBasketWriteStart b chn recordType).1 = -1 ∧
      (strgBasketWriteStart b chn recordType).2.bfi = b.bfi ∧
      ((strgBasketWriteStart b chn recordType).2.bgi = b.bgi ∨
        (strgBasketWriteStart b chn recordType).2.bgi =
          { b.bgi with bg := b.bgi.bg.addFragment.dropFragment })) ∨
    (∃ bf, strgBasketCreateFragment b.bgi recordType b.dev.now = some bf ∧
      b.bgi.bg.chn = chn ∧
      strgBasketWriteStart b chn recordType =
        (0, { dev := (b.dev.putFragment b.bgi.basketIdx bf.setWriting
                b.bgi.bfList.length).putGlobal b.bgi.basketIdx b.bgi.bg.addFragment
              bgi := b.bgi.addFragment bf.setWriting recordType
              bfi := { b.bfi with
                curBf := some b.bgi.bfList.length
                curBfIdx := b.bgi.bfList.length } })) := by
  unfold strgBasketWriteStart
  split
  · exact .inl ⟨rfl, rfl, .inl rfl⟩
  · next hchn =>
      split
      · exact .inl ⟨rfl, rfl, .inl rfl⟩
      · next bf hbf =>
          simp only
          split
          · next hfrag =>
              split
              · next hglob =>
                  refine .inr ⟨bf, hbf, not_not.1 hchn, ?_⟩
                  rw [strgBasketWriteGlobal_ok hglob, strgBasketWriteFragment_ok hfrag]
              · exact .inl ⟨rfl, rfl, .inr rfl⟩
          · exact .inl ⟨rfl, rfl, .inl rfl⟩

theorem strgBasketWriteStop_cur {b : Basket} {i : Nat} (h : b.bfi.curBf = some i) :
    strgBasketWriteStop b =
      { dev := (strgBasketWriteGlobal (strgBasketWriteFragment b.dev b.bgi.basketIdx
          ((b.bgi.closeFragment i).bfList.getD i default) b.bfi.curBfIdx).2 b.bgi.basketIdx
          (b.bgi.closeFragment i).bg).2
        bgi := b.bgi.closeFragment i
        bfi := { b.bfi with curBf := none, curBfIdx := 0 } } := by
  rw [strgBasketWriteStop, h]

/-- The disk after the frame `f` has been taken into the fragment `bf`. -/
def Dev.putTaken (dev : Dev) (bgi : BasketGlobalInfo) (bf : BasketFragment) (f : Frame)
    (ts : Timeval) : Dev :=
  let pos := bf.beginFramePos + bf.fragmentSize
  let stored := dev.putFrame bgi.basketIdx pos (frameHeader bgi f ts) f.data
  if f.frameType = .i then
    stored.putIframe bgi.basketIdx (iframeRecord bgi f pos ts)
      (bf.firstIframeIdx + bf.iframeNum)
  else stored

/-- The frame passes every check of `strg_basket_write`. -/
structure Accepts (b : Basket) (minutes : Int32) (f : Frame) (i : Nat) : Prop where
  cur : b.bfi.curBf = some i
  nonempty : f.data ≠ []
  iframeRoom : ¬noIframeRoom b.bgi f
  frameRoom : ¬noFrameRoom b.bgi f
  minutes : ¬(minutes > 0 ∧ (b.bgi.bfList.getD i default).endTime -
    (b.bgi.bfList.getD i default).beginTime ≥ minutes * 60)

theorem strgBasketWrite_cases (b : Basket) (minutes : Int32) (curTime : UInt64) (f : Frame) :
    ((strgBasketWrite b minutes curTime f).1 ≤ 0 ∧
      ((strgBasketWrite b minutes curTime f).2.bgi = b.bgi ∨
        (strgBasketWrite b minutes curTime f).2.bgi = b.bgi.setFull) ∧
      ((strgBasketWrite b minutes curTime f).2.bfi = b.bfi ∨
        (strgBasketWrite b minutes curTime f).2.bfi = (stampFrame b.bfi curTime f).1)) ∨
    (∃ i, Accepts b minutes f i ∧
      strgBasketWrite b minutes curTime f =
        ((f.data.length : Int),
          { dev := b.dev.putTaken b.bgi (b.bgi.bfList.getD i default) f
              (stampFrame b.bfi curTime f).2
            bgi := b.bgi.takeFrame i (secOf curTime) f
            bfi := (stampFrame b.bfi curTime f).1 })) := by
  unfold strgBasketWrite
  split
  · exact .inl ⟨by simp, .inl rfl, .inl rfl⟩
  next i hcur =>
  simp only
  split
  · exact .inl ⟨by simp, .inl rfl, .inl rfl⟩
  next hne =>
  split
  · exact .inl ⟨by simp, .inr rfl, .inl rfl⟩
  next hiroom =>
  split
  · exact .inl ⟨by simp, .inr rfl, .inl rfl⟩
  next hroom =>
  split
  · exact .inl ⟨by simp, .inl rfl, .inl rfl⟩
  next hmin =>
  cases hi : decide (f.frameType = .i) with
  | true =>
      have hi := of_decide_eq_true hi
      simp only [hi, if_true]
      split
      · next hframe =>
          split
          · next hindex =>
              refine .inr ⟨i, ⟨hcur, hne, hiroom, hroom, hmin⟩, ?_⟩
              rw [strgBasketWriteFrame_ok hframe] at hindex ⊢
              rw [strgBasketWriteIframe_ok hindex]
              simp only [Dev.putTaken, if_pos hi]
          · exact .inl ⟨by simp, .inl rfl, .inr rfl⟩
      · exact .inl ⟨by simp, .inl rfl, .inr rfl⟩
  | false =>
      have hi := of_decide_eq_false hi
      simp only [hi, if_false, if_true]
      split
      · next hframe =>
          refine .inr ⟨i, ⟨hcur, hne, hiroom, hroom, hmin⟩, ?_⟩
          rw [strgBasketWriteFrame_ok hframe]
          simp only [Dev.putTaken, if_neg hi]
      · exact .inl ⟨by simp, .inl rfl, .inr rfl⟩

@[simp] theorem stampFrame_bgi (bfi : BasketFileInfo) (curTime : UInt64) (f : Frame) :
    (stampFrame bfi curTime f).1.bgi = bfi.bgi := by
  unfold stampFrame
  split <;> split <;> rfl

@[simp] theorem stampFrame_curBf (bfi : BasketFileInfo) (curTime : UInt64) (f : Frame) :
    (stampFrame bfi curTime f).1.curBf = bfi.curBf := by
  unfold stampFrame
  split <;> split <;> rfl

@[simp] theorem stampFrame_curBfIdx (bfi : BasketFileInfo) (curTime : UInt64) (f : Frame) :
    (stampFrame bfi curTime f).1.curBfIdx = bfi.curBfIdx := by
  unfold stampFrame
  split <;> split <;> rfl

/-! ## What no operation on an open basket changes -/

@[simp] theorem setWriting_reading (s : UseStatus) :
    (s ||| useStatusWriting) &&& useStatusReading = s &&& useStatusReading :=
  Flag.or_and_of_disjoint rfl

@[simp] theorem clearWriting_reading (s : UseStatus) :
    s &&& ~~~useStatusWriting &&& useStatusReading = s &&& useStatusReading :=
  Flag.and_not_and_of_disjoint rfl

@[simp] theorem setFull_reading (s : UseStatus) :
    (s ||| useStatusFull) &&& useStatusReading = s &&& useStatusReading :=
  Flag.or_and_of_disjoint rfl

/-- What tells a fragment from the others of its basket. -/
def BasketFragment.place (bf : BasketFragment) : UInt32 × Int32 :=
  (bf.beginFramePos, bf.firstIframeIdx)

/-- The fragments of a basket, by their places. -/
def BasketGlobalInfo.fragments (bgi : BasketGlobalInfo) : List (UInt32 × Int32) :=
  bgi.bfList.map BasketFragment.place

theorem map_modify_of_same {α β : Type} {f : α → β} {g : α → α} (h : ∀ a, f (g a) = f a)
    (l : List α) (i : Nat) : (l.modify i g).map f = l.map f := by
  induction l generalizing i with
  | nil => cases i <;> rfl
  | cons a l ih => cases i <;> simp [h, ih]

@[simp] theorem fragments_closeFragment (bgi : BasketGlobalInfo) (i : Nat) :
    (bgi.closeFragment i).fragments = bgi.fragments :=
  map_modify_of_same (f := BasketFragment.place) (g := BasketFragment.clearWriting)
    (fun _ => rfl) bgi.bfList i

@[simp] theorem fragments_takeFrame (bgi : BasketGlobalInfo) (i : Nat) (curTime : Int32)
    (f : Frame) : (bgi.takeFrame i curTime f).fragments = bgi.fragments :=
  map_modify_of_same (f := BasketFragment.place) (g := fun bf => updateFragment bf curTime f)
    (fun _ => rfl) bgi.bfList i

theorem prefix_of_eq {α : Type*} {l l' : List α} (h : l = l') : l <+: l' :=
  h ▸ List.prefix_refl l

/-- `bgi'` is the basket `bgi` with, at most, more in it. -/
structure BasketGlobalInfo.Keeps (bgi bgi' : BasketGlobalInfo) : Prop where
  basketIdx : bgi'.basketIdx = bgi.basketIdx
  useCnt : bgi'.bg.useCnt = bgi.bg.useCnt
  chn : bgi'.bg.chn = bgi.bg.chn
  readRef : bgi'.readRef = bgi.readRef
  reading : bgi'.bg.status &&& useStatusReading = bgi.bg.status &&& useStatusReading
  fragments : bgi.fragments <+: bgi'.fragments

/-- The same file is open, and the basket has lost nothing. -/
structure Basket.Keeps (b b' : Basket) : Prop where
  file : b'.bfi.bgi = b.bfi.bgi
  bgi : b.bgi.Keeps b'.bgi

theorem BasketGlobalInfo.Keeps.refl (bgi : BasketGlobalInfo) : bgi.Keeps bgi :=
  ⟨rfl, rfl, rfl, rfl, rfl, List.prefix_refl _⟩

theorem BasketGlobalInfo.Keeps.trans {a b c : BasketGlobalInfo} (h : a.Keeps b)
    (h' : b.Keeps c) : a.Keeps c where
  basketIdx := h'.basketIdx.trans h.basketIdx
  useCnt := h'.useCnt.trans h.useCnt
  chn := h'.chn.trans h.chn
  readRef := h'.readRef.trans h.readRef
  reading := h'.reading.trans h.reading
  fragments := h.fragments.trans h'.fragments

theorem BasketGlobalInfo.keeps_setFull (bgi : BasketGlobalInfo) : bgi.Keeps bgi.setFull :=
  ⟨rfl, rfl, rfl, rfl, by simp [setFull], List.prefix_refl _⟩

theorem BasketGlobalInfo.keeps_closeFragment (bgi : BasketGlobalInfo) (i : Nat) :
    bgi.Keeps (bgi.closeFragment i) :=
  ⟨rfl, rfl, rfl, rfl, by simp [closeFragment, BasketGlobal.clearWriting],
    prefix_of_eq (fragments_closeFragment _ _).symm⟩

theorem strgBasketWriteStart_keeps (b : Basket) (chn : Int32) (recordType : RecordType) :
    b.Keeps (strgBasketWriteStart b chn recordType).2 := by
  rcases strgBasketWriteStart_cases b chn recordType with ⟨_, hbfi, hbgi⟩ | ⟨bf, _, _, heq⟩
  · refine ⟨by rw [hbfi], ?_⟩
    rcases hbgi with hbgi | hbgi
    · rw [hbgi]
      exact .refl _
    · rw [hbgi]
      exact ⟨rfl, rfl, rfl, rfl,
        by simp [BasketGlobal.addFragment, BasketGlobal.dropFragment], List.prefix_refl _⟩
  · rw [heq]
    exact ⟨rfl, rfl, rfl, rfl, rfl,
      by simp [BasketGlobalInfo.addFragment, BasketGlobal.addFragment],
      by simp [BasketGlobalInfo.fragments, BasketGlobalInfo.addFragment]⟩

theorem strgBasketWrite_keeps (b : Basket) (minutes : Int32) (curTime : UInt64) (f : Frame) :
    b.Keeps (strgBasketWrite b minutes curTime f).2 := by
  rcases strgBasketWrite_cases b minutes curTime f with ⟨_, hbgi, hbfi⟩ | ⟨i, _, heq⟩
  · refine ⟨?_, ?_⟩
    · rcases hbfi with hbfi | hbfi <;> simp [hbfi]
    · rcases hbgi with hbgi | hbgi
      · rw [hbgi]
        exact .refl _
      · rw [hbgi]
        exact b.bgi.keeps_setFull
  · rw [heq]
    exact ⟨by simp, rfl, rfl, rfl, rfl, rfl,
      prefix_of_eq (fragments_takeFrame ..).symm⟩

theorem strgBasketWriteStop_keeps (b : Basket) : b.Keeps (strgBasketWriteStop b) := by
  unfold strgBasketWriteStop
  split
  · exact ⟨rfl, .refl _⟩
  · exact ⟨rfl, b.bgi.keeps_closeFragment _⟩

end Nvr.Storage
