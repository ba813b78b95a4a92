import Nvr.Lib.Run
import Nvr.Proofs.Ranges
import Nvr.Proofs.RoundTrip
import Nvr.Storage.BasketSeek

/-!
# A session inside its range

A session is opened on a stretch of a fragment. The cursor divides the frames of
the stretch in those before it and those behind it, and its slot is that of the
last I-frame before it or the next one. Each call keeps this as long as the slot
it goes to is one of the stretch; the calls compare that slot with other bounds.
-/

namespace Nvr.Storage

open ByteFile

/-- What a session was opened on: the frames `frames` of the fragment `bf`, which
has `before` and `after` around them. -/
structure Opened where
  bf : BasketFragment
  before : List StoredFrame
  frames : List StoredFrame
  after : List StoredFrame
  bri : BasketReadInfo

namespace Opened

variable (o : Opened)

/-- All the frames of the fragment. -/
def all : List StoredFrame := o.before ++ o.frames ++ o.after

/-- Where the stretch begins in the file. -/
def start : Nat := startPos o.bf o.before

/-- The records of the stretch. -/
def records : List BasketIFrame := recordsOf o.start o.frames

/-- A slot of the stretch, as the session has it. -/
def InRange (slot : Int32) : Prop :=
  o.bri.beginIframeIdx.toInt ≤ slot.toInt ∧
    slot.toInt < o.bri.beginIframeIdx.toInt + o.bri.iframeNum.toInt

/-- What makes it a session on that stretch. -/
structure Valid : Prop where
  inFile : InFile o.bf
  sound : ∀ s ∈ o.frames, s.Sound
  slots : o.before.countP StoredFrame.isIframe + o.frames.countP StoredFrame.isIframe ≤ o.bf.slots
  nonempty : 0 < o.frames.countP StoredFrame.isIframe
  fits : o.start + (streamBytes o.frames).length ≤ basketSize
  first : o.bri.beginIframeIdx.toInt = o.bf.slot + o.before.countP StoredFrame.isIframe
  num : o.bri.iframeNum.toInt = o.frames.countP StoredFrame.isIframe
  beginPos : o.bri.beginPos.toInt = o.start
  size : o.bri.fragmentSize.toInt = (streamBytes o.frames).length

/-- The disk and the basket as a call finds them: the fragment is still there. -/
structure Finds (dev : Dev) (bgi : BasketGlobalInfo) : Prop where
  recorded : Recorded (dev.file (.basket bgi.basketIdx)) o.bf o.all
  first : (bgi.bfList.getD o.bri.bf default).firstIframeIdx = o.bf.firstIframeIdx

end Opened

/-- The cursor of a session, with the frames before it and those behind it. -/
structure Cursor (o : Opened) (bri : BasketReadInfo) (done left : List StoredFrame) : Prop where
  split : o.frames = done ++ left
  readPos : bri.readPos.toInt = o.start + (streamBytes done).length
  low : bri.beginIframeIdx.toInt ≤ bri.iframeIdx.toInt ∧
    bri.beginIframeIdx.toInt + done.countP StoredFrame.isIframe ≤ bri.iframeIdx.toInt + 1
  high : bri.iframeIdx.toInt ≤ bri.beginIframeIdx.toInt + done.countP StoredFrame.isIframe
  bf : bri.bf = o.bri.bf
  beginIframeIdx : bri.beginIframeIdx = o.bri.beginIframeIdx
  iframeNum : bri.iframeNum = o.bri.iframeNum
  beginPos : bri.beginPos = o.bri.beginPos
  fragmentSize : bri.fragmentSize = o.bri.fragmentSize

/-- A cursor somewhere in the stretch. -/
def Inside (o : Opened) (bri : BasketReadInfo) : Prop := ∃ done left, Cursor o bri done left

section Reading

variable {o : Opened} {dev : Dev} {bgi : BasketGlobalInfo} {bri : BasketReadInfo}

theorem Opened.Valid.range_lt (hv : o.Valid) :
    0 ≤ o.bri.beginIframeIdx.toInt ∧
      o.bri.beginIframeIdx.toInt + o.bri.iframeNum.toInt ≤ basketIframeNum := by
  have h0 := hv.inFile.slot_nonneg
  have hle := hv.inFile.slots_le
  have hslots := hv.slots
  have hfirst := hv.first
  have hnum := hv.num
  omega

/-- A record of the stretch is one of the fragment. -/
theorem Opened.recordsOf_all {j : Nat} {r : BasketIFrame} (hr : o.records[j]? = some r) :
    (recordsOf o.bf.pos o.all)[o.before.countP StoredFrame.isIframe + j]? = some r := by
  obtain ⟨hlt, -⟩ := List.getElem?_eq_some_iff.1 hr
  unfold Opened.all
  rw [recordsOf_append, recordsOf_append, List.getElem?_append_left,
    List.getElem?_append_right (by rw [length_recordsOf]; omega), length_recordsOf,
    Nat.add_sub_cancel_left]
  · exact hr
  · unfold Opened.records at hlt
    rw [length_recordsOf] at hlt
    rw [List.length_append, length_recordsOf, length_recordsOf]
    omega

/-- Reading a record of the stretch. -/
theorem read_inRange (hv : o.Valid) (hf : o.Finds dev bgi) {slot : Int32}
    (hslot : o.InRange slot) :
    ∃ j r, slot.toInt = o.bri.beginIframeIdx.toInt + (j : Nat) ∧ o.records[j]? = some r ∧
      (strgBasketReadIframe dev bgi.basketIdx slot = none ∨
        strgBasketReadIframe dev bgi.basketIdx slot = some r) := by
  obtain ⟨hlow, hhigh⟩ := hslot
  obtain ⟨h0, hmax⟩ := hv.range_lt
  have hlen : (slot.toInt - o.bri.beginIframeIdx.toInt).toNat < o.records.length := by
    have hnum := hv.num
    unfold Opened.records
    rw [length_recordsOf]
    omega
  obtain ⟨r, hr⟩ : ∃ r, o.records[(slot.toInt - o.bri.beginIframeIdx.toInt).toNat]? = some r :=
    ⟨_, List.getElem?_eq_getElem hlen⟩
  have hall := o.recordsOf_all hr
  refine ⟨_, _, by omega, hr, strgBasketReadIframe_cases (recordsOf_magic hall) (by omega)
    (by omega) ?_⟩
  have hholds := hf.recorded.holds_record hv.inFile hall
  have hfirst := hv.first
  have heq : slot.toInt = o.bf.slot + ((o.before.countP StoredFrame.isIframe +
      (slot.toInt - o.bri.beginIframeIdx.toInt).toNat : Nat) : Int) := by
    push_cast
    omega
  rw [heq]
  exact hholds

/-- The place in the stretch of one of its records. -/
theorem Opened.Valid.record_place (hv : o.Valid) {j : Nat} {r : BasketIFrame}
    (hr : o.records[j]? = some r) :
    ∃ done s left, o.frames = done ++ s :: left ∧ s.isIframe = true ∧
      done.countP StoredFrame.isIframe = j ∧ r.framePos.toNat = o.start + (streamBytes done).length ∧
      r.framePos.toInt32.toInt = o.start + (streamBytes done).length := by
  obtain ⟨done, s, left, hframes, hs, hcount, rfl⟩ := exists_of_recordsOf hr
  have hfits := hv.fits
  have hsize : basketSize = 2 ^ 30 := rfl
  rw [hframes, streamBytes_append, List.length_append] at hfits
  have hword : (s.record (o.start + (streamBytes done).length)).framePos.toNat =
      o.start + (streamBytes done).length := by
    show (UInt32.ofNat _).toNat = _
    rw [UInt32.toNat_ofNat']
    omega
  refine ⟨done, s, left, hframes, hs, hcount, hword, ?_⟩
  rw [UInt32.toInt_toInt32_of_lt (by omega), hword]
  push_cast
  rfl

/-- The cursor goes to a record of the stretch. -/
theorem Cursor.moveTo (hv : o.Valid) {done left : List StoredFrame} (hc : Cursor o bri done left)
    {slot : Int32} {j : Nat} {r : BasketIFrame}
    (hslot : slot.toInt = o.bri.beginIframeIdx.toInt + (j : Nat)) (hr : o.records[j]? = some r) :
    Inside o (bri.moveTo slot r) := by
  obtain ⟨done', s, left', hframes, hs, hcount, -, hpos⟩ := hv.record_place hr
  have hbegin := hc.beginIframeIdx
  refine ⟨done', s :: left', hframes, hpos, ?_, ?_, hc.bf, hc.beginIframeIdx, hc.iframeNum,
    hc.beginPos, hc.fragmentSize⟩
  · show bri.beginIframeIdx.toInt ≤ slot.toInt ∧ bri.beginIframeIdx.toInt + _ ≤ slot.toInt + 1
    rw [hbegin, hcount]
    omega
  · show slot.toInt ≤ bri.beginIframeIdx.toInt + _
    rw [hbegin, hcount]
    omega

/-- The bytes of a frame of the stretch. -/
theorem Opened.Finds.frame (hv : o.Valid) (hf : o.Finds dev bgi) {done left : List StoredFrame}
    {s : StoredFrame} (hframes : o.frames = done ++ s :: left) :
    Holds (dev.file (.basket bgi.basketIdx)) (o.start + (streamBytes done).length) s.bytes ∧
      o.start + (streamBytes done).length + s.bytes.length + (streamBytes left).length ≤
        basketSize := by
  have hrec : Recorded (dev.file (.basket bgi.basketIdx)) o.bf (o.before ++ o.frames ++ o.after) :=
    hf.recorded
  have hholds := hrec.frames_at
  have hfits := hv.fits
  rw [hframes, streamBytes_append, streamBytes_cons] at hholds hfits
  rw [holds_append, holds_append] at hholds
  rw [List.length_append, List.length_append] at hfits
  exact ⟨hholds.2.1, by omega⟩

/-! ## In stored order -/

/-- A position in the stretch. -/
def Opened.Holds (o : Opened) (p : Int) : Prop :=
  o.bri.beginPos.toInt ≤ p ∧ p < o.bri.beginPos.toInt + o.bri.fragmentSize.toInt

theorem toInt_frameLen (s : StoredFrame) (h : s.bytes.length ≤ basketSize) :
    (UInt32.ofNat basketFrameLen + UInt32.ofNat s.data.length).toNat = s.bytes.length ∧
      (UInt32.ofNat basketFrameLen + UInt32.ofNat s.data.length).toInt32.toInt = s.bytes.length := by
  have hsize : basketSize = 2 ^ 30 := rfl
  have hlen : basketFrameLen = 68 := rfl
  rw [s.length_bytes] at h ⊢
  have hword : (UInt32.ofNat basketFrameLen + UInt32.ofNat s.data.length).toNat =
      basketFrameLen + s.data.length := by
    rw [UInt32.toNat_add, UInt32.toNat_ofNat', UInt32.toNat_ofNat']
    omega
  refine ⟨hword, ?_⟩
  rw [UInt32.toInt_toInt32_of_lt (by omega), hword]

theorem countP_singleton (s : StoredFrame) :
    [s].countP StoredFrame.isIframe = if s.isIframe = true then 1 else 0 := by
  rw [List.countP_cons, List.countP_nil]
  simp

/-- The cursor passes the next frame, which starts in the stretch. -/
theorem Cursor.pastFrame (hv : o.Valid) {done left : List StoredFrame} {s : StoredFrame}
    (hc : Cursor o bri done (s :: left)) :
    Cursor o (bri.pastFrame s.header s.data) (done ++ [s]) left ∧
      o.Holds (frameStart (bri.pastFrame s.header s.data) s.data) := by
  have hfits := hv.fits
  have hsize : basketSize = 2 ^ 30 := rfl
  have hframes := hc.split
  rw [hframes, streamBytes_append, streamBytes_cons, List.length_append,
    List.length_append] at hfits
  obtain ⟨-, hlen⟩ := toInt_frameLen s (by omega)
  have hpos := hc.readPos
  have hnext : (bri.pastFrame s.header s.data).readPos.toInt =
      o.start + (streamBytes done).length + s.bytes.length := by
    show (bri.readPos + _).toInt = _
    rw [Int32.toInt_add_of_range (by omega) (by omega), hlen, hpos]
  have hrange := hv.range_lt
  rw [basketIframeNum_eq] at hrange
  have hnum := hv.num
  rw [hframes, List.countP_append] at hnum
  have hbegin := hc.beginIframeIdx
  have hlow := hc.low
  have hhigh := hc.high
  rw [hbegin] at hlow hhigh
  have hidx : (bri.pastFrame s.header s.data).iframeIdx.toInt =
      bri.iframeIdx.toInt + ([s].countP StoredFrame.isIframe : Nat) := by
    rw [countP_singleton]
    by_cases hs : s.isIframe = true
    · have hone : (1 : Int32).toInt = 1 := rfl
      have hsome : s.header.frameType = FrameType.i.code := by
        simpa [StoredFrame.isIframe] using hs
      have heq : (bri.pastFrame s.header s.data).iframeIdx = bri.iframeIdx + 1 := if_pos hsome
      rw [List.countP_cons_of_pos hs] at hnum
      rw [heq, if_pos hs, Int32.toInt_add_of_range (by omega) (by omega), hone]
      rfl
    · have hnone : ¬s.header.frameType = FrameType.i.code := by
        simpa [StoredFrame.isIframe] using hs
      have heq : (bri.pastFrame s.header s.data).iframeIdx = bri.iframeIdx := if_neg hnone
      rw [heq, if_neg hs]
      simp
  constructor
  · refine ⟨by rw [hframes, List.append_assoc]; rfl, ?_, ?_, ?_, hc.bf, hc.beginIframeIdx,
      hc.iframeNum, hc.beginPos, hc.fragmentSize⟩
    · rw [hnext, streamBytes_append, List.length_append]
      simp [streamBytes]
      omega
    · show bri.beginIframeIdx.toInt ≤ _ ∧ bri.beginIframeIdx.toInt + _ ≤ _
      rw [hbegin, List.countP_append]
      push_cast
      omega
    · show _ ≤ bri.beginIframeIdx.toInt + _
      rw [hbegin, List.countP_append]
      push_cast
      omega
  · have hbytes := s.length_bytes
    have hlen68 : basketFrameLen = 68 := rfl
    have hbeginPos := hv.beginPos
    have hfragment := hv.size
    rw [hframes, streamBytes_append, streamBytes_cons, List.length_append,
      List.length_append] at hfragment
    unfold Opened.Holds frameStart
    omega

theorem readForward_inside (hv : o.Valid) (hf : o.Finds dev bgi) (cmd : StorageReadCmd)
    (buffLen : Int32) : ∀ (rounds : Nat) {bri : BasketReadInfo}, Inside o bri →
      Inside o (readForward dev bgi.basketIdx cmd buffLen rounds bri).2 ∧
        ∀ ts data, (readForward dev bgi.basketIdx cmd buffLen rounds bri).1 = .frame ts data →
          o.Holds (frameStart (readForward dev bgi.basketIdx cmd buffLen rounds bri).2 data) := by
  intro rounds
  induction rounds with
  | zero => exact fun hin => ⟨hin, fun ts data h => (by cases h)⟩
  | succ rounds ih =>
      intro bri hin
      have hkeep := hin
      obtain ⟨done, left, hc⟩ := hin
      unfold readForward
      split
      · exact ⟨hkeep, fun ts data h => (by cases h)⟩
      · rename_i hmore
        cases left with
        | nil =>
            exfalso
            refine hmore (Int32.le_iff_toInt_le.2 ?_)
            have hsplit := hc.split
            rw [List.append_nil] at hsplit
            have hfits := hv.fits
            have hsize : basketSize = 2 ^ 30 := rfl
            have hbeginPos := hv.beginPos
            have hfragment := hv.size
            have hpos := hc.readPos
            rw [hc.beginPos, hc.fragmentSize, Int32.toInt_add_of_range (by omega) (by omega), hpos,
              ← hsplit]
            omega
        | cons s left =>
            obtain ⟨hholds, hle⟩ := hf.frame hv hc.split
            have hpos := hc.readPos
            have hsize : basketSize = 2 ^ 30 := rfl
            have hword : bri.readPos.toUInt32.toNat = o.start + (streamBytes done).length := by
              rw [Int32.toNat_toUInt32_of_nonneg (by omega)]
              omega
            have hsound := hv.sound s (by rw [hc.split]; simp)
            rw [← hword] at hholds hle
            have hread : strgBasketReadFrame dev bgi.basketIdx bri.readPos.toUInt32
                  (buffLen - storageFrameHdrLen) = none ∨
                strgBasketReadFrame dev bgi.basketIdx bri.readPos.toUInt32
                  (buffLen - storageFrameHdrLen) = some (s.header, s.data) :=
              strgBasketReadFrame_cases hsound (by omega) hholds
            rcases hread with hread | hread
            · rw [hread]
              exact ⟨hkeep, fun ts data h => (by cases h)⟩
            · rw [hread]
              obtain ⟨hpast, hstart⟩ := hc.pastFrame hv
              dsimp only
              split
              · refine ⟨⟨_, _, hpast⟩, fun ts data h => ?_⟩
                injection h with _ hdata
                rw [← hdata]
                exact hstart
              · exact ih ⟨_, _, hpast⟩

/-! ## Along the index -/

theorem Cursor.bounds (hv : o.Valid) {done left : List StoredFrame} (hc : Cursor o bri done left) :
    (bri.beginIframeIdx + bri.iframeNum).toInt =
        o.bri.beginIframeIdx.toInt + o.bri.iframeNum.toInt ∧
      o.bri.beginIframeIdx.toInt ≤ bri.iframeIdx.toInt ∧
      bri.iframeIdx.toInt ≤ o.bri.beginIframeIdx.toInt + o.bri.iframeNum.toInt := by
  have hrange := hv.range_lt
  rw [basketIframeNum_eq] at hrange
  have hnum := hv.num
  have hnonempty := hv.nonempty
  have hlow := hc.low.1
  have hhigh := hc.high
  rw [hc.split, List.countP_append] at hnum
  rw [hc.beginIframeIdx] at hlow hhigh
  rw [hc.beginIframeIdx, hc.iframeNum, Int32.toInt_add_of_range (by omega) (by omega)]
  omega

/-- The cursor passes the frame of a record of the stretch. -/
theorem Cursor.pastRecord (hv : o.Valid) {done left : List StoredFrame}
    (hc : Cursor o bri done left) {oft : Int32} {j : Nat} {r : BasketIFrame}
    (hslot : (bri.iframeIdx + oft).toInt = o.bri.beginIframeIdx.toInt + (j : Nat))
    {done' left' : List StoredFrame} {s : StoredFrame} (hframes : o.frames = done' ++ s :: left') (hs : s.isIframe = true)
    (hcount : done'.countP StoredFrame.isIframe = j)
    (hword : r.framePos.toNat = o.start + (streamBytes done').length) :
    Inside o (bri.pastRecord oft r s.data) ∧
      o.Holds (frameStart (bri.pastRecord oft r s.data) s.data) := by
  have hfits := hv.fits
  have hsize : basketSize = 2 ^ 30 := rfl
  rw [hframes, streamBytes_append, streamBytes_cons, List.length_append,
    List.length_append] at hfits
  obtain ⟨hlen, -⟩ := toInt_frameLen s (by omega)
  have hnext : (bri.pastRecord oft r s.data).readPos.toInt =
      o.start + (streamBytes done').length + s.bytes.length := by
    have hsum : (r.framePos + (UInt32.ofNat basketFrameLen + UInt32.ofNat s.data.length)).toNat =
        o.start + (streamBytes done').length + s.bytes.length := by
      rw [UInt32.toNat_add_of_lt' (by omega), hword, hlen]
    show (r.framePos + _).toInt32.toInt = _
    rw [UInt32.toInt_toInt32_of_lt (by omega), hsum]
    push_cast
    rfl
  have hbegin := hc.beginIframeIdx
  constructor
  · refine ⟨done' ++ [s], left', by rw [hframes, List.append_assoc]; rfl, ?_, ?_, ?_, hc.bf,
      hc.beginIframeIdx, hc.iframeNum, hc.beginPos, hc.fragmentSize⟩
    · rw [hnext, streamBytes_append, List.length_append]
      simp [streamBytes]
      omega
    · show bri.beginIframeIdx.toInt ≤ (bri.iframeIdx + oft).toInt ∧
        bri.beginIframeIdx.toInt + _ ≤ (bri.iframeIdx + oft).toInt + 1
      rw [hbegin, List.countP_append, hcount, List.countP_cons_of_pos hs, List.countP_nil]
      push_cast
      omega
    · show (bri.iframeIdx + oft).toInt ≤ bri.beginIframeIdx.toInt + _
      rw [hbegin, List.countP_append, hcount, List.countP_cons_of_pos hs, List.countP_nil]
      push_cast
      omega
  · have hbytes := s.length_bytes
    have hlen68 : basketFrameLen = 68 := rfl
    have hbeginPos := hv.beginPos
    have hfragment := hv.size
    rw [hframes, streamBytes_append, streamBytes_cons, List.length_append,
      List.length_append] at hfragment
    unfold Opened.Holds frameStart
    omega

/-- A command along the index that does not go back behind the stretch. -/
theorem readAlongIndex_inside (hv : o.Valid) (hf : o.Finds dev bgi) (hin : Inside o bri)
    {oft : Int32} (buffLen : Int32) (hback : bri.iframeIdx + oft < 0 ∨
      bri.beginIframeIdx ≤ bri.iframeIdx + oft ∨
      o.bf.firstIframeIdx + bri.iframeNum ≤ bri.iframeIdx + oft) :
    Inside o (readAlongIndex dev bgi bri oft buffLen).2 ∧
      ∀ ts data, (readAlongIndex dev bgi bri oft buffLen).1 = .frame ts data →
        o.Holds (frameStart (readAlongIndex dev bgi bri oft buffLen).2 data) ∧
          o.InRange (readAlongIndex dev bgi bri oft buffLen).2.iframeIdx := by
  have hkeep := hin
  obtain ⟨done, left, hc⟩ := hin
  unfold readAlongIndex
  dsimp only
  split
  · exact ⟨hkeep, fun ts data h => (by cases h)⟩
  rename_i hinside
  rw [hc.bf, hf.first, not_or, Int32.lt_iff_toInt_lt, ge_iff_le, Int32.le_iff_toInt_le] at hinside
  rw [hc.beginIframeIdx, Int32.lt_iff_toInt_lt, Int32.le_iff_toInt_le,
    Int32.le_iff_toInt_le] at hback
  have hzero : (0 : Int32).toInt = 0 := rfl
  have hrange := hv.range_lt
  rw [basketIframeNum_eq] at hrange
  have hslot0 := hv.inFile.slot_nonneg
  have hfirst : o.bf.firstIframeIdx.toInt = o.bf.slot := rfl
  have hbeginIdx := hv.first
  have hnum := hv.num
  have hslot : o.InRange (bri.iframeIdx + oft) := by
    have hend : (o.bf.firstIframeIdx + o.bri.iframeNum).toInt =
        o.bf.slot + o.bri.iframeNum.toInt :=
      Int32.toInt_add_of_range (by omega) (by omega)
    rw [hc.iframeNum, hend, hzero] at hinside
    rw [hc.iframeNum, hend, hzero] at hback
    unfold Opened.InRange
    omega
  obtain ⟨j, r, hj, hr, hread⟩ := read_inRange hv hf hslot
  rcases hread with hread | hread
  · rw [hread]
    exact ⟨hkeep, fun ts data h => (by cases h)⟩
  rw [hread]
  obtain ⟨done', s, left', hframes, hs, hcount, hword, -⟩ := hv.record_place hr
  obtain ⟨hholds, hle⟩ := hf.frame hv hframes
  have hsound := hv.sound s (by rw [hframes]; simp)
  rw [← hword] at hholds hle
  have hframe : strgBasketReadFrame dev bgi.basketIdx r.framePos
        (buffLen - storageFrameHdrLen) = none ∨
      strgBasketReadFrame dev bgi.basketIdx r.framePos
        (buffLen - storageFrameHdrLen) = some (s.header, s.data) :=
    strgBasketReadFrame_cases hsound (by omega) hholds
  rcases hframe with hframe | hframe
  · simp only [hframe]
    exact ⟨hkeep, fun ts data h => (by cases h)⟩
  · simp only [hframe]
    obtain ⟨hpast, hstart⟩ := hc.pastRecord hv hj hframes hs hcount hword
    refine ⟨hpast, fun ts data h => ?_⟩
    injection h with _ hdata
    rw [← hdata]
    exact ⟨hstart, hslot⟩

/-- `strg_basket_read`. -/
theorem strgBasketRead_inside (hv : o.Valid) (hf : o.Finds dev bgi) (hin : Inside o bri)
    {cmd : StorageReadCmd} (buffLen : Int32)
    (hback : bri.readCnt = 0 ∨ ∀ oft ∈ cmd.iframeOft, bri.iframeIdx + oft < 0 ∨
      bri.beginIframeIdx ≤ bri.iframeIdx + oft ∨
      o.bf.firstIframeIdx + bri.iframeNum ≤ bri.iframeIdx + oft) :
    Inside o (strgBasketRead dev bgi bri cmd buffLen).2 ∧
      ∀ ts data, (strgBasketRead dev bgi bri cmd buffLen).1 = .frame ts data →
        o.Holds (frameStart (strgBasketRead dev bgi bri cmd buffLen).2 data) ∧
          (cmd.iframeOft.isSome →
            o.InRange (strgBasketRead dev bgi bri cmd buffLen).2.iframeIdx) := by
  have hbegin : bri.beginIframeIdx ≤ bri.iframeIdx + 0 := by
    obtain ⟨done, left, hc⟩ := hin
    have hlow := hc.low.1
    rw [Int32.add_zero]
    exact Int32.le_iff_toInt_le.2 hlow
  have hfail : Inside o (ReadResult.error, bri).2 ∧
      ∀ ts data, (ReadResult.error, bri).1 = .frame ts data →
        o.Holds (frameStart (ReadResult.error, bri).2 data) ∧
          (cmd.iframeOft.isSome → o.InRange (ReadResult.error, bri).2.iframeIdx) :=
    ⟨hin, fun ts data h => (by cases h)⟩
  -- the commands in stored order have no offset, the others all have one
  have horder : ∀ cmd', cmd.iframeOft = none →
      Inside o (readForward dev bgi.basketIdx cmd' buffLen readRounds bri).2 ∧
        ∀ ts data, (readForward dev bgi.basketIdx cmd' buffLen readRounds bri).1 = .frame ts data →
          o.Holds (frameStart (readForward dev bgi.basketIdx cmd' buffLen readRounds bri).2 data) ∧
            (cmd.iframeOft.isSome →
              o.InRange (readForward dev bgi.basketIdx cmd' buffLen readRounds bri).2.iframeIdx) := by
    intro cmd' hnone
    obtain ⟨hkeep, hstart⟩ := readForward_inside hv hf cmd' buffLen readRounds hin
    refine ⟨hkeep, fun ts data h => ⟨hstart ts data h, fun hsome => ?_⟩⟩
    rw [hnone] at hsome
    cases hsome
  unfold strgBasketRead
  split
  · split
    · exact horder _ rfl
    · exact horder _ rfl
    · dsimp only
      split
      · exact hfail
      · exact horder _ rfl
    · split
      · obtain ⟨hkeep, hstart⟩ := readAlongIndex_inside hv hf hin buffLen
          (.inr (.inl hbegin))
        exact ⟨hkeep, fun ts data h => ⟨(hstart ts data h).1, fun _ => (hstart ts data h).2⟩⟩
      · rename_i hcnt
        split
        · exact hfail
        · rename_i oft hoft
          obtain ⟨hkeep, hstart⟩ := readAlongIndex_inside hv hf hin buffLen
            (hback.resolve_left hcnt oft hoft)
          exact ⟨hkeep, fun ts data h => ⟨(hstart ts data h).1, fun _ => (hstart ts data h).2⟩⟩
  · exact hfail

/-! ## Seeking -/

/-- A call that moves the cursor stays in the stretch. -/
def StaysInside (o : Opened) (moved : Moved) : Prop :=
  Inside o moved.2 ∧ (moved.1 = true → o.InRange moved.2.iframeIdx)

theorem Inside.stays_fail (hin : Inside o bri) : StaysInside o (false, bri) :=
  ⟨hin, fun h => (by cases h)⟩

theorem Inside.stays_moveTo (hv : o.Valid) (hin : Inside o bri) {slot : Int32} {j : Nat}
    {r : BasketIFrame} (hslot : slot.toInt = o.bri.beginIframeIdx.toInt + (j : Nat))
    (hr : o.records[j]? = some r) : StaysInside o (true, bri.moveTo slot r) := by
  obtain ⟨done, left, hc⟩ := hin
  refine ⟨hc.moveTo hv hslot hr, fun _ => ?_⟩
  obtain ⟨hlt, -⟩ := List.getElem?_eq_some_iff.1 hr
  unfold Opened.records at hlt
  rw [length_recordsOf] at hlt
  have hnum := hv.num
  show o.InRange slot
  unfold Opened.InRange
  omega

theorem moveToSlot_stays (hv : o.Valid) (hf : o.Finds dev bgi) (hin : Inside o bri)
    {slot : Int32} (hslot : o.InRange slot) :
    StaysInside o (moveToSlot dev bgi.basketIdx bri slot) := by
  obtain ⟨j, r, hj, hr, hread⟩ := read_inRange hv hf hslot
  unfold moveToSlot
  rcases hread with hread | hread
  · rw [hread]
    exact hin.stays_fail
  · rw [hread]
    exact hin.stays_moveTo hv hj hr

/-- `strg_basket_read_seek`. -/
theorem strgBasketReadSeek_stays (hv : o.Valid) (hf : o.Finds dev bgi) (hin : Inside o bri)
    {off : Int32} (hoff : bri.iframeIdx = bri.beginIframeIdx ∨
      bri.iframeIdx + off < bri.beginIframeIdx + bri.iframeNum) :
    StaysInside o (strgBasketReadSeek dev bgi bri off) := by
  obtain ⟨done, left, hc⟩ := id hin
  obtain ⟨hend, hlow, hhigh⟩ := hc.bounds hv
  have hrange := hv.range_lt
  rw [basketIframeNum_eq] at hrange
  have hnum := hv.num
  have hpositive := hv.nonempty
  have hbegin := hc.beginIframeIdx
  have hone : (1 : Int32).toInt = 1 := rfl
  have hsum : (bri.iframeIdx + bri.iframeNum).toInt =
      bri.iframeIdx.toInt + o.bri.iframeNum.toInt := by
    rw [hc.iframeNum]
    exact Int32.toInt_add_of_range (by omega) (by omega)
  refine moveToSlot_stays hv hf hin ?_
  unfold seekIdx Opened.InRange
  rw [Int32.lt_iff_toInt_lt, hend] at hoff
  split
  · rename_i hpast
    rw [ge_iff_le, Int32.le_iff_toInt_le, hsum] at hpast
    rw [Int32.toInt_sub_of_range (by omega) (by omega), hsum, hone]
    rcases hoff with hat | hoff
    · rw [hat, hbegin]
      omega
    · omega
  · rename_i hbefore
    rw [ge_iff_le, Int32.le_iff_toInt_le, hsum] at hbefore
    split
    · rw [hbegin]
      omega
    · rename_i hnot
      rw [Int32.lt_iff_toInt_lt, hbegin] at hnot
      rcases hoff with hat | hoff
      · rw [hat, hbegin] at hbefore ⊢
        rw [hat, hbegin] at hnot
        omega
      · omega

/-! ## Going to a time -/

theorem setForward_stays (hv : o.Valid) (hf : o.Finds dev bgi) (hin : Inside o bri) (t : Int32) :
    ∀ (rounds : Nat) {idx : Int32} {j : Nat} {r₁ : BasketIFrame},
      idx.toInt = o.bri.beginIframeIdx.toInt + (j : Nat) + 1 → o.records[j]? = some r₁ →
      StaysInside o (setForward dev bgi.basketIdx bri t rounds idx r₁) := by
  obtain ⟨done, left, hc⟩ := id hin
  obtain ⟨hend, -, -⟩ := hc.bounds hv
  have hrange := hv.range_lt
  rw [basketIframeNum_eq] at hrange
  have hnum := hv.num
  have hone : (1 : Int32).toInt = 1 := rfl
  intro rounds
  induction rounds with
  | zero => exact fun _ _ => hin.stays_fail
  | succ rounds ih =>
      intro idx j r₁ hidx hr₁
      obtain ⟨hlt, -⟩ := List.getElem?_eq_some_iff.1 hr₁
      unfold Opened.records at hlt
      rw [length_recordsOf] at hlt
      unfold setForward
      split
      · rename_i hmore
        rw [Int32.lt_iff_toInt_lt, hend] at hmore
        have hslot : o.InRange idx := ⟨by omega, hmore⟩
        obtain ⟨k, r₂, hk, hr₂, hread⟩ := read_inRange hv hf hslot
        rcases hread with hread | hread
        · rw [hread]
          exact hin.stays_fail
        rw [hread]
        dsimp only
        split
        · refine hin.stays_moveTo hv ?_ hr₁
          rw [Int32.toInt_sub_of_range (by omega) (by omega), hone]
          omega
        · split
          · exact hin.stays_moveTo hv hk hr₂
          · refine ih ?_ hr₂
            rw [Int32.toInt_add_of_range (by omega) (by omega), hone]
            omega
      · rename_i hdone
        rw [Int32.lt_iff_toInt_lt, hend] at hdone
        have hlast : idx = bri.beginIframeIdx + bri.iframeNum :=
          Int32.toInt_inj.1 (by rw [hend]; omega)
        rw [if_pos hlast]
        refine hin.stays_moveTo hv ?_ hr₁
        rw [Int32.toInt_sub_of_range (by omega) (by omega), hone, hend]
        omega

theorem setBack_stays (hv : o.Valid) (hf : o.Finds dev bgi) (hin : Inside o bri) (t : Int32) :
    ∀ (rounds : Nat) {idx : Int32} {j : Nat} {r₁ : BasketIFrame},
      idx.toInt = o.bri.beginIframeIdx.toInt + (j : Nat) - 1 → o.records[j]? = some r₁ →
      StaysInside o (setBack dev bgi.basketIdx bri t rounds idx r₁) := by
  obtain ⟨done, left, hc⟩ := id hin
  have hbegin := hc.beginIframeIdx
  have hrange := hv.range_lt
  rw [basketIframeNum_eq] at hrange
  have hnum := hv.num
  have hone : (1 : Int32).toInt = 1 := rfl
  intro rounds
  induction rounds with
  | zero => exact fun _ _ => hin.stays_fail
  | succ rounds ih =>
      intro idx j r₁ hidx hr₁
      obtain ⟨hlt, -⟩ := List.getElem?_eq_some_iff.1 hr₁
      unfold Opened.records at hlt
      rw [length_recordsOf] at hlt
      unfold setBack
      split
      · rename_i hmore
        rw [ge_iff_le, Int32.le_iff_toInt_le, hbegin] at hmore
        have hslot : o.InRange idx := ⟨hmore, by omega⟩
        obtain ⟨k, r₂, hk, hr₂, hread⟩ := read_inRange hv hf hslot
        rcases hread with hread | hread
        · rw [hread]
          exact hin.stays_fail
        rw [hread]
        dsimp only
        split
        · exact hin.stays_moveTo hv hk hr₂
        · refine ih ?_ hr₂
          rw [Int32.toInt_sub_of_range (by omega) (by omega), hone]
          omega
      · rename_i hdone
        rw [ge_iff_le, Int32.le_iff_toInt_le, hbegin] at hdone
        have hfirst : idx = bri.beginIframeIdx - 1 := by
          refine Int32.toInt_inj.1 ?_
          rw [hbegin, Int32.toInt_sub_of_range (by omega) (by omega), hone]
          omega
        rw [if_pos hfirst]
        refine hin.stays_moveTo hv ?_ hr₁
        rw [hbegin]
        omega

theorem setFrom_stays (hv : o.Valid) (hf : o.Finds dev bgi) (hin : Inside o bri) (t : Int32)
    {slot : Int32} {j : Nat} {r : BasketIFrame}
    (hslot : slot.toInt = o.bri.beginIframeIdx.toInt + (j : Nat)) (hr : o.records[j]? = some r) :
    StaysInside o (setFrom dev bgi.basketIdx bri t slot r) := by
  obtain ⟨hlt, -⟩ := List.getElem?_eq_some_iff.1 hr
  unfold Opened.records at hlt
  rw [length_recordsOf] at hlt
  have hrange := hv.range_lt
  rw [basketIframeNum_eq] at hrange
  have hnum := hv.num
  have hone : (1 : Int32).toInt = 1 := rfl
  unfold setFrom
  split
  · exact hin.stays_moveTo hv hslot hr
  · split
    · refine setForward_stays hv hf hin t indexRounds ?_ hr
      rw [Int32.toInt_add_of_range (by omega) (by omega), hone, hslot]
    · refine setBack_stays hv hf hin t indexRounds ?_ hr
      rw [Int32.toInt_sub_of_range (by omega) (by omega), hone, hslot]

/-- The time of a record of the stretch. -/
def Opened.time (o : Opened) (j : Nat) : Int32 := (o.records.getD j default).ts.tvSec

theorem Opened.time_eq {j : Nat} {r : BasketIFrame} (hr : o.records[j]? = some r) :
    o.time j = r.ts.tvSec := by
  unfold Opened.time
  rw [List.getD_eq_getElem?_getD, hr]
  rfl

/-- The last record of the stretch. -/
def Opened.last (o : Opened) : Nat := o.records.length - 1

/-- The way of `t` into the stretch, in seconds, times the steps between its
records is an `int`. -/
def Opened.Scales (o : Opened) (t : Int32) : Prop :=
  o.time o.last - o.time 0 ≤ 0 ∨ o.time 0 ≤ o.time o.last ∧
    ((clampTime (o.time 0) (o.time o.last) t).toInt - (o.time 0).toInt) *
      (o.bri.iframeNum.toInt - 1) < 2 ^ 31

theorem clampTime_bounds {b e : Int32} (h : b ≤ e) (t : Int32) :
    b.toInt ≤ (clampTime b e t).toInt ∧ (clampTime b e t).toInt ≤ e.toInt := by
  rw [Int32.le_iff_toInt_le] at h
  unfold clampTime
  dsimp only
  split
  · split
    · omega
    · omega
  · rename_i hlow
    rw [Int32.lt_iff_toInt_lt] at hlow
    split
    · omega
    · rename_i hhigh
      rw [gt_iff_lt, Int32.lt_iff_toInt_lt] at hhigh
      omega

/-- A positive difference of times in order is not a wrapped one. -/
theorem toInt_sub_of_pos {b e : Int32} (h : b ≤ e) (hpos : e - b > 0) :
    (e - b).toInt = e.toInt - b.toInt := by
  have hzero : (0 : Int32).toInt = 0 := rfl
  have hb := b.le_toInt
  have he := e.toInt_lt
  rw [gt_iff_lt, Int32.lt_iff_toInt_lt, hzero, Int32.toInt_sub] at hpos
  rw [Int32.le_iff_toInt_le] at h
  rw [Int32.toInt_sub]
  unfold Int.bmod at hpos ⊢
  dsimp only at hpos ⊢
  split at hpos
  · rw [if_pos ‹_›]
    omega
  · omega

/-- Where the search for a time begins. -/
theorem setIdx_inRange (hv : o.Valid) (hin : Inside o bri) {t : Int32} (hscale : o.Scales t) :
    o.InRange (setIdx bri (o.time 0) (o.time o.last)
      (clampTime (o.time 0) (o.time o.last) t)) := by
  obtain ⟨done, left, hc⟩ := hin
  have hrange := hv.range_lt
  rw [basketIframeNum_eq] at hrange
  have hnum := hv.num
  have hpositive := hv.nonempty
  have hzero : (0 : Int32).toInt = 0 := rfl
  have hone : (1 : Int32).toInt = 1 := rfl
  unfold setIdx
  rw [hc.beginIframeIdx, hc.iframeNum]
  split
  · rename_i hpos
    rcases hscale with hle | ⟨hle, hprod⟩
    · exact absurd hpos (Int32.not_lt.2 hle)
    obtain ⟨hlow, hhigh⟩ := clampTime_bounds hle t
    have hsub := toInt_sub_of_pos hle hpos
    have hlt := (o.time o.last - o.time 0).toInt_lt
    rw [gt_iff_lt, Int32.lt_iff_toInt_lt, hsub, hzero] at hpos
    generalize clampTime (o.time 0) (o.time o.last) t = t' at *
    have hway : (t' - o.time 0).toInt = t'.toInt - (o.time 0).toInt :=
      Int32.toInt_sub_of_range (by omega) (by omega)
    have hsteps : (o.bri.iframeNum - 1).toInt = o.bri.iframeNum.toInt - 1 := by
      rw [Int32.toInt_sub_of_range (by omega) (by omega), hone]
    have hnonneg : 0 ≤ (t'.toInt - (o.time 0).toInt) * (o.bri.iframeNum.toInt - 1) :=
      Int.mul_nonneg (by omega) (by omega)
    have hmul : ((t' - o.time 0) * (o.bri.iframeNum - 1)).toInt =
        (t'.toInt - (o.time 0).toInt) * (o.bri.iframeNum.toInt - 1) := by
      rw [Int32.toInt_mul, hway, hsteps]
      exact Int.bmod_eq_of_le (by omega) (by omega)
    have hne : o.time o.last - o.time 0 ≠ -1 := by
      intro heq
      rw [heq] at hsub
      have hminus : (-1 : Int32).toInt = -1 := rfl
      omega
    have hdiv : ((t' - o.time 0) * (o.bri.iframeNum - 1) / (o.time o.last - o.time 0)).toInt =
        (t'.toInt - (o.time 0).toInt) * (o.bri.iframeNum.toInt - 1) /
          ((o.time o.last).toInt - (o.time 0).toInt) := by
      rw [Int32.toInt_div_of_ne_right _ _ hne, hmul, hsub, Int.tdiv_eq_ediv_of_nonneg hnonneg]
    have hdiv_nonneg := Int.ediv_nonneg hnonneg (Int.le_of_lt hpos)
    have hdiv_le : (t'.toInt - (o.time 0).toInt) * (o.bri.iframeNum.toInt - 1) /
        ((o.time o.last).toInt - (o.time 0).toInt) ≤ o.bri.iframeNum.toInt - 1 := by
      refine Int.ediv_le_of_le_mul hpos ?_
      rw [Int.mul_comm]
      exact Int.mul_le_mul_of_nonneg_left (by omega) (by omega)
    unfold Opened.InRange
    rw [Int32.toInt_add_of_range (by omega) (by omega), hdiv]
    omega
  · unfold Opened.InRange
    omega

/-- `strg_basket_read_set`. -/
theorem strgBasketReadSet_stays (hv : o.Valid) (hf : o.Finds dev bgi) (hin : Inside o bri)
    {t : Int32} (hscale : t ≤ (bgi.bfList.getD o.bri.bf default).beginTime ∨
      t ≥ (bgi.bfList.getD o.bri.bf default).endTime ∨ o.Scales t) :
    StaysInside o (strgBasketReadSet dev bgi bri t) := by
  obtain ⟨done, left, hc⟩ := id hin
  have hrange := hv.range_lt
  rw [basketIframeNum_eq] at hrange
  have hnum := hv.num
  have hpositive := hv.nonempty
  have hone : (1 : Int32).toInt = 1 := rfl
  have hlen : o.records.length = o.frames.countP StoredFrame.isIframe := length_recordsOf _ _
  have hend : (o.bri.beginIframeIdx + o.bri.iframeNum - 1).toInt =
      o.bri.beginIframeIdx.toInt + o.last := by
    have hsum : (o.bri.beginIframeIdx + o.bri.iframeNum).toInt =
        o.bri.beginIframeIdx.toInt + o.bri.iframeNum.toInt :=
      Int32.toInt_add_of_range (by omega) (by omega)
    rw [Int32.toInt_sub_of_range (by omega) (by omega), hsum, hone]
    unfold Opened.last
    omega
  have hlastIn : o.InRange (o.bri.beginIframeIdx + o.bri.iframeNum - 1) := by
    unfold Opened.InRange
    unfold Opened.last at hend
    omega
  have hfirstIn : o.InRange o.bri.beginIframeIdx := by
    unfold Opened.InRange
    omega
  unfold strgBasketReadSet
  dsimp only
  rw [hc.bf, hc.beginIframeIdx, hc.iframeNum]
  split
  · exact moveToSlot_stays hv hf hin hfirstIn
  rename_i hlate
  split
  · exact moveToSlot_stays hv hf hin hlastIn
  rename_i hearly
  have hscale := (hscale.resolve_left hlate).resolve_left hearly
  obtain ⟨j, first, hj, hfirst, hread⟩ := read_inRange hv hf hfirstIn
  obtain rfl : j = 0 := by omega
  rcases hread with hread | hread
  · rw [hread]
    exact hin.stays_fail
  rw [hread]
  obtain ⟨k, last, hk, hlast, hread'⟩ := read_inRange hv hf hlastIn
  obtain rfl : k = o.last := by omega
  rcases hread' with hread' | hread'
  · rw [hread']
    exact hin.stays_fail
  rw [hread']
  dsimp only
  rw [← o.time_eq hfirst, ← o.time_eq hlast]
  obtain ⟨m, r, hm, hr, hfound⟩ := read_inRange hv hf (setIdx_inRange hv hin hscale)
  rcases hfound with hfound | hfound
  · rw [hfound]
    exact hin.stays_fail
  · rw [hfound]
    exact setFrom_stays hv hf hin _ hm hr

end Reading

end Nvr.Storage
