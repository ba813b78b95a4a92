import Mathlib.Algebra.Order.Group.Nat
import Nvr.Proofs.Playback

/-!
# A stretch of a fragment

What a query reports of a fragment is a stretch of its frames, from one I-frame
up to another or to the end. Its index and its size name the stretch, and a
session that is opened on it begins where it begins and has its end.
-/

namespace Nvr.Storage

open ByteFile

/-! ## The records of a fragment -/

/-- The records of the I-frames of a stream that starts at `pos`. -/
def recordsOf (pos : Nat) (ss : List StoredFrame) : List BasketIFrame :=
  (indexed pos ss).map Prod.fst

@[simp] theorem length_recordsOf (pos : Nat) (ss : List StoredFrame) :
    (recordsOf pos ss).length = ss.countP StoredFrame.isIframe := by
  rw [recordsOf, List.length_map, ← List.length_map Prod.snd, indexed_snd,
    List.countP_eq_length_filter]

theorem length_indexed (pos : Nat) (ss : List StoredFrame) :
    (indexed pos ss).length = ss.countP StoredFrame.isIframe := by
  rw [← length_recordsOf pos, recordsOf, List.length_map]

theorem recordsOf_append (pos : Nat) (ss ss' : List StoredFrame) :
    recordsOf pos (ss ++ ss') =
      recordsOf pos ss ++ recordsOf (pos + (streamBytes ss).length) ss' := by
  rw [recordsOf, indexed_append, List.map_append]
  rfl

theorem recordsOf_cons_iframe {s : StoredFrame} (hs : s.isIframe = true) (pos : Nat)
    (ss : List StoredFrame) :
    recordsOf pos (s :: ss) = s.record pos :: recordsOf (pos + s.bytes.length) ss := by
  rw [recordsOf, indexed, if_pos hs, List.map_cons]
  rfl

/-- The record of an I-frame is at the place that the I-frames before it give. -/
theorem recordsOf_middle (pos : Nat) (before after : List StoredFrame) {s : StoredFrame}
    (hs : s.isIframe = true) :
    (recordsOf pos (before ++ s :: after))[before.countP StoredFrame.isIframe]? =
      some (s.record (pos + (streamBytes before).length)) := by
  rw [recordsOf_append, recordsOf_cons_iframe hs,
    List.getElem?_append_right (by rw [length_recordsOf]), length_recordsOf, Nat.sub_self]
  rfl

/-- Every record is that of an I-frame of the stream. -/
theorem exists_of_recordsOf {pos : Nat} {ss : List StoredFrame} {j : Nat} {r : BasketIFrame}
    (h : (recordsOf pos ss)[j]? = some r) :
    ∃ before s after, ss = before ++ s :: after ∧ s.isIframe = true ∧
      before.countP StoredFrame.isIframe = j ∧ r = s.record (pos + (streamBytes before).length) := by
  induction ss generalizing pos j with
  | nil => simp [recordsOf, indexed] at h
  | cons s ss ih =>
      by_cases hs : s.isIframe = true
      · rw [recordsOf_cons_iframe hs] at h
        cases j with
        | zero =>
            obtain rfl : s.record pos = r := by simpa using h
            exact ⟨[], s, ss, rfl, hs, rfl, rfl⟩
        | succ j =>
            obtain ⟨before, s', after, rfl, hs', hcount, hr⟩ := ih (by simpa using h)
            refine ⟨s :: before, s', after, rfl, hs', ?_, ?_⟩
            · rw [List.countP_cons_of_pos hs, hcount]
            · rw [hr, streamBytes_cons, List.length_append, s.length_bytes]
              simp only [Nat.add_assoc]
      · have hskip : recordsOf pos (s :: ss) = recordsOf (pos + s.bytes.length) ss := by
          rw [recordsOf, indexed, if_neg hs]
          rfl
        rw [hskip] at h
        obtain ⟨before, s', after, rfl, hs', hcount, hr⟩ := ih h
        refine ⟨s :: before, s', after, rfl, hs', ?_, ?_⟩
        · rw [List.countP_cons_of_neg hs, hcount]
        · rw [hr, streamBytes_cons, List.length_append, Nat.add_assoc]

/-- Where a fragment may be. -/
structure InFile (bf : BasketFragment) : Prop where
  slot_nonneg : 0 ≤ bf.slot
  slots_nonneg : 0 ≤ bf.slots
  slots_le : bf.slot + bf.slots ≤ basketIframeNum
  pos_le : bf.pos + bf.bytes ≤ basketSize

theorem Layout.inFile {bgi : BasketGlobalInfo} (h : Layout bgi) {bf : BasketFragment}
    (hmem : bf ∈ bgi.bfList) : InFile bf := by
  have hslot := h.iframes.bounds h.slots_nonneg hmem
  have hframe := h.frames.bounds (fun _ _ => Nat.zero_le _) hmem
  have hiframe := h.freeIframe
  have hspace := h.freeSpace
  have harea : basketFrameOft + basketFrameSize = basketSize := rfl
  unfold usedIframes at hiframe
  unfold usedSpace at hspace
  exact ⟨hslot.1, h.slots_nonneg bf hmem, by omega, by omega⟩

section Records

variable {dev : Dev} {idx : Nat} {bf : BasketFragment} {ss : List StoredFrame}

theorem InFile.pos_lt (h : InFile bf) : bf.pos + bf.bytes < 2 ^ 31 := by
  have hle := h.pos_le
  have hsize : basketSize = 2 ^ 30 := rfl
  omega

theorem InFile.slots_lt (h : InFile bf) : bf.slot + bf.slots < 2 ^ 31 := by
  have hle := h.slots_le
  rw [basketIframeNum_eq] at hle
  omega

theorem Recorded.slots_eq {file : ByteFile} (h : Recorded file bf ss) :
    bf.slots = ss.countP StoredFrame.isIframe := by
  rw [h.slots, length_indexed]

/-- The bytes of a record of the fragment. -/
theorem Recorded.holds_record {file : ByteFile} (h : Recorded file bf ss) (hp : InFile bf)
    {j : Nat} {r : BasketIFrame} (hr : (recordsOf bf.pos ss)[j]? = some r) :
    Holds file (slotOft (bf.slot + j)) (BasketIFrame.format.encode r) := by
  obtain ⟨before, s, after, rfl, hs, rfl, rfl⟩ := exists_of_recordsOf hr
  have hindex := h.index
  have hnonneg := hp.slot_nonneg
  rw [indexed_append, indexed, if_pos hs, indexBytes, List.flatMap_append, List.flatMap_cons,
    holds_append, holds_append] at hindex
  have hlen := length_indexBytes (indexed bf.pos before)
  rw [indexBytes, length_indexed] at hlen
  rw [hlen] at hindex
  have hoft : slotOft (bf.slot + before.countP StoredFrame.isIframe) =
      slotOft bf.slot + basketIframeLen * before.countP StoredFrame.isIframe := by
    unfold slotOft
    rw [show (bf.slot + (before.countP StoredFrame.isIframe : Int)).toNat =
      bf.slot.toNat + before.countP StoredFrame.isIframe by omega, Nat.mul_add, Nat.add_assoc]
  rw [hoft]
  exact hindex.2.1

/-- A read of an index record either fails or gives the record that is there. -/
theorem strgBasketReadIframe_cases {ifIdx : Int32} {r : BasketIFrame}
    (hr : r.magic = basketIframeMagic) (h0 : 0 ≤ ifIdx.toInt)
    (hmax : ifIdx.toInt < basketIframeNum)
    (h : Holds (dev.file (.basket idx)) (slotOft ifIdx.toInt) (BasketIFrame.format.encode r)) :
    strgBasketReadIframe dev idx ifIdx = none ∨ strgBasketReadIframe dev idx ifIdx = some r := by
  have hoft : iframeOft ifIdx = slotOft ifIdx.toInt := iframeOft_eq h0 hmax
  unfold strgBasketReadIframe
  unfold strgRead
  split
  · right
    rw [hoft, h.read_eq (by simp)]
    simp [strgBasketCheckIframe, hr]
  · left
    rfl

end Records

theorem recordsOf_magic {pos : Nat} {ss : List StoredFrame} {j : Nat} {r : BasketIFrame}
    (h : (recordsOf pos ss)[j]? = some r) : r.magic = basketIframeMagic := by
  obtain ⟨_, s, _, _, _, _, rfl⟩ := exists_of_recordsOf h
  rfl

/-- A read of a frame either fails or gives the frame that is there. -/
theorem strgBasketReadFrame_cases {dev : Dev} {idx : Nat} {pos : UInt32} {s : StoredFrame}
    {buffLen : Int32} (hs : s.Sound) (hend : pos.toNat + s.bytes.length ≤ basketSize)
    (h : Holds (dev.file (.basket idx)) pos.toNat s.bytes) :
    strgBasketReadFrame dev idx pos buffLen = none ∨
      strgBasketReadFrame dev idx pos buffLen = some (s.header, s.data) := by
  obtain ⟨hheader, hdata⟩ := holds_append.1 h
  rw [s.length_bytes] at hend
  have hframeLen : basketFrameLen = 68 := rfl
  have hlen : (BasketFrame.format.encode s.header).length = basketFrameLen := by simp
  have hoft : (pos + UInt32.ofNat basketFrameLen).toNat = pos.toNat + basketFrameLen := by
    have hword : (UInt32.ofNat basketFrameLen).toNat = basketFrameLen := rfl
    rw [UInt32.toNat_add_of_lt' (by rw [hword]; unfold basketSize at hend; omega), hword]
  unfold strgBasketReadFrame
  rw [strgRead]
  split
  · rw [hheader.read_eq hlen.symm]
    simp only [Option.bind_eq_bind, Option.bind_some, WordRecord.WordFormat.decode_encode,
      strgBasketCheckFrame, if_pos hs.magic]
    split
    · rw [hoft, hs.frameLen, strgRead]
      split
      · right
        rw [← hlen, hdata.read_eq rfl, Option.bind_some, if_pos hs.sampled]
      · left
        rfl
    · left
      rfl
  · left
    rfl

/-! ## The stretch that a query names -/

/-- What is asked for are the frames `frames` of the fragment, which lie between
`before` and `after`: from one I-frame up to another or to the end. -/
structure Range (bf : BasketFragment) (before frames after : List StoredFrame)
    (q : RecordQueryInfo) : Prop where
  first : q.beginIframeIdx.toInt = bf.slot + before.countP StoredFrame.isIframe
  num : q.iframeNum.toInt = frames.countP StoredFrame.isIframe
  size : q.fragmentSize.toInt = (streamBytes frames).length
  starts : ∃ s rest, frames = s :: rest ∧ s.isIframe = true
  ends : ∀ s ∈ after.head?, s.isIframe = true

/-- The session that `strg_basket_read_start` opens for `q` at a position. -/
def openedAt (q : RecordQueryInfo) (idx : Nat) (framePos : UInt32) : BasketReadInfo where
  bgi := idx
  bf := q.bfIdx.toUInt32.toNat
  beginIframeIdx := q.beginIframeIdx
  iframeIdx := q.beginIframeIdx
  iframeNum := q.iframeNum
  readPos := framePos.toInt32
  readCnt := 0
  beginPos := framePos.toInt32
  fragmentSize := q.fragmentSize

section Session

variable {dev : Dev} {bgi : BasketGlobalInfo} {bf : BasketFragment}
  {before frames after : List StoredFrame} {q : RecordQueryInfo}

/-- Where the frames of a range begin. -/
def startPos (bf : BasketFragment) (before : List StoredFrame) : Nat :=
  bf.pos + (streamBytes before).length

theorem Recorded.frames_at {file : ByteFile}
    (h : Recorded file bf (before ++ frames ++ after)) :
    Holds file (startPos bf before) (streamBytes frames) := by
  have hframes := h.frames
  rw [streamBytes_append, streamBytes_append, List.append_assoc, holds_append,
    holds_append] at hframes
  exact hframes.2.1

theorem Recorded.startPos_add_le {file : ByteFile}
    (h : Recorded file bf (before ++ frames ++ after)) (hp : InFile bf) :
    startPos bf before + (streamBytes frames).length ≤ basketSize := by
  have hbytes := h.bytes
  have hle := hp.pos_le
  rw [streamBytes_append, streamBytes_append, List.length_append, List.length_append] at hbytes
  unfold startPos
  omega

theorem toNat_startPos {file : ByteFile} (h : Recorded file bf (before ++ frames ++ after))
    (hp : InFile bf) : (UInt32.ofNat (startPos bf before)).toNat = startPos bf before := by
  have hle := h.startPos_add_le hp
  have hsize : basketSize = 2 ^ 30 := rfl
  rw [UInt32.toNat_ofNat']
  omega

/-- The record at the begin of the range. -/
theorem Range.record (hq : Range bf before frames after q) :
    ∃ r, (recordsOf bf.pos (before ++ frames ++ after))[before.countP StoredFrame.isIframe]? =
        some r ∧ r.framePos = UInt32.ofNat (startPos bf before) := by
  obtain ⟨s, rest, rfl, hs⟩ := hq.starts
  refine ⟨s.record (startPos bf before), ?_, rfl⟩
  rw [List.append_assoc, List.cons_append]
  exact recordsOf_middle bf.pos before (rest ++ after) hs

theorem Range.first_lt (hq : Range bf before frames after q) {file : ByteFile}
    (h : Recorded file bf (before ++ frames ++ after)) :
    before.countP StoredFrame.isIframe + frames.countP StoredFrame.isIframe ≤ bf.slots ∧
      0 < frames.countP StoredFrame.isIframe := by
  obtain ⟨s, rest, rfl, hs⟩ := hq.starts
  have hslots := h.slots_eq
  rw [List.countP_append, List.countP_append] at hslots
  rw [List.countP_cons_of_pos hs] at hslots ⊢
  omega

theorem readStart_of_record {r : BasketIFrame} (hlt : q.bfIdx.toUInt32 < bgi.bg.fragmentNum)
    (hbf : bgi.bfList[q.bfIdx.toUInt32.toNat]? = some bf)
    (hopen : dev.env.openOk dev.tick = true)
    (hread : strgBasketReadIframe dev.wait bgi.basketIdx q.beginIframeIdx = some r) :
    strgBasketReadStart dev bgi q =
      (some (openedAt q bgi.basketIdx r.framePos, bf.info), dev.wait, bgi.addReader) := by
  unfold strgBasketReadStart
  rw [if_pos hlt, hbf]
  simp only [strgBasketOpen, if_pos hopen, hread]
  rfl

/-- Opening a session on a range either fails or begins where it begins. -/
theorem Range.readStart_cases (hq : Range bf before frames after q)
    (h : Recorded (dev.file (.basket bgi.basketIdx)) bf (before ++ frames ++ after))
    (hp : InFile bf) (hlt : q.bfIdx.toUInt32 < bgi.bg.fragmentNum)
    (hbf : bgi.bfList[q.bfIdx.toUInt32.toNat]? = some bf) :
    (strgBasketReadStart dev bgi q).1 = none ∨
      strgBasketReadStart dev bgi q =
        (some (openedAt q bgi.basketIdx (UInt32.ofNat (startPos bf before)), bf.info),
          dev.wait, bgi.addReader) := by
  obtain ⟨r, hr, hpos⟩ := hq.record
  obtain ⟨hnum, hpositive⟩ := hq.first_lt h
  have hfirst := hq.first
  have hslot := hp.slot_nonneg
  have hslots := hp.slots_le
  have hread : strgBasketReadIframe dev.wait bgi.basketIdx q.beginIframeIdx = none ∨
      strgBasketReadIframe dev.wait bgi.basketIdx q.beginIframeIdx = some r :=
    strgBasketReadIframe_cases (recordsOf_magic hr) (by omega) (by omega)
      (by rw [hfirst]; exact h.holds_record hp hr)
  by_cases hopen : dev.env.openOk dev.tick = true
  · rcases hread with hread | hread
    · left
      unfold strgBasketReadStart
      rw [if_pos hlt, hbf]
      simp only [strgBasketOpen, if_pos hopen, hread]
    · right
      rw [readStart_of_record hlt hbf hopen hread, hpos]
  · left
    unfold strgBasketReadStart
    rw [if_pos hlt, hbf]
    simp only [strgBasketOpen, if_neg hopen]

theorem Range.readStart (hq : Range bf before frames after q) (henv : dev.env.Reliable)
    (h : Recorded (dev.file (.basket bgi.basketIdx)) bf (before ++ frames ++ after))
    (hp : InFile bf) (hlt : q.bfIdx.toUInt32 < bgi.bg.fragmentNum)
    (hbf : bgi.bfList[q.bfIdx.toUInt32.toNat]? = some bf) :
    strgBasketReadStart dev bgi q =
      (some (openedAt q bgi.basketIdx (UInt32.ofNat (startPos bf before)), bf.info),
        dev.wait, bgi.addReader) := by
  obtain ⟨r, hr, hpos⟩ := hq.record
  obtain ⟨hnum, hpositive⟩ := hq.first_lt h
  have hfirst := hq.first
  have hslot := hp.slot_nonneg
  have hslots := hp.slots_le
  have hwait : dev.wait.env.Reliable := henv
  have hread : strgBasketReadIframe dev.wait bgi.basketIdx q.beginIframeIdx = some r :=
    strgBasketReadIframe_holds hwait (recordsOf_magic hr) (by omega) (by omega)
      (by rw [hfirst]; exact h.holds_record hp hr)
  rw [readStart_of_record hlt hbf (henv.openOk _) hread, hpos]

/-- The session stands before the frames of the range and has their end. -/
theorem Range.atStream (hq : Range bf before frames after q)
    (h : Recorded (dev.file (.basket bgi.basketIdx)) bf (before ++ frames ++ after))
    (hp : InFile bf) :
    AtStream (openedAt q bgi.basketIdx (UInt32.ofNat (startPos bf before))) (startPos bf before)
      frames := by
  have hword := toNat_startPos h hp
  have hle := h.startPos_add_le hp
  have hsize : basketSize = 2 ^ 30 := rfl
  have hpos : (UInt32.ofNat (startPos bf before)).toInt32.toInt = startPos bf before := by
    rw [UInt32.toInt_toInt32_of_lt (by omega), hword]
  refine ⟨hpos, ?_⟩
  show ((UInt32.ofNat (startPos bf before)).toInt32 + q.fragmentSize).toInt = _
  have hfragment := hq.size
  rw [Int32.toInt_add_of_range (by omega) (by omega), hpos, hfragment]

end Session

end Nvr.Storage
