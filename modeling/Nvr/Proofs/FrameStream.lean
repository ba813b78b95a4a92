import Nvr.Storage.BasketRead
import Nvr.Proofs.BasketLayout

/-!
# What a fragment holds

The frame area of a fragment is a stream of stored frames, each a header and
its data, with nothing between them; its part of the index table is one record
for each I-frame of the stream, in order. `Recorded` says so about the bytes of
the basket file. It survives every write elsewhere in the file, and an accepted
frame extends it by that frame.
-/

namespace Nvr.Storage

open ByteFile

/-- A frame as it lies in the frame area. -/
structure StoredFrame where
  header : BasketFrame
  data : List UInt8

namespace StoredFrame

def bytes (s : StoredFrame) : List UInt8 := BasketFrame.format.encode s.header ++ s.data

def isIframe (s : StoredFrame) : Bool := s.header.frameType = FrameType.i.code

/-- The header is that of the data, and a reader accepts the two. -/
structure Sound (s : StoredFrame) : Prop where
  magic : s.header.magic ≠ 0
  frameLen : s.header.frameLen.toNat = s.data.length
  sampled : strgBasketCheckFrameData s.header s.data = true

@[simp] theorem length_bytes (s : StoredFrame) :
    s.bytes.length = basketFrameLen + s.data.length := by simp [bytes]

/-- The index record of a frame stored at `pos`. -/
def record (s : StoredFrame) (pos : Nat) : BasketIFrame where
  magic := basketIframeMagic
  useCnt := s.header.useCnt.toUInt32
  frameNo := s.header.frameNo
  framePos := UInt32.ofNat pos
  ts := s.header.ts

end StoredFrame

def streamBytes (ss : List StoredFrame) : List UInt8 := ss.flatMap StoredFrame.bytes

@[simp] theorem streamBytes_nil : streamBytes [] = [] := rfl

@[simp] theorem streamBytes_cons (s : StoredFrame) (ss : List StoredFrame) :
    streamBytes (s :: ss) = s.bytes ++ streamBytes ss := rfl

@[simp] theorem streamBytes_append (ss ss' : List StoredFrame) :
    streamBytes (ss ++ ss') = streamBytes ss ++ streamBytes ss' := List.flatMap_append

/-- The I-frames of a stream that starts at `pos`, each with its record. -/
def indexed : Nat → List StoredFrame → List (BasketIFrame × StoredFrame)
  | _, [] => []
  | pos, s :: ss =>
      if s.isIframe then (s.record pos, s) :: indexed (pos + s.bytes.length) ss
      else indexed (pos + s.bytes.length) ss

theorem indexed_append (pos : Nat) (ss ss' : List StoredFrame) :
    indexed pos (ss ++ ss') =
      indexed pos ss ++ indexed (pos + (streamBytes ss).length) ss' := by
  induction ss generalizing pos with
  | nil => rfl
  | cons s ss ih =>
      simp only [List.cons_append, indexed, ih, streamBytes_cons, List.length_append,
        Nat.add_assoc]
      split <;> rfl

theorem indexed_snd (pos : Nat) (ss : List StoredFrame) :
    (indexed pos ss).map Prod.snd = ss.filter StoredFrame.isIframe := by
  induction ss generalizing pos with
  | nil => rfl
  | cons s ss ih =>
      rw [indexed, List.filter_cons]
      split
      · rw [List.map_cons, ih]
      · exact ih _

def indexBytes (rs : List (BasketIFrame × StoredFrame)) : List UInt8 :=
  rs.flatMap fun r => BasketIFrame.format.encode r.1

@[simp] theorem length_indexBytes (rs : List (BasketIFrame × StoredFrame)) :
    (indexBytes rs).length = basketIframeLen * rs.length := by
  induction rs with
  | nil => rfl
  | cons r rs ih =>
      simp only [indexBytes, List.flatMap_cons, List.length_append,
        WordRecord.WordFormat.length_encode, BasketIFrame.format_len, List.length_cons] at ih ⊢
      rw [ih, Nat.mul_add, Nat.add_comm, Nat.mul_one]

/-- The offset of a slot of the index table. -/
def slotOft (slot : Int) : Nat := basketIframeOft + basketIframeLen * slot.toNat

/-- The fragment `bf` holds the frames `ss`. -/
structure Recorded (file : ByteFile) (bf : BasketFragment) (ss : List StoredFrame) : Prop where
  bytes : bf.bytes = (streamBytes ss).length
  slots : bf.slots = (indexed bf.pos ss).length
  frames : Holds file bf.pos (streamBytes ss)
  index : Holds file (slotOft bf.slot) (indexBytes (indexed bf.pos ss))

theorem recorded_empty (file : ByteFile) {bf : BasketFragment} (hbytes : bf.bytes = 0)
    (hslots : bf.slots = 0) : Recorded file bf [] where
  bytes := hbytes
  slots := hslots
  frames := holds_nil _ _
  index := holds_nil _ _

/-- A write apart from what a fragment has in use leaves it alone. -/
theorem Recorded.write_apart {file : ByteFile} {bf : BasketFragment} {ss : List StoredFrame}
    (h : Recorded file bf ss) {off : Nat} {data : List UInt8}
    (hframes : Apart bf.pos bf.bytes off data.length)
    (hindex : Apart (slotOft bf.slot) (basketIframeLen * bf.slots.toNat) off data.length) :
    Recorded (file.write off data) bf ss where
  bytes := h.bytes
  slots := h.slots
  frames := h.frames.write_apart (h.bytes ▸ hframes)
  index := h.index.write_apart (by
    rw [length_indexBytes]
    rw [h.slots] at hindex
    exact hindex)

/-- What `Recorded` looks at in the fragment. -/
theorem Recorded.congr {file : ByteFile} {bf bf' : BasketFragment} {ss : List StoredFrame}
    (h : Recorded file bf ss) (hpos : bf'.pos = bf.pos) (hbytes : bf'.bytes = bf.bytes)
    (hslot : bf'.slot = bf.slot) (hslots : bf'.slots = bf.slots) : Recorded file bf' ss where
  bytes := by rw [hbytes, h.bytes]
  slots := by rw [hslots, hpos, h.slots]
  frames := by
    rw [hpos]
    exact h.frames
  index := by
    rw [hslot, hpos]
    exact h.index

/-! ## Taking a frame -/

/-- The frame that `strg_basket_write` stores for `f`. -/
def storedFrame (dev : Dev) (bgi : BasketGlobalInfo) (f : Frame) (ts : Timeval) : StoredFrame where
  header := sampledHeader dev (frameHeader bgi f ts) f.data
  data := f.data

/-- Only the samples are drawn; the rest of the header is as it was given. -/
theorem sampledHeader_eq (dev : Dev) (bframe : BasketFrame) (data : List UInt8) :
    ∃ pos₀ pos₁ dataChecksum, sampledHeader dev bframe data =
      { bframe with pos₀ := pos₀, pos₁ := pos₁, dataChecksum := dataChecksum } := by
  unfold sampledHeader strgBasketCalcFrameDataChecksum
  simp only
  split
  · exact ⟨_, _, _, rfl⟩
  · exact ⟨_, _, _, rfl⟩

/-- The samples drawn are the samples checked. -/
theorem strgBasketCheckFrameData_sampled (dev : Dev) (bframe : BasketFrame) {data : List UInt8}
    (hlen : 8 ≤ data.length) (hsize : data.length < 2 ^ 31) :
    strgBasketCheckFrameData (sampledHeader dev bframe data) data = true := by
  have hroom : 0 < (UInt32.ofNat data.length - 4).toNat := by
    have hnat : (UInt32.ofNat data.length).toNat = data.length := by
      rw [UInt32.toNat_ofNat']
      omega
    have hfour : (4 : UInt32).toNat = 4 := rfl
    rw [UInt32.toNat_sub_of_toNat_le (by omega), hnat, hfour]
    omega
  have hmod : ∀ r : UInt32, ¬r % (UInt32.ofNat data.length - 4) ≥ UInt32.ofNat data.length - 4 :=
    fun r => UInt32.not_le.2 (UInt32.lt_iff_toNat_lt.2 (by
      rw [UInt32.toNat_mod]
      exact Nat.mod_lt _ hroom))
  unfold sampledHeader strgBasketCalcFrameDataChecksum strgBasketCheckFrameData
  simp only [if_neg (Nat.not_lt.2 hlen), if_neg (hmod _), decide_true]

theorem basketFrameMagic_ne : basketFrameMagic ≠ 0 := by decide

theorem storedFrame_sound {dev : Dev} {bgi : BasketGlobalInfo} {f : Frame}
    (hlen : 8 ≤ f.data.length) (ts : Timeval) : (storedFrame dev bgi f ts).Sound := by
  obtain ⟨_, _, _, heq⟩ := sampledHeader_eq dev (frameHeader bgi f ts) f.data
  refine ⟨?_, ?_, strgBasketCheckFrameData_sampled dev _ hlen f.size_lt⟩
  · show (sampledHeader dev (frameHeader bgi f ts) f.data).magic ≠ 0
    rw [heq]
    exact basketFrameMagic_ne
  · show (sampledHeader dev (frameHeader bgi f ts) f.data).frameLen.toNat = f.data.length
    rw [heq]
    exact f.toNat_size

theorem storedFrame_isIframe (dev : Dev) (bgi : BasketGlobalInfo) (f : Frame) (ts : Timeval) :
    (storedFrame dev bgi f ts).isIframe = decide (f.frameType = .i) := by
  obtain ⟨_, _, _, heq⟩ := sampledHeader_eq dev (frameHeader bgi f ts) f.data
  unfold StoredFrame.isIframe storedFrame
  rw [heq]
  exact decide_eq_decide.2 FrameType.code_eq_i

theorem storedFrame_record (dev : Dev) (bgi : BasketGlobalInfo) (f : Frame) (ts : Timeval)
    (pos : UInt32) : (storedFrame dev bgi f ts).record pos.toNat = iframeRecord bgi f pos ts := by
  obtain ⟨_, _, _, heq⟩ := sampledHeader_eq dev (frameHeader bgi f ts) f.data
  unfold StoredFrame.record storedFrame
  rw [heq]
  simp [frameHeader, iframeRecord]

/-- The basket file after an accepted frame. -/
theorem putTaken_file {dev : Dev} {bgi : BasketGlobalInfo} {bf : BasketFragment} {f : Frame}
    {i : Nat} {curTime : Int32} (h : Placed bgi bf f i curTime) (ts : Timeval) :
    (dev.putTaken bgi bf f ts).file (.basket bgi.basketIdx) =
      let s := storedFrame dev bgi f ts
      let file := (dev.file (.basket bgi.basketIdx)).write (areaEnd bgi .frame) s.bytes
      if f.frameType = .i then
        file.write (areaEnd bgi .iframe)
          (BasketIFrame.format.encode (s.record (areaEnd bgi .frame)))
      else file := by
  have hframe : (dev.putFrame bgi.basketIdx (bf.beginFramePos + bf.fragmentSize)
      (frameHeader bgi f ts) f.data).file (.basket bgi.basketIdx) =
      (dev.file (.basket bgi.basketIdx)).write (areaEnd bgi .frame)
        (storedFrame dev bgi f ts).bytes := by
    rw [Dev.putFrame, Dev.file_commit_write, Dev.file_commit_write, h.data, h.pos,
      StoredFrame.bytes, ← write_write_append]
    simp [storedFrame]
  unfold Dev.putTaken
  simp only
  split
  · next hi =>
      rw [Dev.putIframe, Dev.file_commit_write, hframe, h.slot hi, ← h.pos, storedFrame_record]
  · exact hframe

/-- An accepted frame extends the fragment being written by that frame. -/
theorem Recorded.takeFrame {dev : Dev} {bgi : BasketGlobalInfo} {i : Nat} {f : Frame}
    {ss : List StoredFrame} (hlayout : Layout bgi) (hi : i + 1 = bgi.bfList.length)
    (hiframe : ¬noIframeRoom bgi f) (hframe : ¬noFrameRoom bgi f)
    (h : Recorded (dev.file (.basket bgi.basketIdx)) (bgi.bfList.getD i default) ss)
    (curTime : Int32) (ts : Timeval) :
    Recorded ((dev.putTaken bgi (bgi.bfList.getD i default) f ts).file (.basket bgi.basketIdx))
      (updateFragment (bgi.bfList.getD i default) curTime f)
      (ss ++ [storedFrame dev bgi f ts]) := by
  have hplaced := hlayout.placed hi hiframe hframe curTime
  have hend := hlayout.areaEnd_current hi
  obtain ⟨before, bf, hlist, hget, hpos, hslot, hnonneg, hbefore, hspace, hslots, _⟩ :=
    hlayout.current hi
  have hiframeEnd := areaEnd_le (hlayout.takeFrame hi hiframe hframe curTime) .iframe
  have hregions : basketIframeOft + basketIframeSize = basketFrameOft := rfl
  rw [hget] at h hplaced hend ⊢
  have hfree := takeFrame_freeSpace hframe i curTime
  have hfreeIframe := takeFrame_freeIframe hiframe i curTime
  rw [basketFrameSize_eq] at hspace
  rw [basketIframeNum_eq] at hslots
  have hbytes := updateFragment_bytes bf f (by omega) curTime
  have hnum := updateFragment_slots hnonneg (by omega) curTime f
  have hstream := h.bytes
  have hrecords := h.slots
  have hindexEnd : slotOft bf.slot + basketIframeLen * (indexed bf.pos ss).length =
      areaEnd bgi .iframe := by
    have hsum : (bf.slot + bf.slots).toNat = bf.slot.toNat + (indexed bf.pos ss).length := by
      omega
    rw [hend.2, hsum, slotOft, Nat.mul_add, Nat.add_assoc]
  set s := storedFrame dev bgi f ts with hs
  have hlen : s.bytes.length = basketFrameLen + f.data.length := s.length_bytes
  -- the new frame goes behind the stream, the new record behind the index
  have hnew : indexed bf.pos (ss ++ [s]) = indexed bf.pos ss ++
      if f.frameType = .i then [(s.record (areaEnd bgi .frame), s)] else [] := by
    rw [indexed_append, ← hstream, ← hend.1]
    simp only [indexed, hs, storedFrame_isIframe, decide_eq_true_eq]
  have hframes : Holds ((dev.file (.basket bgi.basketIdx)).write (areaEnd bgi .frame) s.bytes)
      bf.pos (streamBytes (ss ++ [s])) := by
    rw [streamBytes_append, holds_append]
    refine ⟨h.frames.write_apart (.inl (by omega)), ?_⟩
    rw [← hstream, ← hend.1, streamBytes_cons, streamBytes_nil, List.append_nil]
    exact holds_write _ _ _
  have hindex : Holds ((dev.file (.basket bgi.basketIdx)).write (areaEnd bgi .frame) s.bytes)
      (slotOft bf.slot) (indexBytes (indexed bf.pos ss)) := by
    refine h.index.write_apart (.inl ?_)
    have := hplaced.iframeEnd
    simp only [Area.range] at hiframeEnd
    rw [length_indexBytes, hindexEnd, hend.1, hpos]
    omega
  refine ⟨?_, ?_, ?_, ?_⟩
  · rw [hbytes, streamBytes_append, List.length_append, hstream]
    simp [hlen]
  · rw [hnum, hrecords, updateFragment_pos, hnew, iframeSlots]
    split <;> simp
  · rw [putTaken_file hplaced]
    simp only
    split
    · next hf =>
        refine hframes.write_apart (.inr ?_)
        have := hplaced.iframeEnd
        rw [iframeSlots, if_pos hf] at this
        simp only [Area.range] at hiframeEnd
        rw [WordRecord.WordFormat.length_encode, BasketIFrame.format_len, hpos]
        omega
    · exact hframes
  · rw [putTaken_file hplaced, updateFragment_pos, updateFragment_slot, hnew]
    simp only
    split
    · next hf =>
        rw [indexBytes, List.flatMap_append, holds_append]
        refine ⟨hindex.write_apart (.inl ?_), ?_⟩
        · rw [length_indexBytes, hindexEnd]
        · have hoff := hindexEnd
          rw [← length_indexBytes] at hoff
          rw [← indexBytes, hoff, List.flatMap_cons, List.flatMap_nil, List.append_nil]
          exact holds_write _ _ _
    · rw [List.append_nil]
      exact hindex

end Nvr.Storage
