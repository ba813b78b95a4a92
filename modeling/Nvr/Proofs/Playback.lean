import Nvr.Proofs.FrameStream

/-!
# What a reader gets back

A session that starts on a recorded stream returns it. In stored order the
cursor is a position: it stands at the beginning of what is left of the stream
and stops where the stream stops. Along the index the cursor is a slot: each
record names the position of its frame, wherever in the stream that is. Both
are inductions on what is left to read.
-/

namespace Nvr.Storage

open ByteFile

section Reading

variable {dev : Dev} {idx : Nat} {buffLen : Int32}

theorem strgBasketReadFrame_holds (henv : dev.env.Reliable) {pos : UInt32} {s : StoredFrame}
    (hs : s.Sound) (hend : pos.toNat + s.bytes.length ≤ basketSize)
    (hfit : s.data.length ≤ buffLen.toUInt32.toNat)
    (h : Holds (dev.file (.basket idx)) pos.toNat s.bytes) :
    strgBasketReadFrame dev idx pos buffLen = some (s.header, s.data) := by
  obtain ⟨hheader, hdata⟩ := holds_append.1 h
  rw [s.length_bytes] at hend
  have hframeLen : basketFrameLen = 68 := rfl
  have hlen : (BasketFrame.format.encode s.header).length = basketFrameLen := by simp
  have hoft : (pos + UInt32.ofNat basketFrameLen).toNat = pos.toNat + basketFrameLen := by
    have hword : (UInt32.ofNat basketFrameLen).toNat = basketFrameLen := rfl
    rw [UInt32.toNat_add_of_lt' (by rw [hword]; unfold basketSize at hend; omega), hword]
  have hfileEnd : fileEnd (.basket idx) = basketSize := rfl
  have hle : s.header.frameLen ≤ buffLen.toUInt32 := by
    rw [UInt32.le_iff_toNat_le, hs.frameLen]
    exact hfit
  unfold strgBasketReadFrame
  rw [strgRead_reliable henv (by rw [hfileEnd]; omega), hheader.read_eq hlen.symm]
  simp only [Option.bind_eq_bind, Option.bind_some, WordRecord.WordFormat.decode_encode,
    strgBasketCheckFrame, if_pos hs.magic, if_pos hle]
  rw [hoft, hs.frameLen, strgRead_reliable henv (by rw [hfileEnd]; omega), ← hlen,
    hdata.read_eq rfl, Option.bind_some, if_pos hs.sampled]

theorem strgBasketReadIframe_holds (henv : dev.env.Reliable) {ifIdx : Int32} {r : BasketIFrame}
    (hr : r.magic = basketIframeMagic) (h0 : 0 ≤ ifIdx.toInt)
    (hmax : ifIdx.toInt < basketIframeNum)
    (h : Holds (dev.file (.basket idx)) (slotOft ifIdx.toInt) (BasketIFrame.format.encode r)) :
    strgBasketReadIframe dev idx ifIdx = some r := by
  have hoft : iframeOft ifIdx = slotOft ifIdx.toInt := iframeOft_eq h0 hmax
  have hend : iframeOft ifIdx + basketIframeLen ≤ fileEnd (.basket idx) := by
    rw [hoft, slotOft, basketIframeOft_eq]
    rw [basketIframeNum_eq] at hmax
    show _ ≤ basketSize
    unfold basketSize basketIframeLen
    omega
  unfold strgBasketReadIframe
  rw [strgRead_reliable henv hend, hoft, h.read_eq (by simp)]
  simp [strgBasketCheckIframe, hr]

end Reading

/-- The reader's buffer takes the frame behind its own header. -/
def Fits (buffLen : Int32) (s : StoredFrame) : Prop := s.data.length + 8 ≤ buffLen.toInt

theorem Fits.le_buffer {buffLen : Int32} {s : StoredFrame} (h : Fits buffLen s) :
    s.data.length ≤ (buffLen - storageFrameHdrLen).toUInt32.toNat := by
  unfold Fits at h
  have hhdr : storageFrameHdrLen.toInt = 8 := rfl
  have hlt := buffLen.toInt_lt
  have hsub : (buffLen - storageFrameHdrLen).toInt = buffLen.toInt - 8 := by
    rw [Int32.toInt_sub_of_range (by omega) (by omega), hhdr]
  rw [Int32.toNat_toUInt32_of_nonneg (by omega), hsub]
  omega

theorem Fits.buffer_pos {buffLen : Int32} {s : StoredFrame} (h : Fits buffLen s) : buffLen > 0 := by
  unfold Fits at h
  refine Int32.lt_iff_toInt_lt.2 ?_
  show (0 : Int) < buffLen.toInt
  omega

/-- What a read of the frame gives back. -/
def StoredFrame.result (s : StoredFrame) : ReadResult := .frame s.header.ts s.data

/-! ## In stored order -/

/-- The cursor stands at `pos`, before the frames `ss` and nothing else. -/
structure AtStream (bri : BasketReadInfo) (pos : Nat) (ss : List StoredFrame) : Prop where
  readPos : bri.readPos.toInt = pos
  streamEnd : (bri.beginPos + bri.fragmentSize).toInt = pos + (streamBytes ss).length

theorem strgBasketRead_normal {dev : Dev} {bgi : BasketGlobalInfo} {bri : BasketReadInfo}
    {buffLen : Int32} {pos : Nat} {s : StoredFrame} {ss : List StoredFrame}
    (henv : dev.env.Reliable) (hcur : AtStream bri pos (s :: ss)) (hs : s.Sound)
    (hfit : Fits buffLen s) (hend : pos + (streamBytes (s :: ss)).length ≤ basketSize)
    (h : Holds (dev.file (.basket bgi.basketIdx)) pos (streamBytes (s :: ss))) :
    ∃ bri', strgBasketRead dev bgi bri .normal buffLen = (s.result, bri') ∧
      AtStream bri' (pos + s.bytes.length) ss := by
  have hstream := hcur.streamEnd
  have hreadPos := hcur.readPos
  have hsize : basketSize = 2 ^ 30 := rfl
  have hframeLen : basketFrameLen = 68 := rfl
  rw [streamBytes_cons, List.length_append, s.length_bytes] at hstream hend
  have hmore : ¬bri.readPos ≥ bri.beginPos + bri.fragmentSize := by
    rw [ge_iff_le, Int32.le_iff_toInt_le]
    omega
  have hpos : bri.readPos.toUInt32.toNat = pos := by
    rw [Int32.toNat_toUInt32_of_nonneg (by omega)]
    omega
  have hread : strgBasketReadFrame dev bgi.basketIdx bri.readPos.toUInt32
      (buffLen - storageFrameHdrLen) = some (s.header, s.data) := by
    refine strgBasketReadFrame_holds henv hs ?_ hfit.le_buffer ?_
    · rw [hpos, s.length_bytes]
      omega
    · rw [hpos]
      exact (holds_append.1 h).1
  have hword : (UInt32.ofNat basketFrameLen + UInt32.ofNat s.data.length).toNat =
      basketFrameLen + s.data.length := by
    rw [UInt32.toNat_add, UInt32.toNat_ofNat', UInt32.toNat_ofNat']
    omega
  have hstep : (UInt32.ofNat basketFrameLen + UInt32.ofNat s.data.length).toInt32.toInt =
      (basketFrameLen + s.data.length : Nat) := by
    rw [UInt32.toInt_toInt32_of_lt (by rw [hword]; omega), hword]
  have hnext : (bri.readPos + (UInt32.ofNat basketFrameLen +
      UInt32.ofNat s.data.length).toInt32).toInt = (pos + s.bytes.length : Nat) := by
    rw [Int32.toInt_add_of_range (by omega) (by omega), hstep, hreadPos, s.length_bytes]
    omega
  have hrounds : readRounds = basketSize / basketFrameLen + 1 := rfl
  refine ⟨bri.pastFrame s.header s.data, ?_, ?_⟩
  · simp only [strgBasketRead, if_pos hfit.buffer_pos, hrounds, readForward, if_neg hmore, hread,
      StorageReadCmd.wants, if_true]
    rfl
  · exact {
      readPos := hnext
      streamEnd := by
        show (bri.beginPos + bri.fragmentSize).toInt = _
        rw [hstream, s.length_bytes]
        omega }

theorem playback_normal (dev : Dev) (bgi : BasketGlobalInfo) {buffLen : Int32}
    (henv : dev.env.Reliable) (hbuff : buffLen > 0) {ss : List StoredFrame} :
    ∀ {bri : BasketReadInfo} {pos : Nat}, AtStream bri pos ss → (∀ s ∈ ss, s.Sound) →
      (∀ s ∈ ss, Fits buffLen s) → pos + (streamBytes ss).length ≤ basketSize →
      Holds (dev.file (.basket bgi.basketIdx)) pos (streamBytes ss) →
      playback dev bgi .normal buffLen (ss.length + 1) bri =
        ss.map StoredFrame.result ++ [.done] := by
  induction ss with
  | nil =>
      intro bri pos hcur _ _ _ _
      have hstop : bri.readPos ≥ bri.beginPos + bri.fragmentSize := by
        rw [ge_iff_le, Int32.le_iff_toInt_le, hcur.readPos, hcur.streamEnd]
        simp
      have hrounds : readRounds = basketSize / basketFrameLen + 1 := rfl
      simp [playback, strgBasketRead, hbuff, hrounds, readForward, hstop]
  | cons s ss ih =>
      intro bri pos hcur hsound hfit hend hholds
      obtain ⟨bri', hread, hcur'⟩ := strgBasketRead_normal henv hcur
        (hsound s List.mem_cons_self) (hfit s List.mem_cons_self) hend hholds
      rw [List.length_cons, playback, hread]
      rw [streamBytes_cons] at hend hholds
      rw [List.length_append] at hend
      have hrest := ih hcur' (fun x hx => hsound x (List.mem_cons_of_mem _ hx))
        (fun x hx => hfit x (List.mem_cons_of_mem _ hx)) (by omega) (holds_append.1 hholds).2
      simp only [hrest, List.map_cons, List.cons_append]

/-! ## Along the index -/

/-- A record and the frame it names, as they are in the file. -/
structure Names (file : ByteFile) (r : BasketIFrame × StoredFrame) : Prop where
  magic : r.1.magic = basketIframeMagic
  frame : Holds file r.1.framePos.toNat r.2.bytes
  inside : r.1.framePos.toNat + r.2.bytes.length ≤ basketSize

theorem indexed_names {file : ByteFile} {ss : List StoredFrame} :
    ∀ {pos : Nat}, Holds file pos (streamBytes ss) →
      pos + (streamBytes ss).length ≤ basketSize → ∀ r ∈ indexed pos ss, Names file r := by
  induction ss with
  | nil => exact fun _ _ r hr => absurd hr List.not_mem_nil
  | cons s ss ih =>
      intro pos hholds hend r hr
      have hsize : basketSize = 2 ^ 30 := rfl
      rw [streamBytes_cons] at hholds hend
      rw [List.length_append] at hend
      obtain ⟨hhead, htail⟩ := holds_append.1 hholds
      have hrest := ih htail (by omega)
      have hpos : (UInt32.ofNat pos).toNat = pos := by
        rw [UInt32.toNat_ofNat']
        omega
      rw [indexed] at hr
      split at hr
      · obtain rfl | hr := List.mem_cons.1 hr
        · exact ⟨rfl, hpos.symm ▸ hhead, by
          show (UInt32.ofNat pos).toNat + s.bytes.length ≤ _
          omega⟩
        · exact hrest r hr
      · exact hrest r hr

/-- How far the next index read of a session moves. -/
def BasketReadInfo.nextOft (bri : BasketReadInfo) : Int32 := if bri.readCnt = 0 then 0 else 1

/-- The next index read takes the record at `slot`; `n` of them are left. -/
structure AtIndex (bgi : BasketGlobalInfo) (bri : BasketReadInfo) (slot : Int) (n : Nat) :
    Prop where
  next : (bri.iframeIdx + bri.nextOft).toInt = slot
  indexEnd : ((bgi.bfList.getD bri.bf default).firstIframeIdx + bri.iframeNum).toInt = slot + n
  slot_nonneg : 0 ≤ slot
  slot_le : slot + n ≤ basketIframeNum
  cnt_nonneg : 0 ≤ bri.readCnt.toInt
  cnt_le : bri.readCnt.toInt + n ≤ basketIframeNum

theorem strgBasketRead_forward1Iframe {dev : Dev} {bgi : BasketGlobalInfo}
    {bri : BasketReadInfo} {buffLen : Int32} (hbuff : buffLen > 0) :
    strgBasketRead dev bgi bri .forward1Iframe buffLen =
      readAlongIndex dev bgi bri bri.nextOft buffLen := by
  simp only [strgBasketRead, if_pos hbuff, BasketReadInfo.nextOft, StorageReadCmd.iframeOft]
  split <;> rfl

theorem readAlongIndex_next {dev : Dev} {bgi : BasketGlobalInfo} {bri : BasketReadInfo}
    {buffLen : Int32} {slot : Int} {r : BasketIFrame × StoredFrame}
    {rs : List (BasketIFrame × StoredFrame)} (henv : dev.env.Reliable)
    (hcur : AtIndex bgi bri slot (r :: rs).length)
    (hr : Names (dev.file (.basket bgi.basketIdx)) r) (hs : r.2.Sound) (hfit : Fits buffLen r.2)
    (h : Holds (dev.file (.basket bgi.basketIdx)) (slotOft slot)
      (BasketIFrame.format.encode r.1)) :
    ∃ bri', readAlongIndex dev bgi bri bri.nextOft buffLen = (r.2.result, bri') ∧
      AtIndex bgi bri' (slot + 1) rs.length := by
  have hnext := hcur.next
  have hend := hcur.indexEnd
  have h0 := hcur.slot_nonneg
  have hmax := hcur.slot_le
  have hcnt := hcur.cnt_nonneg
  have hcntle := hcur.cnt_le
  rw [List.length_cons] at hend hmax hcntle
  have hmore : ¬(bri.iframeIdx + bri.nextOft < 0 ∨ bri.iframeIdx + bri.nextOft ≥
      (bgi.bfList.getD bri.bf default).firstIframeIdx + bri.iframeNum) := by
    have hzero : (0 : Int32).toInt = 0 := rfl
    rw [ge_iff_le, Int32.lt_iff_toInt_lt, Int32.le_iff_toInt_le, hnext, hend, hzero]
    omega
  have hrecord : strgBasketReadIframe dev bgi.basketIdx (bri.iframeIdx + bri.nextOft) =
      some r.1 :=
    strgBasketReadIframe_holds henv hr.magic (by omega) (by omega) (hnext.symm ▸ h)
  have hframe : strgBasketReadFrame dev bgi.basketIdx r.1.framePos
      (buffLen - storageFrameHdrLen) = some (r.2.header, r.2.data) :=
    strgBasketReadFrame_holds henv hs hr.inside hfit.le_buffer hr.frame
  rw [basketIframeNum_eq] at hmax hcntle
  have hone : (1 : Int32).toInt = 1 := rfl
  have hcnt' : (bri.readCnt + 1).toInt = bri.readCnt.toInt + 1 :=
    Int32.toInt_add_of_range (by omega) (by omega)
  have hne : bri.readCnt + 1 ≠ 0 := by
    intro e
    rw [e] at hcnt'
    have hzero : (0 : Int32).toInt = 0 := rfl
    omega
  refine ⟨bri.pastRecord bri.nextOft r.1 r.2.data, ?_, ?_⟩
  · simp only [readAlongIndex, if_neg hmore, hrecord, hframe]
    rfl
  · exact {
      next := by
        show (bri.iframeIdx + bri.nextOft + if bri.readCnt + 1 = 0 then 0 else 1).toInt = _
        rw [if_neg hne, Int32.toInt_add_of_range (by omega) (by omega), hone, hnext]
      indexEnd := by
        show ((bgi.bfList.getD bri.bf default).firstIframeIdx + bri.iframeNum).toInt = _
        omega
      slot_nonneg := by omega
      slot_le := by
        rw [basketIframeNum_eq]
        omega
      cnt_nonneg := by
        show 0 ≤ (bri.readCnt + 1).toInt
        omega
      cnt_le := by
        rw [basketIframeNum_eq]
        show (bri.readCnt + 1).toInt + _ ≤ _
        omega }

theorem playback_forward1Iframe (dev : Dev) (bgi : BasketGlobalInfo) {buffLen : Int32}
    (henv : dev.env.Reliable) (hbuff : buffLen > 0) {rs : List (BasketIFrame × StoredFrame)} :
    ∀ {bri : BasketReadInfo} {slot : Int}, AtIndex bgi bri slot rs.length →
      (∀ r ∈ rs, Names (dev.file (.basket bgi.basketIdx)) r) → (∀ r ∈ rs, r.2.Sound) →
      (∀ r ∈ rs, Fits buffLen r.2) →
      Holds (dev.file (.basket bgi.basketIdx)) (slotOft slot) (indexBytes rs) →
      playback dev bgi .forward1Iframe buffLen (rs.length + 1) bri =
        rs.map (fun r => r.2.result) ++ [.done] := by
  induction rs with
  | nil =>
      intro bri slot hcur _ _ _ _
      have hstop : bri.iframeIdx + bri.nextOft ≥
          (bgi.bfList.getD bri.bf default).firstIframeIdx + bri.iframeNum := by
        rw [ge_iff_le, Int32.le_iff_toInt_le, hcur.next, hcur.indexEnd]
        simp
      simp only [List.length_nil, playback, strgBasketRead_forward1Iframe hbuff,
        readAlongIndex, if_pos (Or.inr hstop), List.map_nil, List.nil_append]
  | cons r rs ih =>
      intro bri slot hcur hnames hsound hfit hholds
      rw [indexBytes, List.flatMap_cons, holds_append] at hholds
      obtain ⟨bri', hread, hcur'⟩ := readAlongIndex_next henv hcur
        (hnames r List.mem_cons_self) (hsound r List.mem_cons_self)
        (hfit r List.mem_cons_self) hholds.1
      have hslot : slotOft slot + (BasketIFrame.format.encode r.1).length = slotOft (slot + 1) := by
        have := hcur.slot_nonneg
        rw [WordRecord.WordFormat.length_encode, BasketIFrame.format_len, slotOft, slotOft,
          show (slot + 1).toNat = slot.toNat + 1 by omega, Nat.mul_add]
        omega
      have hrest := ih hcur' (fun x hx => hnames x (List.mem_cons_of_mem _ hx))
        (fun x hx => hsound x (List.mem_cons_of_mem _ hx))
        (fun x hx => hfit x (List.mem_cons_of_mem _ hx)) (hslot ▸ hholds.2)
      rw [List.length_cons, playback, strgBasketRead_forward1Iframe hbuff, hread]
      simp only [hrest, List.map_cons, List.cons_append]

end Nvr.Storage
