import Nvr.Proofs.Playback

/-!
# From the first write to the last read

A fragment that is recorded and then played. `Recording` follows the calls of
`strg_basket_write`: the fragment being written holds the frames accepted so
far, and closing it touches neither of its areas. `Playback.lean` reads the
stream that is left.
-/

namespace Nvr.Storage

open ByteFile

/-- One call of `strg_basket_write`. -/
structure WriteCall where
  minutes : Int32
  curTime : UInt64
  frame : Frame

/-- The calls in turn, as long as each of them takes its frame. -/
def strgBasketWriteAll : Basket → List WriteCall → Option Basket
  | b, [] => some b
  | b, c :: cs =>
      let written := strgBasketWrite b c.minutes c.curTime c.frame
      if written.1 > 0 then strgBasketWriteAll written.2 cs else none

/-- The stored frame is the one of the call. -/
structure Stores (c : WriteCall) (s : StoredFrame) : Prop where
  data : s.data = c.frame.data
  isIframe : s.isIframe = decide (c.frame.frameType = .i)
  sound : 8 ≤ c.frame.data.length → s.Sound

/-- The fragment at place `i` is the one being written, and holds `ss`. -/
structure Recording (b : Basket) (i : Nat) (ss : List StoredFrame) : Prop where
  layout : Layout b.bgi
  cur : b.bfi.curBf = some i
  curIdx : b.bfi.curBfIdx = i
  last : i + 1 = b.bgi.bfList.length
  recorded : Recorded (b.dev.file (.basket b.bgi.basketIdx)) (b.bgi.bfList.getD i default) ss

theorem recording_writeStart {b b₁ : Basket} {chn : Int32} {recordType : RecordType}
    (hlayout : Layout b.bgi) (h : strgBasketWriteStart b chn recordType = (0, b₁)) :
    Recording b₁ b.bgi.bfList.length [] ∧ b₁.dev.env = b.dev.env := by
  obtain ⟨hfail, _⟩ | ⟨bf, hbf, _, heq⟩ := strgBasketWriteStart_cases b chn recordType
  · rw [h] at hfail
    cases hfail
  · rw [h] at heq
    obtain rfl := (Prod.mk.inj heq).2
    obtain ⟨_, _, _, hbytes, hslots⟩ := strgBasketCreateFragment_some hlayout hbf
    have hget : (b.bgi.addFragment bf.setWriting recordType).bfList.getD
        b.bgi.bfList.length default = bf.setWriting := by
      simp [BasketGlobalInfo.addFragment]
    refine ⟨⟨hlayout.addFragment hbf, rfl, rfl, by simp [BasketGlobalInfo.addFragment], ?_⟩,
      rfl⟩
    rw [hget]
    exact recorded_empty _ hbytes hslots

@[simp] theorem putTaken_env (dev : Dev) (bgi : BasketGlobalInfo) (bf : BasketFragment)
    (f : Frame) (ts : Timeval) : (dev.putTaken bgi bf f ts).env = dev.env := by
  unfold Dev.putTaken
  simp only
  split <;> rfl

theorem Recording.write {b : Basket} {i : Nat} {ss : List StoredFrame} {c : WriteCall}
    (h : Recording b i ss) (hret : (strgBasketWrite b c.minutes c.curTime c.frame).1 > 0) :
    ∃ s, Stores c s ∧
      Recording (strgBasketWrite b c.minutes c.curTime c.frame).2 i (ss ++ [s]) ∧
      (strgBasketWrite b c.minutes c.curTime c.frame).2.dev.env = b.dev.env := by
  obtain ⟨hle, _⟩ | ⟨j, hacc, heq⟩ := strgBasketWrite_cases b c.minutes c.curTime c.frame
  · exact absurd hret (not_lt.2 hle)
  · obtain rfl : i = j := Option.some.inj (h.cur.symm.trans hacc.cur)
    have hrecorded := h.recorded.takeFrame h.layout h.last hacc.iframeRoom hacc.frameRoom
      (secOf c.curTime) (stampFrame b.bfi c.curTime c.frame).2
    rw [heq]
    refine ⟨storedFrame b.dev b.bgi c.frame (stampFrame b.bfi c.curTime c.frame).2,
      ⟨rfl, storedFrame_isIframe _ _ _ _, fun hlen => storedFrame_sound hlen _⟩,
      ⟨h.layout.takeFrame h.last hacc.iframeRoom hacc.frameRoom _, ?_, ?_, ?_, ?_⟩,
      putTaken_env _ _ _ _ _⟩
    · rw [stampFrame_curBf]
      exact h.cur
    · rw [stampFrame_curBfIdx]
      exact h.curIdx
    · simpa [BasketGlobalInfo.takeFrame, strgBasketUpdateFragment] using h.last
    · obtain ⟨before, bf, hlist, hlen, hget, hmodify⟩ := Tiling.modify_last h.last default
      have hget' : (b.bgi.takeFrame i (secOf c.curTime) c.frame).bfList.getD i default =
          updateFragment (b.bgi.bfList.getD i default) (secOf c.curTime) c.frame := by
        have hlist' : (b.bgi.takeFrame i (secOf c.curTime) c.frame).bfList =
            before ++ [updateFragment bf (secOf c.curTime) c.frame] := hmodify _
        rw [hlist', hget, ← hlen]
        simp
      rw [hget']
      exact hrecorded

theorem Recording.writeAll {i : Nat} {cs : List WriteCall} :
    ∀ {b b' : Basket} {ss : List StoredFrame}, Recording b i ss →
      strgBasketWriteAll b cs = some b' →
      ∃ ss', List.Forall₂ Stores cs ss' ∧ Recording b' i (ss ++ ss') ∧
        b'.dev.env = b.dev.env := by
  induction cs with
  | nil =>
      intro b b' ss h hall
      obtain rfl := Option.some.inj hall
      exact ⟨[], .nil, by rw [List.append_nil]; exact h, rfl⟩
  | cons c cs ih =>
      intro b b' ss h hall
      rw [strgBasketWriteAll] at hall
      split at hall
      · next hret =>
          obtain ⟨s, hs, hrec, henv⟩ := h.write hret
          obtain ⟨ss', hss', hrec', henv'⟩ := ih hrec hall
          exact ⟨s :: ss', .cons hs hss', by simpa using hrec', henv'.trans henv⟩
      · cases hall

/-- A write into the header and the fragment table is apart from both areas. -/
theorem Recorded.write_tables {file : ByteFile} {bf : BasketFragment} {ss : List StoredFrame}
    (h : Recorded file bf ss) (hpos : basketFrameOft ≤ bf.pos) {off : Nat} {data : List UInt8}
    (hend : off + data.length ≤ basketIframeOft) : Recorded (file.write off data) bf ss := by
  have hareas : basketIframeOft ≤ basketFrameOft := by decide
  refine h.write_apart (.inr (by omega)) (.inr ?_)
  rw [slotOft]
  omega

theorem Recording.writeStop {b : Basket} {i : Nat} {ss : List StoredFrame}
    (h : Recording b i ss) :
    Layout (strgBasketWriteStop b).bgi ∧ i + 1 = (strgBasketWriteStop b).bgi.bfList.length ∧
      Recorded ((strgBasketWriteStop b).dev.file
          (.basket (strgBasketWriteStop b).bgi.basketIdx))
        ((strgBasketWriteStop b).bgi.bfList.getD i default) ss ∧
      (strgBasketWriteStop b).dev.env = b.dev.env := by
  obtain ⟨before, bf, hlist, hget, hpos, _, _, _, _, _, hmodify⟩ := h.layout.current h.last
  have hlen : before.length = i := by
    have hlast := h.last
    rw [hlist, List.length_append, List.length_singleton] at hlast
    omega
  have hlist' : (b.bgi.closeFragment i).bfList = before ++ [bf.clearWriting] := hmodify _
  have hclose : (b.bgi.closeFragment i).bfList.getD i default = bf.clearWriting := by
    rw [hlist', ← hlen]
    simp
  have hi : i < basketFragmentNum := by
    have := h.layout.fragmentNum_le
    have := h.last
    omega
  rw [strgBasketWriteStop_cur h.cur]
  refine ⟨h.layout.closeFragment h.last, ?_, ?_, ?_⟩
  · show i + 1 = (b.bgi.closeFragment i).bfList.length
    rw [hlist', List.length_append, hlen]
    rfl
  · show Recorded (Dev.file _ (.basket b.bgi.basketIdx))
      ((b.bgi.closeFragment i).bfList.getD i default) ss
    obtain ⟨m, hm⟩ := strgWrite_commit b.dev (.basket b.bgi.basketIdx)
      (BasketFragment.format.encode bf.clearWriting) (fragmentOft b.bfi.curBfIdx)
    rw [strgBasketWriteGlobal, strgBasketWriteFragment, hclose, hm]
    obtain ⟨n, hn⟩ := strgWrite_commit
      (b.dev.commit (.write (.basket b.bgi.basketIdx) (fragmentOft b.bfi.curBfIdx)
        ((BasketFragment.format.encode bf.clearWriting).take m)))
      (.basket b.bgi.basketIdx) (BasketGlobal.format.encode (b.bgi.closeFragment i).bg)
      basketGlobalOft
    rw [hn, Dev.file_commit_write, Dev.file_commit_write]
    have hrec : Recorded (b.dev.file (.basket b.bgi.basketIdx)) bf.clearWriting ss := by
      have hrec := h.recorded
      rw [hget] at hrec
      exact hrec.congr rfl rfl rfl rfl
    have hpos' : basketFrameOft ≤ bf.clearWriting.pos := by
      show basketFrameOft ≤ bf.pos
      omega
    refine (hrec.write_tables hpos' ?_).write_tables hpos' ?_
    · rw [List.length_take, WordRecord.WordFormat.length_encode, BasketFragment.format_len,
        h.curIdx, fragmentOft, basketFragmentOft, basketIframeOft, basketFragmentOft,
        basketFragmentSize]
      rw [basketFragmentNum] at *
      rw [basketFragmentLen]
      omega
    · rw [List.length_take, WordRecord.WordFormat.length_encode, BasketGlobal.format_len,
        basketIframeOft_eq, basketGlobalOft, basketGlobalLen]
      omega
  · show (strgBasketWriteGlobal _ _ _).2.env = b.dev.env
    rw [strgBasketWriteGlobal, strgWrite_env, strgBasketWriteFragment, strgWrite_env]

/-- The query that names a whole fragment. -/
structure AsksFor (q : RecordQueryInfo) (bf : BasketFragment) (i : Nat) : Prop where
  bfIdx : q.bfIdx = Int32.ofNat i
  beginIframeIdx : q.beginIframeIdx = bf.firstIframeIdx
  iframeNum : q.iframeNum = bf.iframeNum
  fragmentSize : q.fragmentSize = bf.fragmentSize.toInt32

/-- What the reads of the frames give back, under the time stamps they were
stored with. -/
def resultsOf (calls : List (WriteCall × Timeval)) : List ReadResult :=
  calls.map fun c => .frame c.2 c.1.frame.data

/-- The calls that store an I-frame. -/
def iframesOf (calls : List (WriteCall × Timeval)) : List (WriteCall × Timeval) :=
  calls.filter fun c => c.1.frame.frameType = .i

/-- Each call with the time stamp of the frame it stored. -/
def stamped (cs : List WriteCall) (ss : List StoredFrame) : List (WriteCall × Timeval) :=
  cs.zip (ss.map fun s => s.header.ts)

theorem resultsOf_stamped {cs : List WriteCall} {ss : List StoredFrame}
    (h : List.Forall₂ Stores cs ss) :
    ss.map StoredFrame.result = resultsOf (stamped cs ss) ∧
      (ss.filter StoredFrame.isIframe).map StoredFrame.result =
        resultsOf (iframesOf (stamped cs ss)) := by
  induction h with
  | nil => exact ⟨rfl, rfl⟩
  | @cons c s cs ss hs _ ih =>
      obtain ⟨hall, hiframes⟩ := ih
      have hhead : s.result = .frame s.header.ts c.frame.data := by
        rw [StoredFrame.result, hs.data]
      refine ⟨?_, ?_⟩
      · simp only [List.map_cons, hall, hhead, stamped, List.zip_cons_cons, resultsOf]
      · rw [List.filter_cons, hs.isIframe]
        simp only [stamped, List.map_cons, List.zip_cons_cons, iframesOf, List.filter_cons]
        split
        · rw [List.map_cons, hhead, hiframes]
          rfl
        · exact hiframes

/-- Opening a session at the start of a recorded fragment. -/
theorem strgBasketReadStart_recorded {dev : Dev} {bgi : BasketGlobalInfo} {i : Nat}
    {s : StoredFrame} {ss : List StoredFrame} {q : RecordQueryInfo} (henv : dev.env.Reliable)
    (hlayout : Layout bgi) (hlast : i + 1 = bgi.bfList.length)
    (h : Recorded (dev.file (.basket bgi.basketIdx)) (bgi.bfList.getD i default) (s :: ss))
    (hs : s.isIframe = true) (hq : AsksFor q (bgi.bfList.getD i default) i) :
    ∃ bri sfi, strgBasketReadStart dev bgi q = (some (bri, sfi), dev.wait, bgi.addReader) ∧
      AtStream bri (bgi.bfList.getD i default).pos (s :: ss) ∧
      AtIndex bgi.addReader bri (bgi.bfList.getD i default).slot
        (indexed (bgi.bfList.getD i default).pos (s :: ss)).length := by
  obtain ⟨before, bf, hlist, hget, hpos, hslot, hnonneg, hbefore, hspace, hslots, _⟩ :=
    hlayout.current hlast
  have hbefore_len : before.length = i := by
    rw [hlist, List.length_append, List.length_singleton] at hlast
    omega
  rw [hget] at h hq ⊢
  have hbytes := h.bytes
  have hrecords := h.slots
  have hnum := hlayout.fragmentNum
  have hnum_le := hlayout.fragmentNum_le
  rw [basketFragmentNum] at hnum_le
  rw [basketFrameOft_eq] at hpos
  rw [basketFrameSize_eq] at hspace
  have hindexed : indexed bf.pos (s :: ss) =
      (s.record bf.pos, s) :: indexed (bf.pos + s.bytes.length) ss := by
    rw [indexed, if_pos hs]
  have hlen : 0 < (indexed bf.pos (s :: ss)).length := by
    rw [hindexed]
    exact Nat.succ_pos _
  have hidx : q.bfIdx.toUInt32.toNat = i := by
    rw [hq.bfIdx, Int32.toUInt32_ofNat', UInt32.toNat_ofNat']
    omega
  have hlt : q.bfIdx.toUInt32 < bgi.bg.fragmentNum := by
    rw [UInt32.lt_iff_toNat_lt, hidx, hnum]
    omega
  have hnth : bgi.bfList[i]? = some bf := by
    rw [hlist, ← hbefore_len]
    simp
  have hrecord : strgBasketReadIframe dev.wait bgi.basketIdx bf.firstIframeIdx =
      some (s.record bf.pos) := by
    have hwait : dev.wait.env.Reliable := henv
    refine strgBasketReadIframe_holds hwait rfl
      (by show 0 ≤ bf.slot; omega) ?_ ?_
    · show bf.slot < _
      omega
    · have hindex := h.index
      rw [hindexed, indexBytes, List.flatMap_cons, holds_append] at hindex
      exact hindex.1
  have hword : (UInt32.ofNat bf.pos).toNat = bf.pos := by
    rw [UInt32.toNat_ofNat']
    omega
  have hframePos : (UInt32.ofNat bf.pos).toInt32.toInt = bf.pos := by
    rw [UInt32.toInt_toInt32_of_lt (by omega), hword]
  have hsize : bf.fragmentSize.toInt32.toInt = bf.bytes :=
    UInt32.toInt_toInt32_of_lt (by
      show bf.bytes < 2 ^ 31
      omega)
  refine ⟨{ bgi := bgi.basketIdx
            bf := i
            beginIframeIdx := bf.firstIframeIdx
            iframeIdx := bf.firstIframeIdx
            iframeNum := bf.iframeNum
            readPos := (UInt32.ofNat bf.pos).toInt32
            readCnt := 0
            beginPos := (UInt32.ofNat bf.pos).toInt32
            fragmentSize := bf.fragmentSize.toInt32 }, bf.info, ?_, ?_, ?_⟩
  · unfold strgBasketReadStart
    rw [if_pos hlt, hidx, hnth]
    simp only [strgBasketOpen, if_pos (henv.openOk _), hq.beginIframeIdx, hrecord, hq.iframeNum,
      hq.fragmentSize]
    rfl
  · refine ⟨hframePos, ?_⟩
    show ((UInt32.ofNat bf.pos).toInt32 + bf.fragmentSize.toInt32).toInt = _
    rw [Int32.toInt_add_of_range (by omega) (by omega), hframePos, hsize, hbytes]
  · rw [basketIframeNum_eq] at hslots
    have hslotEnd : (bf.firstIframeIdx + bf.iframeNum).toInt = bf.slot + bf.slots :=
      Int32.toInt_add_of_range (by show -2 ^ 31 ≤ bf.slot + bf.slots; omega)
        (by show bf.slot + bf.slots < 2 ^ 31; omega)
    have hget' : bgi.addReader.bfList.getD i default = bf := hget
    have hzero : (0 : Int32).toInt = 0 := rfl
    refine ⟨?_, ?_, by omega, by rw [basketIframeNum_eq]; omega, hzero.ge, ?_⟩
    · show (bf.firstIframeIdx + 0).toInt = bf.slot
      rw [Int32.add_zero]
    · simp only [hget']
      rw [hslotEnd, hrecords]
    · rw [basketIframeNum_eq]
      show (0 : Int32).toInt + _ ≤ _
      omega

/-- A fragment plays back as it was recorded: in stored order all its frames,
byte for byte, and along the index its I-frames, and then nothing more. -/
theorem playback_recorded {b b₁ b₂ : Basket} {chn : Int32} {recordType : RecordType}
    {c : WriteCall} {cs : List WriteCall} {buffLen : Int32} {q : RecordQueryInfo}
    (hlayout : Layout b.bgi) (henv : b.dev.env.Reliable)
    (hstart : strgBasketWriteStart b chn recordType = (0, b₁))
    (hwrite : strgBasketWriteAll b₁ (c :: cs) = some b₂) (hfirst : c.frame.frameType = .i)
    (hsize : ∀ c' ∈ c :: cs, 8 ≤ c'.frame.data.length ∧
      (c'.frame.data.length : Int) + 8 ≤ buffLen.toInt)
    (hq : AsksFor q ((strgBasketWriteStop b₂).bgi.bfList.getD b.bgi.bfList.length default)
      b.bgi.bfList.length) :
    ∃ bri sfi dev bgi stamps,
      strgBasketReadStart (strgBasketWriteStop b₂).dev (strgBasketWriteStop b₂).bgi q =
        (some (bri, sfi), dev, bgi) ∧
      stamps.length = (c :: cs).length ∧
      playback dev bgi .normal buffLen ((c :: cs).length + 1) bri =
        resultsOf ((c :: cs).zip stamps) ++ [.done] ∧
      playback dev bgi .forward1Iframe buffLen
          ((iframesOf ((c :: cs).zip stamps)).length + 1) bri =
        resultsOf (iframesOf ((c :: cs).zip stamps)) ++ [.done] := by
  obtain ⟨hrec, henv₁⟩ := recording_writeStart hlayout hstart
  obtain ⟨stored, hss, hrec, henv₂⟩ := hrec.writeAll hwrite
  obtain ⟨hlayout', hlast, hrecorded, henv₃⟩ := hrec.writeStop
  have henv' : (strgBasketWriteStop b₂).dev.env.Reliable := by
    rw [henv₃, henv₂, henv₁]
    exact henv
  generalize strgBasketWriteStop b₂ = b₃ at *
  rw [List.nil_append] at hrecorded
  have hresults := resultsOf_stamped hss
  have hlen := hss.length_eq
  -- every stored frame passes the reader's checks and fits its buffer
  have hsound : ∀ s ∈ stored, s.Sound ∧ Fits buffLen s := by
    intro s hs
    obtain ⟨n, hn, rfl⟩ := List.getElem_of_mem hs
    have hstores := hss.get (by omega) hn
    have hmem := hsize _ (List.getElem_mem (by omega : n < (c :: cs).length))
    refine ⟨hstores.sound hmem.1, ?_⟩
    unfold Fits
    have hdata := hstores.data
    simp only [List.get_eq_getElem] at hdata
    rw [hdata]
    exact hmem.2
  cases hss with
  | @cons _ s _ ss hs htail =>
  have hiframe : s.isIframe = true := by rw [hs.isIframe, hfirst]; rfl
  obtain ⟨bri, sfi, hread, hstream, hindex⟩ :=
    strgBasketReadStart_recorded henv' hlayout' hlast hrecorded hiframe hq
  have hbuff : buffLen > 0 := (hsound s List.mem_cons_self).2.buffer_pos
  obtain ⟨before, bf, _, hget, hpos, _, _, _, hspace, _⟩ := hlayout'.current hlast
  have hbytes := hrecorded.bytes
  have hend : (b₃.bgi.bfList.getD b.bgi.bfList.length default).pos +
      (streamBytes (s :: ss)).length ≤ basketSize := by
    have harea : basketFrameOft + basketFrameSize = basketSize := rfl
    rw [← hbytes, hget]
    omega
  have hnames := indexed_names hrecorded.frames hend
  have hframes : ∀ r ∈ indexed (b₃.bgi.bfList.getD b.bgi.bfList.length default).pos (s :: ss),
      r.2 ∈ s :: ss := by
    intro r hr
    have hmem := List.mem_map_of_mem (f := Prod.snd) hr
    rw [indexed_snd] at hmem
    exact (List.mem_filter.1 hmem).1
  refine ⟨bri, sfi, _, _, (s :: ss).map fun s => s.header.ts, hread, by simp [hlen], ?_, ?_⟩
  · have hplay := playback_normal b₃.dev.wait b₃.bgi.addReader henv' hbuff
      hstream (fun x hx => (hsound x hx).1) (fun x hx => (hsound x hx).2) hend hrecorded.frames
    rw [hlen, hplay, hresults.1]
    rfl
  · have hplay := playback_forward1Iframe b₃.dev.wait b₃.bgi.addReader henv'
      hbuff hindex hnames (fun r hr => (hsound _ (hframes r hr)).1)
      (fun r hr => (hsound _ (hframes r hr)).2) hrecorded.index
    have hmap : (indexed (b₃.bgi.bfList.getD b.bgi.bfList.length default).pos (s :: ss)).map
        (fun r => r.2.result) = resultsOf (iframesOf (stamped (c :: cs) (s :: ss))) := by
      rw [← hresults.2, ← indexed_snd (b₃.bgi.bfList.getD b.bgi.bfList.length default).pos,
        List.map_map]
      rfl
    have hcount : (indexed (b₃.bgi.bfList.getD b.bgi.bfList.length default).pos
        (s :: ss)).length = (iframesOf (stamped (c :: cs) (s :: ss))).length := by
      have := congrArg List.length hmap
      simpa [resultsOf] using this
    rw [hmap, hcount] at hplay
    exact hplay

/-- A basket of a blank disk, reset for channel 0 in generation 1. -/
def blankBasket : Basket := (strgBasketReset ⟨.blank, default, .fresh 0⟩ 0 1).2

/-- A call that stores an I-frame of eight bytes. -/
def iframeCall : WriteCall where
  minutes := 0
  curTime := 1000000
  frame := {
    data := [1, 2, 3, 4, 5, 6, 7, 8]
    frameNo := 1
    frameType := .i
    encodeType := .h264
    timeStamp := 0
    size_lt := by decide }

/-- The basket once that frame has been recorded. -/
def recordedBasket : Basket :=
  strgBasketWriteStop (strgBasketWrite (strgBasketWriteStart blankBasket 0 recordTimeType).2
    iframeCall.minutes iframeCall.curTime iframeCall.frame).2

theorem playback_recorded_iframe :
    ∃ bri sfi dev bgi stamps,
      strgBasketReadStart recordedBasket.dev recordedBasket.bgi
          ⟨0, 0, 0, 0, 0, 1, 0, 0, 76, 0⟩ = (some (bri, sfi), dev, bgi) ∧
      stamps.length = [iframeCall].length ∧
      playback dev bgi .normal 16 ([iframeCall].length + 1) bri =
        resultsOf ([iframeCall].zip stamps) ++ [.done] ∧
      playback dev bgi .forward1Iframe 16
          ((iframesOf ([iframeCall].zip stamps)).length + 1) bri =
        resultsOf (iframesOf ([iframeCall].zip stamps)) ++ [.done] := by
  have hstart : strgBasketWriteStart blankBasket 0 recordTimeType =
      (0, (strgBasketWriteStart blankBasket 0 recordTimeType).2) :=
    Prod.ext (by decide +kernel) rfl
  have hwrite : strgBasketWriteAll (strgBasketWriteStart blankBasket 0 recordTimeType).2
      [iframeCall] = some (strgBasketWrite (strgBasketWriteStart blankBasket 0 recordTimeType).2
        iframeCall.minutes iframeCall.curTime iframeCall.frame).2 := by
    unfold strgBasketWriteAll
    exact if_pos (by decide +kernel)
  exact playback_recorded (layout_reset _ _ _) Dev.blank_reliable hstart hwrite rfl (by decide)
    ⟨by decide +kernel, by decide +kernel, by decide +kernel, by decide +kernel⟩

/-! ## Recorded I-frames -/

/-- A call that stores an I-frame of eight bytes at a time in seconds. -/
def iframeAt (sec : UInt64) : WriteCall where
  minutes := 0
  curTime := sec * 1000
  frame := {
    data := [1, 2, 3, 4, 5, 6, 7, 8]
    frameNo := 1
    frameType := .i
    encodeType := .h264
    timeStamp := sec * 1000000
    size_lt := by decide }

/-- A basket in which I-frames have been recorded at these times. -/
def recordedAt (secs : List UInt64) : Basket :=
  strgBasketWriteStop ((strgBasketWriteAll (strgBasketWriteStart blankBasket 0 recordTimeType).2
    (secs.map iframeAt)).getD blankBasket)

/-- The frame that is stored for one of them. -/
def storedAt (sec : UInt64) : StoredFrame :=
  storedFrame blankBasket.dev blankBasket.bgi (iframeAt sec).frame ⟨sec.toUInt32.toInt32, 0⟩

theorem storedAt_sound (sec : UInt64) : (storedAt sec).Sound := by
  have hlen : 8 ≤ (iframeAt sec).frame.data.length := Nat.le_refl 8
  exact storedFrame_sound hlen _

theorem recordedAt_layout {secs : List UInt64}
    (h : (strgBasketWriteAll (strgBasketWriteStart blankBasket 0 recordTimeType).2
      (secs.map iframeAt)).isSome) :
    Layout (recordedAt secs).bgi ∧ (recordedAt secs).dev.env.Reliable := by
  have hstart : strgBasketWriteStart blankBasket 0 recordTimeType =
      (0, (strgBasketWriteStart blankBasket 0 recordTimeType).2) :=
    Prod.ext (by decide +kernel) rfl
  obtain ⟨b, hwrite⟩ := Option.isSome_iff_exists.1 h
  obtain ⟨hrec, henv₁⟩ := recording_writeStart (layout_reset _ _ _) hstart
  obtain ⟨_, _, hrec, henv₂⟩ := hrec.writeAll hwrite
  obtain ⟨hlayout, _, _, henv₃⟩ := hrec.writeStop
  unfold recordedAt
  rw [hwrite, Option.getD_some]
  refine ⟨hlayout, ?_⟩
  rw [henv₃, henv₂, henv₁]
  exact Dev.blank_reliable

end Nvr.Storage
