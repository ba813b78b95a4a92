import Nvr.Proofs.SessionRange

/-!
# From one GOP to the next

The commands along the index go to a slot counted from the cursor's. After a
command along the index the cursor has the slot of the I-frame that was
delivered; after a frame in stored order that begins a GOP it has the next one.
So a step by one I-frame arrives where it should exactly when the slot is that
of the GOP in which the session stands.
-/

namespace Nvr.Storage

open ByteFile

namespace Opened

variable (o : Opened)

/-- The I-frames of the stretch with their records. -/
def iframes : List (BasketIFrame × StoredFrame) := indexed o.start o.frames

/-- A frame that starts at `p` is in GOP `k`: at I-frame `k` or after it, and
before I-frame `k + 1`. -/
structure InGop (p : Int) (k : Nat) : Prop where
  after : ∃ i ∈ o.iframes[k]?, (i.1.framePos.toNat : Int) ≤ p
  before : ∀ i ∈ o.iframes[k + 1]?, p < i.1.framePos.toNat

/-- The last frame that the session has delivered is in GOP `k`. -/
def InGopOf (w : Session) (k : Nat) : Prop := ∃ p ∈ w.delivered.head?, o.InGop p k

/-- I-frame `target` of the stretch, if there is one. -/
def iframeAt (target : Int) : Option (BasketIFrame × StoredFrame) :=
  if 0 ≤ target then o.iframes[target.toNat]? else none

/-- The call delivers I-frame `target` of the stretch if there is one, and
otherwise returns 0. -/
def StepsTo (dev : Dev) (bgi : BasketGlobalInfo) (w : Session) (cmd : StorageReadCmd)
    (buffLen : Int32) (target : Int) : Prop :=
  (∀ i ∈ o.iframeAt target, (strgBasketRead dev bgi w.bri cmd buffLen).1 = i.2.result ∧
    (w.read dev bgi cmd buffLen).delivered = (i.1.framePos.toNat : Int) :: w.delivered) ∧
  (o.iframeAt target = none → (strgBasketRead dev bgi w.bri cmd buffLen).1 = .done)

/-- The cursor has the slot of I-frame `k`. -/
def AtIframe (w : Session) (k : Nat) : Prop :=
  w.bri.iframeIdx.toInt = o.bri.beginIframeIdx.toInt + k

instance (w : Session) (k : Nat) : Decidable (o.AtIframe w k) :=
  inferInstanceAs (Decidable (_ = _))

instance (dev : Dev) (bgi : BasketGlobalInfo) (w : Session) (cmd : StorageReadCmd)
    (buffLen : Int32) (target : Int) : Decidable (o.StepsTo dev bgi w cmd buffLen target) :=
  inferInstanceAs (Decidable ((∀ i ∈ o.iframeAt target, _ ∧ _) ∧ (_ → _)))

end Opened

/-! ## The places of the I-frames -/

theorem streamBytes_eq_nil {ss : List StoredFrame} (h : (streamBytes ss).length = 0) : ss = [] := by
  cases ss with
  | nil => rfl
  | cons s ss =>
      have hlen : basketFrameLen = 68 := rfl
      rw [streamBytes_cons, List.length_append, s.length_bytes] at h
      omega

/-- A place in a stream is known by the bytes before it. -/
theorem prefix_eq_of_length {done done' frames : List StoredFrame} (h : done <+: frames)
    (h' : done' <+: frames)
    (hlen : (streamBytes done).length = (streamBytes done').length) : done = done' := by
  rcases List.prefix_or_prefix_of_prefix h h' with ⟨more, rfl⟩ | ⟨more, rfl⟩
  · rw [streamBytes_append, List.length_append] at hlen
    have hmore : more = [] := streamBytes_eq_nil (by omega)
    rw [hmore, List.append_nil]
  · rw [streamBytes_append, List.length_append] at hlen
    have hmore : more = [] := streamBytes_eq_nil (by omega)
    rw [hmore, List.append_nil]

section Reading

variable {o : Opened} {dev : Dev} {bgi : BasketGlobalInfo} {w : Session}

theorem Opened.length_iframes (o : Opened) :
    o.iframes.length = o.frames.countP StoredFrame.isIframe := length_indexed _ _

theorem Opened.records_of_iframes {i : Nat} {r : BasketIFrame} {s : StoredFrame}
    (h : o.iframes[i]? = some (r, s)) : o.records[i]? = some r := by
  unfold Opened.records recordsOf
  rw [List.getElem?_map]
  exact congrArg (Option.map Prod.fst) h

/-- The place of an I-frame of the stretch. -/
theorem Opened.Valid.iframe_place (hv : o.Valid) {i : Nat} {r : BasketIFrame} {s : StoredFrame}
    (h : o.iframes[i]? = some (r, s)) :
    ∃ done left, o.frames = done ++ s :: left ∧ s.isIframe = true ∧
      done.countP StoredFrame.isIframe = i ∧
      r.framePos.toNat = o.start + (streamBytes done).length := by
  obtain ⟨done, s', left, hframes, hs, hcount, hpos, -⟩ :=
    hv.record_place (o.records_of_iframes h)
  have hat : o.iframes[i]? = some (s'.record (o.start + (streamBytes done).length), s') := by
    unfold Opened.iframes
    rw [hframes, indexed_append, indexed, if_pos hs,
      List.getElem?_append_right (by rw [length_indexed, hcount]), length_indexed, hcount,
      Nat.sub_self]
    rfl
  rw [h, Option.some.injEq, Prod.mk.injEq] at hat
  obtain ⟨-, rfl⟩ := hat
  exact ⟨done, left, hframes, hs, hcount, hpos⟩

/-- Different I-frames start at different positions. -/
theorem Opened.Valid.iframe_inj (hv : o.Valid) {i i' : Nat} {r r' : BasketIFrame}
    {s s' : StoredFrame} (h : o.iframes[i]? = some (r, s)) (h' : o.iframes[i']? = some (r', s'))
    (hpos : r.framePos.toNat = r'.framePos.toNat) : i = i' := by
  obtain ⟨done, left, hframes, -, hcount, hat⟩ := hv.iframe_place h
  obtain ⟨done', left', hframes', -, hcount', hat'⟩ := hv.iframe_place h'
  have heq : done = done' :=
    prefix_eq_of_length ⟨_, hframes.symm⟩ ⟨_, hframes'.symm⟩ (by omega)
  rw [← hcount, ← hcount', heq]

/-! ## A step along the index -/

/-- The bounds of `strg_basket_read` are 0 and the end of the stretch. -/
theorem Cursor.indexEnd (hv : o.Valid) (hf : o.Finds dev bgi) {bri : BasketReadInfo}
    {done left : List StoredFrame} (hc : Cursor o bri done left) :
    ((bgi.bfList.getD bri.bf default).firstIframeIdx + bri.iframeNum).toInt =
      o.bf.slot + o.iframes.length := by
  have hrange := hv.range_lt
  rw [basketIframeNum_eq] at hrange
  have hnum := hv.num
  have hslot0 := hv.inFile.slot_nonneg
  have hfirst : o.bf.firstIframeIdx.toInt = o.bf.slot := rfl
  have hbegin := hv.first
  rw [hc.bf, hf.first, hc.iframeNum, Int32.toInt_add_of_range (by omega) (by omega), hfirst, hnum,
    o.length_iframes]

/-- Beyond its bounds nothing is read. -/
theorem readAlongIndex_done (hv : o.Valid) (hf : o.Finds dev bgi) {bri : BasketReadInfo}
    {done left : List StoredFrame} (hc : Cursor o bri done left) (oft buffLen : Int32) :
    (readAlongIndex dev bgi bri oft buffLen).1 = .done ↔
      (bri.iframeIdx + oft).toInt < 0 ∨
        o.bf.slot + o.iframes.length ≤ (bri.iframeIdx + oft).toInt := by
  have hend := hc.indexEnd hv hf
  have hzero : (0 : Int32).toInt = 0 := rfl
  have hbound : (bri.iframeIdx + oft < 0 ∨ bri.iframeIdx + oft ≥
      (bgi.bfList.getD bri.bf default).firstIframeIdx + bri.iframeNum) ↔
      (bri.iframeIdx + oft).toInt < 0 ∨
        o.bf.slot + o.iframes.length ≤ (bri.iframeIdx + oft).toInt := by
    rw [ge_iff_le, Int32.lt_iff_toInt_lt, Int32.le_iff_toInt_le, hend, hzero]
  rw [← hbound]
  unfold readAlongIndex
  dsimp only
  split
  next hout => exact iff_of_true rfl hout
  next hin =>
    refine iff_of_false (fun h => ?_) hin
    split at h
    · cases h
    · split at h
      · cases h
      · cases h

/-- Within them, the I-frame of the slot is delivered. -/
theorem readAlongIndex_iframe (hv : o.Valid) (hwhole : o.before = []) (hf : o.Finds dev bgi)
    (henv : dev.env.Reliable)
    {bri : BasketReadInfo} {done left : List StoredFrame} (hc : Cursor o bri done left)
    {oft buffLen : Int32} {i : Nat} {r : BasketIFrame} {s : StoredFrame}
    (hslot : (bri.iframeIdx + oft).toInt = o.bri.beginIframeIdx.toInt + i)
    (hi : o.iframes[i]? = some (r, s)) (hfit : Fits buffLen s) :
    readAlongIndex dev bgi bri oft buffLen = (s.result, bri.pastRecord oft r s.data) ∧
      frameStart (bri.pastRecord oft r s.data) s.data = r.framePos.toNat := by
  have hr := o.records_of_iframes hi
  obtain ⟨done', left', hframes, hs, hcount, hpos⟩ := hv.iframe_place hi
  obtain ⟨hholds, hle⟩ := hf.frame hv hframes
  have hrange := hv.range_lt
  have hlt : i < o.iframes.length := (List.getElem?_eq_some_iff.1 hi).1
  have hlen := o.length_iframes
  have hnum := hv.num
  have hbegin := hv.first
  rw [hwhole, List.countP_nil] at hbegin
  have hin : ¬ (readAlongIndex dev bgi bri oft buffLen).1 = .done := by
    rw [readAlongIndex_done hv hf hc oft buffLen]
    omega
  have hrecord : strgBasketReadIframe dev bgi.basketIdx (bri.iframeIdx + oft) = some r := by
    have hall := o.recordsOf_all hr
    refine strgBasketReadIframe_holds henv (recordsOf_magic hall) (by omega) (by omega) ?_
    have hat := hf.recorded.holds_record hv.inFile hall
    have heq : (bri.iframeIdx + oft).toInt =
        o.bf.slot + ((o.before.countP StoredFrame.isIframe + i : Nat) : Int) := by
      rw [hwhole, List.countP_nil]
      omega
    rw [heq]
    exact hat
  have hframe : strgBasketReadFrame dev bgi.basketIdx r.framePos
      (buffLen - storageFrameHdrLen) = some (s.header, s.data) := by
    refine strgBasketReadFrame_holds henv (hv.sound s (by rw [hframes]; simp)) ?_ hfit.le_buffer ?_
    · omega
    · rw [hpos]
      exact hholds
  constructor
  · unfold readAlongIndex at hin ⊢
    dsimp only at hin ⊢
    split at hin
    · exact absurd rfl hin
    next hbound =>
      rw [if_neg hbound]
      simp only [hrecord, hframe]
      rfl
  · have hsize : basketSize = 2 ^ 30 := rfl
    have hbytes := s.length_bytes
    obtain ⟨hword, -⟩ := toInt_frameLen s (by omega)
    have hsum : (r.framePos +
        (UInt32.ofNat basketFrameLen + UInt32.ofNat s.data.length)).toNat =
        r.framePos.toNat + s.bytes.length := by
      rw [UInt32.toNat_add_of_lt' (by omega), hword]
    show (r.framePos + _).toInt32.toInt - _ = _
    rw [UInt32.toInt_toInt32_of_lt (by omega), hsum]
    push_cast
    omega

theorem Session.delivered_read {cmd : StorageReadCmd} {buffLen : Int32} {s : StoredFrame}
    {bri : BasketReadInfo} (h : strgBasketRead dev bgi w.bri cmd buffLen = (s.result, bri)) :
    (w.read dev bgi cmd buffLen).delivered = frameStart bri s.data :: w.delivered := by
  unfold Session.read
  rw [h]
  rfl

/-- What a command along the index delivers, from the slot that it goes to. -/
theorem stepsTo_iff (hv : o.Valid) (hwhole : o.before = []) (hf : o.Finds dev bgi)
    (henv : dev.env.Reliable) (hin : Inside o w.bri) {cmd : StorageReadCmd} {oft buffLen : Int32}
    (hfits : ∀ s ∈ o.frames, s.isIframe = true → Fits buffLen s)
    (hread : strgBasketRead dev bgi w.bri cmd buffLen = readAlongIndex dev bgi w.bri oft buffLen)
    (hback : (w.bri.iframeIdx + oft).toInt < 0 ∨
      o.bri.beginIframeIdx.toInt ≤ (w.bri.iframeIdx + oft).toInt) (target : Int) :
    o.StepsTo dev bgi w cmd buffLen target ↔
      if 0 ≤ target ∧ target < o.iframes.length then
        (w.bri.iframeIdx + oft).toInt = o.bri.beginIframeIdx.toInt + target
      else (w.bri.iframeIdx + oft).toInt < 0 ∨
        o.bri.beginIframeIdx.toInt + o.iframes.length ≤ (w.bri.iframeIdx + oft).toInt := by
  obtain ⟨done, left, hc⟩ := hin
  have hbegin : o.bri.beginIframeIdx.toInt = o.bf.slot := by
    have hfirst := hv.first
    rw [hwhole, List.countP_nil] at hfirst
    omega
  have hslot0 := hv.inFile.slot_nonneg
  have hdone := readAlongIndex_done hv hf hc oft buffLen
  -- the I-frame that is delivered from a slot of the stretch
  have hgoes : ∀ {i : Nat} {r : BasketIFrame} {s : StoredFrame}, o.iframes[i]? = some (r, s) →
      (w.bri.iframeIdx + oft).toInt = o.bri.beginIframeIdx.toInt + i →
      (strgBasketRead dev bgi w.bri cmd buffLen).1 = s.result ∧
        (w.read dev bgi cmd buffLen).delivered = (r.framePos.toNat : Int) :: w.delivered := by
    intro i r s hi hslot
    obtain ⟨done', left', hframes, hs, -, -⟩ := hv.iframe_place hi
    obtain ⟨hresult, hstart⟩ := readAlongIndex_iframe hv hwhole hf henv hc hslot hi
      (hfits s (by rw [hframes]; simp) hs)
    rw [← hread] at hresult
    exact ⟨congrArg Prod.fst hresult, by rw [Session.delivered_read hresult, hstart]⟩
  unfold Opened.StepsTo
  by_cases htarget : 0 ≤ target ∧ target < o.iframes.length
  · obtain ⟨⟨r, s⟩, hi⟩ : ∃ i, o.iframes[target.toNat]? = some i :=
      ⟨_, List.getElem?_eq_getElem (by omega)⟩
    have hat : o.iframeAt target = some (r, s) := (if_pos htarget.1).trans hi
    rw [if_pos htarget, hat]
    constructor
    · intro h
      obtain ⟨hresult, hdelivered⟩ := h.1 (r, s) rfl
      have hin : ¬ (readAlongIndex dev bgi w.bri oft buffLen).1 = .done := by
        rw [← hread, hresult]
        exact ReadResult.noConfusion
      rw [hdone] at hin
      obtain ⟨⟨r', s'⟩, hi'⟩ : ∃ i, o.iframes[((w.bri.iframeIdx + oft).toInt -
          o.bri.beginIframeIdx.toInt).toNat]? = some i :=
        ⟨_, List.getElem?_eq_getElem (by omega)⟩
      obtain ⟨-, hdelivered'⟩ := hgoes hi' (by omega)
      rw [hdelivered', List.cons.injEq] at hdelivered
      have heq := hv.iframe_inj hi' hi (Int.ofNat.inj hdelivered.1)
      omega
    · intro hslot
      refine ⟨fun i hi' => ?_, fun hnone => by cases hnone⟩
      obtain rfl := Option.some.inj hi'
      exact hgoes hi (by omega)
  · have hnone : o.iframeAt target = none := by
      unfold Opened.iframeAt
      split
      · exact List.getElem?_eq_none (by omega)
      · rfl
    rw [if_neg htarget, hnone, hread, hdone, hbegin]
    exact ⟨fun h => h.2 rfl, fun h => ⟨fun i hi => (by cases hi), fun _ => h⟩⟩

/-- `strg_basket_read` along the index, once something has been read. -/
theorem strgBasketRead_step (dev : Dev) (bgi : BasketGlobalInfo) {bri : BasketReadInfo} {buffLen : Int32} (hbuff : buffLen > 0)
    (hcnt : bri.readCnt ≠ 0) :
    strgBasketRead dev bgi bri .forward1Iframe buffLen = readAlongIndex dev bgi bri 1 buffLen ∧
      strgBasketRead dev bgi bri .back1Iframe buffLen =
        readAlongIndex dev bgi bri (-1) buffLen := by
  simp only [strgBasketRead, if_pos hbuff, if_neg hcnt, StorageReadCmd.iframeOft, and_self]

/-- Steps from GOP `k`, for calls that stay in the stretch. -/
theorem stepsTo_gop (hv : o.Valid) (hwhole : o.before = []) (hf : o.Finds dev bgi)
    (henv : dev.env.Reliable) (hin : Inside o w.bri) {buffLen : Int32}
    (hfits : ∀ s ∈ o.frames, s.isIframe = true → Fits buffLen s) (hcnt : w.bri.readCnt ≠ 0)
    {k : Nat} (hk : k < o.iframes.length) :
    (o.StepsTo dev bgi w .forward1Iframe buffLen (k + 1) ↔ o.AtIframe w k ∨
      k + 1 = o.iframes.length ∧ o.bri.beginIframeIdx.toInt + k ≤ w.bri.iframeIdx.toInt) ∧
    (o.Within bgi w.bri (.read .back1Iframe buffLen) →
      (o.StepsTo dev bgi w .back1Iframe buffLen (k - 1) ↔ o.AtIframe w k)) := by
  obtain ⟨done, left, hc⟩ := id hin
  obtain ⟨-, hlow, hhigh⟩ := hc.bounds hv
  have hrange := hv.range_lt
  rw [basketIframeNum_eq] at hrange
  have hnum := hv.num
  rw [← o.length_iframes] at hnum
  have hone : (1 : Int32).toInt = 1 := rfl
  have hminus : (-1 : Int32).toInt = -1 := rfl
  have hforward : (w.bri.iframeIdx + 1).toInt = w.bri.iframeIdx.toInt + 1 :=
    Int32.toInt_add_of_range (by omega) (by omega)
  have hbackward : (w.bri.iframeIdx + -1).toInt = w.bri.iframeIdx.toInt - 1 :=
    Int32.toInt_add_of_range (by omega) (by omega)
  have hbuff : buffLen > 0 := by
    obtain ⟨⟨r, s⟩, hi⟩ : ∃ i, o.iframes[k]? = some i := ⟨_, List.getElem?_eq_getElem hk⟩
    obtain ⟨done', left', hframes, hs, -, -⟩ := hv.iframe_place hi
    exact (hfits s (by rw [hframes]; simp) hs).buffer_pos
  obtain ⟨hreadF, hreadB⟩ := strgBasketRead_step dev bgi hbuff hcnt
  constructor
  · rw [stepsTo_iff hv hwhole hf henv hin hfits hreadF (by omega), hforward]
    unfold Opened.AtIframe
    split
    · omega
    · omega
  · intro hwithin
    have hwithin' : (w.bri.iframeIdx + -1).toInt < 0 ∨
        o.bri.beginIframeIdx.toInt ≤ (w.bri.iframeIdx + -1).toInt := by
      rcases hwithin with hzero | hback
      · exact absurd hzero hcnt
      · have hzero : (0 : Int32).toInt = 0 := rfl
        have hbegin := hv.first
        rw [hwhole, List.countP_nil] at hbegin
        have hfirst : o.bf.firstIframeIdx.toInt = o.bf.slot := rfl
        have hend : (o.bf.firstIframeIdx + o.bri.iframeNum).toInt =
            o.bf.slot + o.bri.iframeNum.toInt :=
          Int32.toInt_add_of_range (by omega) (by omega)
        have hto := hback (-1) rfl
        rw [hc.beginIframeIdx, hc.iframeNum, Int32.lt_iff_toInt_lt, Int32.le_iff_toInt_le,
          Int32.le_iff_toInt_le, hend, hzero] at hto
        omega
    rw [stepsTo_iff hv hwhole hf henv hin hfits hreadB hwithin', hbackward]
    unfold Opened.AtIframe
    split
    · omega
    · omega

end Reading

/-! ## Sessions on a whole fragment -/

section Sessions

variable {dev : Dev} {bgi : BasketGlobalInfo} {bf : BasketFragment} {frames : List StoredFrame}
  {q : RecordQueryInfo} {bri : BasketReadInfo} {sfi : StorageFragmentInfo} {dev' : Dev}
  {bgi' : BasketGlobalInfo}

end Sessions

/-! ## Three GOPs of one frame -/

/-- What a query over all of it reports. -/
def allThree : RecordQueryInfo :=
  queryInfo 0 threeIframes.bgi threeFragment 0
    ⟨threeFragment.firstIframeIdx, threeFragment.beginTime, threeFragment.beginFramePos.toInt32⟩
    ⟨3, 1200, (threeFragment.beginFramePos + 228).toInt32⟩

theorem allThree_bf :
    threeIframes.bgi.bfList[allThree.bfIdx.toUInt32.toNat]? = some threeFragment :=
  threeIframes_bf

theorem allThree_range :
    Range threeFragment [] [storedAt 1000, storedAt 1100, storedAt 1200] [] allThree where
  first := rfl
  num := rfl
  size := by decide +kernel
  starts := ⟨_, _, rfl, rfl⟩
  ends := by decide

theorem allThree_sound :
    ∀ s ∈ [storedAt 1000, storedAt 1100, storedAt 1200], s.Sound := by
  intro s hs
  rcases List.mem_cons.1 hs with rfl | hs
  · exact storedAt_sound 1000
  rcases List.mem_cons.1 hs with rfl | hs
  · exact storedAt_sound 1100
  · obtain rfl := List.mem_singleton.1 hs
    exact storedAt_sound 1200

/-- The session that is opened on it. -/
def allThreeOpened : BasketReadInfo :=
  openedAt allThree threeIframes.bgi.basketIdx (UInt32.ofNat (startPos threeFragment []))

def allThreeStretch : Opened :=
  ⟨threeFragment, [], [storedAt 1000, storedAt 1100, storedAt 1200], [], allThreeOpened⟩

theorem allThree_recorded :
    Recorded (threeIframes.dev.file (.basket threeIframes.bgi.basketIdx)) threeFragment
      [storedAt 1000, storedAt 1100, storedAt 1200] := threeIframes_recorded

theorem allThree_finds : allThreeStretch.Finds threeIframes.dev threeIframes.bgi where
  recorded := threeIframes_recorded
  first := rfl

theorem allThree_readStart :
    strgBasketReadStart threeIframes.dev threeIframes.bgi allThree =
      (some (allThreeOpened, threeFragment.info), threeIframes.dev.wait,
        threeIframes.bgi.addReader) :=
  allThree_range.readStart threeIframes_layout.2 threeIframes_recorded
    (threeIframes_layout.1.inFile (List.mem_of_getElem? threeIframes_bf)) (by decide)
    threeIframes_bf

theorem allThree_fits :
    ∀ s ∈ [storedAt 1000, storedAt 1100, storedAt 1200], s.isIframe = true → Fits 256 s := by
  unfold Fits
  decide

/-- The session with two I-frames delivered by the index. -/
def secondByIndex : Session :=
  Session.calls threeIframes.dev threeIframes.bgi (.opened allThreeOpened)
    [.read .forward1Iframe 256, .read .forward1Iframe 256]

/-- The session with one frame delivered in stored order. -/
def firstInOrder : Session :=
  Session.calls threeIframes.dev threeIframes.bgi (.opened allThreeOpened) [.read .normal 256]

end Nvr.Storage
