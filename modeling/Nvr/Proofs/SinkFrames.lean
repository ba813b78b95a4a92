import Mathlib.Data.List.Infix
import Nvr.RtspClient.Sink

/-!
# The frames that a camera's NAL units make

A frame is given out when the first NAL unit of the next one comes, unless the time of the
frame has a part that is 0: such a time is taken for none. The buffer grows if the NAL
unit does not fit, but the four bytes of its start code are not counted, so that they may
be what does not fit any more. Apart from these two the sink does what `EqualRuns.gather`
does (`Gathers`).

For the converse the frames are counted. As long as nothing is copied out of bounds a NAL
unit that closes no run gives out no frame (`Loose`), so a frame that is missed at the end
of its run is not made up for.
-/

namespace Nvr.RtspClient

open EqualRuns

variable {w h : Int} {s : OurRTSPSink} {g : Gathered Nal} {n : Nal} {nals : List Nal}

/-! ## The buffer -/

def Bounded (writes : List BufferWrite) : Prop := ∀ x ∈ writes, x.offset + x.length ≤ x.size

theorem bounded_append {xs ys : List BufferWrite} :
    Bounded (xs ++ ys) ↔ Bounded xs ∧ Bounded ys := List.forall_mem_append

/-- The size of the buffer in which a NAL unit is received. -/
def OurRTSPSink.grownSize (s : OurRTSPSink) (frameSize : Nat) : Nat :=
  let needed := (s.frameOffset + frameSize) % 2 ^ 32
  if s.frameBufferSize < needed then (needed + 0xffff) % 2 ^ 32 / 0x10000 * 0x10000
  else s.frameBufferSize

/-- A buffer of whole blocks that holds what is in it. -/
structure OurRTSPSink.Blocks (s : OurRTSPSink) : Prop where
  aligned : 0x10000 ∣ s.frameBufferSize
  small : s.frameBufferSize < 2 ^ 32
  fits : s.frameOffset ≤ s.frameBufferSize

/-- A NAL unit whose end, without the start code, is `e` bytes into the frame has room for
it. -/
def Roomy (size e : Nat) : Prop :=
  e + 4 ≤ size ∨ 0 < e % 0x10000 ∧ e % 0x10000 ≤ 0xfffc ∧ e ≤ 0xffff0000

theorem grownSize_lt (hsmall : s.frameBufferSize < 2 ^ 32) (frameSize : Nat) :
    s.grownSize frameSize < 2 ^ 32 := by
  simp only [OurRTSPSink.grownSize]
  split <;> omega

theorem grownSize_aligned (hb : s.Blocks) (frameSize : Nat) :
    0x10000 ∣ s.grownSize frameSize := by
  have haligned := hb.aligned
  simp only [OurRTSPSink.grownSize]
  split <;> omega

theorem roomy_iff (hb : s.Blocks) {frameSize : Nat}
    (hle : frameSize ≤ dummySinkReceiveBufferSize) :
    s.frameOffset + 4 + frameSize ≤ s.grownSize frameSize ↔
      Roomy s.frameBufferSize (s.frameOffset + frameSize) := by
  obtain ⟨⟨k, hk⟩, hsmall, hfits⟩ := hb
  simp only [dummySinkReceiveBufferSize] at hle
  simp only [OurRTSPSink.grownSize, Roomy]
  generalize s.frameOffset = off at hfits ⊢
  generalize s.frameBufferSize = size at hk hsmall hfits ⊢
  split <;> omega

/-- What is copied when a NAL unit is received. -/
theorem receive_writes (s : OurRTSPSink) (n : Nal) : (s.receive n).writes =
    s.writes ++ ((if s.frameBufferSize < (s.frameOffset + n.bytes.length) % 2 ^ 32 then
      [⟨0, s.frameOffset, s.grownSize n.bytes.length⟩] else []) ++
      [⟨s.frameOffset, 4, s.grownSize n.bytes.length⟩,
        ⟨(s.frameOffset + 4) % 2 ^ 32, n.bytes.length, s.grownSize n.bytes.length⟩]) := by
  rw [OurRTSPSink.receive, OurRTSPSink.copy, OurRTSPSink.copy, OurRTSPSink.grow,
    OurRTSPSink.setType, OurRTSPSink.grownSize]
  split <;> dsimp only <;> split <;> simp [nalStartCode]

/-- All of it is in bounds if the NAL unit and its start code are. -/
theorem bounded_receive (hsmall : s.frameBufferSize < 2 ^ 32) :
    Bounded (s.receive n).writes ↔ Bounded s.writes ∧
      s.frameOffset + 4 + n.bytes.length ≤ s.grownSize n.bytes.length := by
  have hlt := grownSize_lt hsmall n.bytes.length
  rw [receive_writes, bounded_append, bounded_append]
  refine and_congr_right fun _ => ?_
  generalize s.grownSize n.bytes.length = size at hlt ⊢
  constructor
  · rintro ⟨-, hcopies⟩
    have hcode : s.frameOffset + 4 ≤ size := hcopies ⟨s.frameOffset, 4, size⟩ (by simp)
    have hnal : (s.frameOffset + 4) % 2 ^ 32 + n.bytes.length ≤ size :=
      hcopies ⟨(s.frameOffset + 4) % 2 ^ 32, n.bytes.length, size⟩ (by simp)
    omega
  · intro hle
    have hmod : (s.frameOffset + 4) % 2 ^ 32 = s.frameOffset + 4 := by omega
    rw [hmod]
    constructor
    · intro x hx
      split at hx
      · obtain rfl := List.mem_singleton.1 hx
        show 0 + s.frameOffset ≤ size
        omega
      · cases hx
    · intro x hx
      simp only [List.mem_cons, List.not_mem_nil, or_false] at hx
      obtain rfl | rfl := hx
      · show s.frameOffset + 4 ≤ size
        omega
      · exact hle

/-! ## What a NAL unit changes -/

@[simp] theorem setType_frameOffset : (s.setType n).frameOffset = s.frameOffset := by
  rw [OurRTSPSink.setType]
  split <;> rfl

@[simp] theorem setType_frameBuffer : (s.setType n).frameBuffer = s.frameBuffer := by
  rw [OurRTSPSink.setType]
  split <;> rfl

/-- What receiving a NAL unit leaves as it is. -/
structure SameFrame (s s' : OurRTSPSink) : Prop where
  fWidth : s'.fWidth = s.fWidth
  fHeight : s'.fHeight = s.fHeight
  lastTimeVal : s'.lastTimeVal = s.lastTimeVal
  frameNo : s'.frameNo = s.frameNo
  frames : s'.frames = s.frames
  shutdown : s'.shutdown = s.shutdown

theorem sameFrame_receive (s : OurRTSPSink) (n : Nal) : SameFrame s (s.receive n) := by
  rw [OurRTSPSink.receive, OurRTSPSink.grow, OurRTSPSink.setType]
  split <;> dsimp only <;> split <;> exact ⟨rfl, rfl, rfl, rfl, rfl, rfl⟩

theorem receive_frameType (s : OurRTSPSink) (n : Nal) :
    (s.receive n).frameType = if n.type = 5 then .videoFrameI else s.frameType := by
  rw [OurRTSPSink.receive, OurRTSPSink.grow, OurRTSPSink.setType]
  split <;> dsimp only <;> split <;> rfl

theorem receive_frameBufferSize (s : OurRTSPSink) (n : Nal) :
    (s.receive n).frameBufferSize = s.grownSize n.bytes.length := by
  rw [OurRTSPSink.receive, OurRTSPSink.grow, OurRTSPSink.setType, OurRTSPSink.grownSize]
  split <;> dsimp only <;> split <;> rfl

theorem grow_frameOffset (s : OurRTSPSink) (frameSize : Nat) :
    (s.grow frameSize).frameOffset = s.frameOffset := by
  rw [OurRTSPSink.grow]
  dsimp only
  split <;> rfl

theorem receive_frameOffset (hsmall : s.frameBufferSize < 2 ^ 32)
    (hle : s.frameOffset + 4 + n.bytes.length ≤ s.grownSize n.bytes.length) :
    (s.receive n).frameOffset = s.frameOffset + 4 + n.bytes.length := by
  have hlt := grownSize_lt hsmall n.bytes.length
  have hoffset : (s.receive n).frameOffset =
      ((s.frameOffset + 4) % 2 ^ 32 + n.bytes.length) % 2 ^ 32 := by
    rw [OurRTSPSink.receive, OurRTSPSink.copy, OurRTSPSink.copy]
    simp only [grow_frameOffset, setType_frameOffset]
    rfl
  rw [hoffset]
  omega

/-- The frame goes along to a larger buffer. -/
theorem grow_holds {data : List UInt8} (hlen : s.frameOffset = data.length)
    (h : s.frameBuffer.Holds 0 data) (frameSize : Nat) :
    (s.grow frameSize).frameBuffer.Holds 0 data := by
  rw [OurRTSPSink.grow]
  dsimp only
  split
  · dsimp only
    rw [h.read_eq hlen]
    exact ByteFile.holds_write _ 0 data
  · exact h

/-- The NAL unit is in the buffer, behind its start code and the frame so far. -/
theorem receive_holds {data : List UInt8} (hsmall : s.frameBufferSize < 2 ^ 32)
    (hle : s.frameOffset + 4 + n.bytes.length ≤ s.grownSize n.bytes.length)
    (hlen : s.frameOffset = data.length) (h : s.frameBuffer.Holds 0 data) :
    (s.receive n).frameBuffer.Holds 0 (data ++ (nalStartCode ++ n.bytes)) := by
  have hlt := grownSize_lt hsmall n.bytes.length
  have hgrown : ((s.setType n).grow n.bytes.length).frameBuffer.Holds 0 data :=
    grow_holds (by rw [setType_frameOffset, hlen]) (by rw [setType_frameBuffer]; exact h) _
  have hmod : (data.length + 4) % 2 ^ 32 = data.length + nalStartCode.length := by
    rw [← hlen]
    exact Nat.mod_eq_of_lt (by omega)
  have hbuffer : (s.receive n).frameBuffer =
      ((s.setType n).grow n.bytes.length).frameBuffer.write data.length
        (nalStartCode ++ n.bytes) := by
    rw [← ByteFile.write_write_append, ← hmod]
    rw [OurRTSPSink.receive, OurRTSPSink.copy, OurRTSPSink.copy]
    simp only [grow_frameOffset, setType_frameOffset, hlen]
    rfl
  rw [hbuffer, ByteFile.holds_append]
  refine ⟨hgrown.write_apart (.inl (by omega)), ?_⟩
  rw [Nat.zero_add]
  exact ByteFile.holds_write _ _ _

/-! ## The sink gathers runs -/

/-- The sink has given out the frames of the runs that are closed, and holds the frame of
the run that is not. -/
structure Gathers (w h : Int) (s : OurRTSPSink) (g : Gathered Nal) : Prop where
  fWidth : s.fWidth = w
  fHeight : s.fHeight = h
  up : s.shutdown = false
  frames : s.frames = framesOf w h g.closed
  frameNo : s.frameNo = .ofNat (g.closed.length + 1)
  offset : s.frameOffset = (assembled g.cur).length
  holds : s.frameBuffer.Holds 0 (assembled g.cur)
  frameType : s.frameType = if ∃ n ∈ g.cur, n.type = 5 then .videoFrameI else .unknow
  time : ∀ n ∈ g.cur, n.presentationTime = s.lastTimeVal
  blocks : s.Blocks

theorem assembled_concat (nals : List Nal) (n : Nal) :
    assembled (nals ++ [n]) = assembled nals ++ (nalStartCode ++ n.bytes) := by
  rw [assembled, List.flatMap_append, List.flatMap_singleton]
  rfl

theorem assembled_length_eq_zero : (assembled nals).length = 0 ↔ nals = [] := by
  cases nals with
  | nil => exact ⟨fun _ => rfl, fun _ => rfl⟩
  | cons n nals =>
      refine ⟨fun h => ?_, fun h => nomatch h⟩
      rw [assembled, List.flatMap_cons, List.append_assoc, List.length_append] at h
      exact absurd (Nat.eq_zero_of_add_eq_zero_right h) (by decide)

theorem framesOf_concat (w h : Int) (runs : List (List Nal)) (run : List Nal) :
    framesOf w h (runs ++ [run]) =
      framesOf w h runs ++ [frameOf w h run (.ofNat (runs.length + 1))] := by
  rw [framesOf, List.zipIdx_append, List.map_append]
  simp [framesOf]

theorem framesOf_length (w h : Int) (runs : List (List Nal)) :
    (framesOf w h runs).length = runs.length := by
  rw [framesOf, List.length_map, List.length_zipIdx]

/-- A NAL unit of the frame's time. -/
theorem Gathers.receive (hg : Gathers w h s g) (htime : n.presentationTime = s.lastTimeVal)
    (hle : s.frameOffset + 4 + n.bytes.length ≤ s.grownSize n.bytes.length) :
    Gathers w h (s.receive n) ⟨g.closed, g.cur ++ [n]⟩ := by
  have hsmall := hg.blocks.small
  have hsame := sameFrame_receive s n
  have hoffset := receive_frameOffset hsmall hle
  have hholds := receive_holds hsmall hle hg.offset hg.holds
  have hsize := receive_frameBufferSize s n
  constructor
  · rw [hsame.fWidth, hg.fWidth]
  · rw [hsame.fHeight, hg.fHeight]
  · rw [hsame.shutdown, hg.up]
  · rw [hsame.frames, hg.frames]
  · rw [hsame.frameNo, hg.frameNo]
  · rw [hoffset, hg.offset, assembled_concat, List.length_append, List.length_append]
    simp only [nalStartCode, List.length_cons, List.length_nil]
    omega
  · rw [assembled_concat]
    exact hholds
  · rw [receive_frameType, hg.frameType]
    by_cases hn : n.type = 5
    · rw [if_pos hn, if_pos ⟨n, by simp, hn⟩]
    · rw [if_neg hn]
      refine if_congr ⟨?_, ?_⟩ rfl rfl
      · rintro ⟨m, hm, hm5⟩
        exact ⟨m, List.mem_append_left _ hm, hm5⟩
      · rintro ⟨m, hm, hm5⟩
        obtain hm | hm := List.mem_append.1 hm
        · exact ⟨m, hm, hm5⟩
        · rw [List.mem_singleton.1 hm] at hm5
          exact absurd hm5 hn
  · intro m hm
    rw [hsame.lastTimeVal]
    obtain hm | hm := List.mem_append.1 hm
    · exact hg.time m hm
    · rw [List.mem_singleton.1 hm, htime]
  · refine ⟨?_, ?_, ?_⟩
    · rw [hsize]
      exact grownSize_aligned hg.blocks _
    · rw [hsize]
      exact grownSize_lt hsmall _
    · rw [hoffset, hsize]
      exact hle

/-- The frame is given out. -/
theorem Gathers.restart (hg : Gathers w h s g) (hne : g.cur ≠ []) (t : TimeVal) :
    Gathers w h (s.callBack.restart t) ⟨g.closed ++ [g.cur], []⟩ := by
  have hinfo : s.frameInfo = frameOf w h g.cur (.ofNat (g.closed.length + 1)) := by
    obtain ⟨m, rest, hcur⟩ := List.exists_cons_of_ne_nil hne
    have htime : ((g.cur.head?.map Nal.presentationTime).getD ⟨0, 0⟩) = s.lastTimeVal := by
      rw [hcur]
      exact hg.time m (by rw [hcur]; exact List.mem_cons_self)
    rw [OurRTSPSink.frameInfo, frameOf, hg.holds.read_eq hg.offset, htime, hg.frameNo, hg.fWidth,
      hg.fHeight, hg.frameType]
    congr 1
    split <;> rfl
  constructor
  · exact hg.fWidth
  · exact hg.fHeight
  · exact hg.up
  · show s.frames ++ [s.frameInfo] = _
    rw [framesOf_concat, hg.frames, hinfo]
  · show s.frameNo + 1 = _
    rw [hg.frameNo, List.length_append, List.length_singleton]
    exact (UInt32.ofNat_add _ _).symm
  · rfl
  · exact ByteFile.holds_nil _ 0
  · rfl
  · exact fun m hm => absurd hm List.not_mem_nil
  · exact ⟨hg.blocks.aligned, hg.blocks.small, Nat.zero_le _⟩

/-! ## A NAL unit -/

/-- A NAL unit behind a frame whose time, if it is another, has no part that is 0, and
that has room in the buffer. -/
structure OurRTSPSink.Ready (s : OurRTSPSink) (n : Nal) : Prop where
  timed : s.frameOffset ≠ 0 → n.presentationTime ≠ s.lastTimeVal →
    s.lastTimeVal.tv_sec ≠ 0 ∧ s.lastTimeVal.tv_usec ≠ 0
  roomy : Roomy s.frameBufferSize
    ((if n.presentationTime = s.lastTimeVal then s.frameOffset else 0) + n.bytes.length)

/-- The state in front of a NAL unit: at the beginning there is no time. -/
structure Waits (w h : Int) (s : OurRTSPSink) (g : Gathered Nal) : Prop where
  gathers : Gathers w h s g
  first : g.cur = [] → s.lastTimeVal = ⟨0, 0⟩

theorem TimeVal.ne_iff {t u : TimeVal} :
    (t.tv_sec ≠ u.tv_sec ∨ t.tv_usec ≠ u.tv_usec) ↔ t ≠ u := by
  cases t
  cases u
  simp only [ne_eq, TimeVal.mk.injEq]
  exact (not_and_or).symm

theorem Gathers.cur_eq_nil (hg : Gathers w h s g) : g.cur = [] ↔ s.frameOffset = 0 := by
  rw [hg.offset, assembled_length_eq_zero]

/-- The time of the frame, if there is one. -/
theorem Gathers.closes_iff (hg : Gathers w h s g) :
    g.Closes Nal.presentationTime n ↔ s.frameOffset ≠ 0 ∧ n.presentationTime ≠ s.lastTimeVal := by
  rw [ne_eq, ← hg.cur_eq_nil]
  constructor
  · rintro ⟨b, hb, hdiff⟩
    have hmem := List.mem_of_mem_getLast? hb
    rw [hg.time b hmem] at hdiff
    exact ⟨List.ne_nil_of_mem hmem, hdiff.symm⟩
  · rintro ⟨hne, hdiff⟩
    refine ⟨g.cur.getLast hne, List.getLast?_eq_getLast_of_ne_nil hne, ?_⟩
    rw [hg.time _ (List.getLast_mem hne)]
    exact hdiff.symm

variable {frameCb : RtspFrameInfo → Int}

/-- A NAL unit as the sink takes it, if `frameCb` succeeds. -/
theorem afterGettingFrame_eq (hcb : ∀ f, 0 ≤ frameCb f) (hup : s.shutdown = false) :
    s.afterGettingFrame frameCb n =
      if (s.setTime n.presentationTime).Complete n.presentationTime then
        ((s.setTime n.presentationTime).callBack.restart n.presentationTime).receive n
      else (s.setTime n.presentationTime).receive n := by
  rw [OurRTSPSink.afterGettingFrame, hup, if_neg Bool.false_ne_true]
  dsimp only
  rw [if_neg (Int.not_lt.2 (hcb _))]

/-- A time is set only if there is none, and then nothing is complete. -/
theorem complete_setTime (s : OurRTSPSink) (t : TimeVal) :
    (s.setTime t).Complete t ↔ s.frameOffset ≠ 0 ∧ s.lastTimeVal.tv_sec ≠ 0 ∧
      s.lastTimeVal.tv_usec ≠ 0 ∧ t ≠ s.lastTimeVal := by
  rw [OurRTSPSink.Complete, OurRTSPSink.setTime, TimeVal.ne_iff]
  split
  · rename_i hzero
    exact ⟨fun hc => absurd rfl hc.2.2.2, fun hc => absurd hzero.1 hc.2.1⟩
  · exact Iff.rfl

theorem setTime_of_set {t : TimeVal}
    (hset : ¬(s.lastTimeVal.tv_sec = 0 ∧ s.lastTimeVal.tv_usec = 0)) : s.setTime t = s := by
  rw [OurRTSPSink.setTime, if_neg hset]

/-- The time is that of the frame, so nothing is lost where a time of 0 is replaced. -/
theorem Waits.setTime (hw : Waits w h s g) {t : TimeVal}
    (htime : s.frameOffset ≠ 0 → t = s.lastTimeVal) :
    Gathers w h (s.setTime t) g ∧ (s.setTime t).lastTimeVal = t := by
  have hg := hw.gathers
  by_cases hset : s.lastTimeVal.tv_sec = 0 ∧ s.lastTimeVal.tv_usec = 0
  · rw [OurRTSPSink.setTime, if_pos hset]
    refine ⟨?_, rfl⟩
    exact { hg with
      time := by
        intro m hm
        have hoffset : s.frameOffset ≠ 0 := fun hzero =>
          List.ne_nil_of_mem hm (hg.cur_eq_nil.2 hzero)
        show m.presentationTime = t
        rw [hg.time m hm, htime hoffset]
      blocks := ⟨hg.blocks.aligned, hg.blocks.small, hg.blocks.fits⟩ }
  · rw [setTime_of_set hset]
    refine ⟨hg, ?_⟩
    by_cases hzero : s.frameOffset = 0
    · rw [hw.first (hg.cur_eq_nil.2 hzero)] at hset
      exact absurd ⟨rfl, rfl⟩ hset
    · exact (htime hzero).symm

theorem setTime_sizes (s : OurRTSPSink) (t : TimeVal) :
    (s.setTime t).frameOffset = s.frameOffset ∧
      (s.setTime t).frameBufferSize = s.frameBufferSize ∧ (s.setTime t).writes = s.writes ∧
      (s.setTime t).frames = s.frames ∧ (s.setTime t).shutdown = s.shutdown := by
  rw [OurRTSPSink.setTime]
  split <;> exact ⟨rfl, rfl, rfl, rfl, rfl⟩

/-- The sink from which a NAL unit is received: at the end of the frame, or at the
beginning of a new one. -/
theorem Waits.before (hcb : ∀ f, 0 ≤ frameCb f) (hw : Waits w h s g)
    (htimed : s.frameOffset ≠ 0 → n.presentationTime ≠ s.lastTimeVal →
      s.lastTimeVal.tv_sec ≠ 0 ∧ s.lastTimeVal.tv_usec ≠ 0) :
    ∃ s₁ : OurRTSPSink, ∃ g₁ : Gathered Nal, s.afterGettingFrame frameCb n = s₁.receive n ∧
      Gathers w h s₁ g₁ ∧ g.add Nal.presentationTime n = ⟨g₁.closed, g₁.cur ++ [n]⟩ ∧
      n.presentationTime = s₁.lastTimeVal ∧ s₁.frameBufferSize = s.frameBufferSize ∧
      s₁.writes = s.writes ∧
      s₁.frameOffset = if n.presentationTime = s.lastTimeVal then s.frameOffset else 0 := by
  have hg := hw.gathers
  rw [afterGettingFrame_eq hcb hg.up]
  by_cases hcloses : g.Closes Nal.presentationTime n
  · have hdiff := hg.closes_iff.1 hcloses
    obtain ⟨hsec, husec⟩ := htimed hdiff.1 hdiff.2
    have hset : s.setTime n.presentationTime = s := setTime_of_set fun hzero => hsec hzero.1
    have hcomplete := (complete_setTime s n.presentationTime).2 ⟨hdiff.1, hsec, husec, hdiff.2⟩
    rw [if_pos hcomplete, hset, add_of_closes hcloses, if_neg hdiff.2]
    exact ⟨_, ⟨g.closed ++ [g.cur], []⟩, rfl,
      hg.restart (fun hnil => hdiff.1 (hg.cur_eq_nil.1 hnil)) n.presentationTime, rfl, rfl, rfl,
      rfl, rfl⟩
  · have hsame : s.frameOffset ≠ 0 → n.presentationTime = s.lastTimeVal := by
      intro hzero
      by_contra hdiff
      exact hcloses (hg.closes_iff.2 ⟨hzero, hdiff⟩)
    have hnot : ¬(s.setTime n.presentationTime).Complete n.presentationTime := by
      rw [complete_setTime]
      exact fun hc => hc.2.2.2 (hsame hc.1)
    obtain ⟨hgset, htset⟩ := hw.setTime hsame
    obtain ⟨hoffset, hsize, hwrites, -⟩ := setTime_sizes s n.presentationTime
    rw [if_neg hnot, add_of_not_closes hcloses]
    refine ⟨_, g, rfl, hgset, rfl, htset.symm, hsize, hwrites, ?_⟩
    rw [hoffset]
    split
    · rfl
    · rename_i hdiff
      by_contra hzero
      exact hdiff (hsame hzero)

/-- What a NAL unit does that the sink is ready for, and, if its time is no obstacle, that
it is ready for all that it receives in bounds. -/
theorem Waits.step (hcb : ∀ f, 0 ≤ frameCb f) (hw : Waits w h s g)
    (htimed : s.frameOffset ≠ 0 → n.presentationTime ≠ s.lastTimeVal →
      s.lastTimeVal.tv_sec ≠ 0 ∧ s.lastTimeVal.tv_usec ≠ 0) :
    (Bounded (s.afterGettingFrame frameCb n).writes ↔ Bounded s.writes ∧ s.Ready n) ∧
      (s.Ready n → Waits w h (s.afterGettingFrame frameCb n) (g.add Nal.presentationTime n)) := by
  obtain ⟨s₁, g₁, hstep, hg₁, hadd, htime, hsize, hwrites, hoffset⟩ := hw.before hcb htimed
  have hroomy := roomy_iff hg₁.blocks n.length_le
  have hready : s.Ready n ↔ s₁.frameOffset + 4 + n.bytes.length ≤ s₁.grownSize n.bytes.length := by
    rw [hroomy, hsize, hoffset]
    exact ⟨fun hr => hr.roomy, fun hr => ⟨htimed, hr⟩⟩
  rw [hstep, hready, hadd]
  refine ⟨?_, fun hle => ⟨hg₁.receive htime hle, fun hnil => ?_⟩⟩
  · rw [bounded_receive hg₁.blocks.small, hwrites]
  · exact absurd hnil (List.append_ne_nil_of_right_ne_nil _ (List.cons_ne_nil _ _))

/-! ## Counting frames -/

/-- A time that is neither set nor replaced. -/
def TimeVal.Stuck (t : TimeVal) : Prop :=
  (t.tv_sec = 0 ∨ t.tv_usec = 0) ∧ ¬(t.tv_sec = 0 ∧ t.tv_usec = 0)

/-- What remains true of a sink that may have missed the end of a run. -/
structure Loose (s : OurRTSPSink) (g : Gathered Nal) : Prop where
  up : s.shutdown = false
  small : s.frameBufferSize < 2 ^ 32
  first : g.cur = [] → s.frameOffset = 0 ∧ s.lastTimeVal = ⟨0, 0⟩
  offset : g.cur ≠ [] → s.frameOffset ≠ 0
  time : s.lastTimeVal.Stuck ∨ ∀ b ∈ g.cur.getLast?, b.presentationTime = s.lastTimeVal

/-- Receiving in bounds. -/
theorem Loose.receive {s₁ : OurRTSPSink} {g₁ : Gathered Nal} (hup : s₁.shutdown = false)
    (hsmall : s₁.frameBufferSize < 2 ^ 32) (hlast : g₁.cur.getLast? = some n)
    (hbounded : Bounded (s₁.receive n).writes)
    (htime : s₁.lastTimeVal.Stuck ∨ n.presentationTime = s₁.lastTimeVal) :
    Loose (s₁.receive n) g₁ := by
  have hle := ((bounded_receive hsmall).1 hbounded).2
  have hsame := sameFrame_receive s₁ n
  have hoffset := receive_frameOffset hsmall hle
  refine ⟨by rw [hsame.shutdown, hup], ?_, fun hnil => ?_, fun _ => by omega, ?_⟩
  · rw [receive_frameBufferSize]
    exact grownSize_lt hsmall _
  · rw [hnil] at hlast
    cases hlast
  · rw [hsame.lastTimeVal]
    refine htime.imp_right fun heq b hb => ?_
    rw [hlast] at hb
    rw [← Option.some.inj hb, heq]

/-- A NAL unit gives out at most one frame, and none if it closes no run. -/
theorem Loose.step (hcb : ∀ f, 0 ≤ frameCb f) (hl : Loose s g)
    (hbounded : Bounded (s.afterGettingFrame frameCb n).writes) :
    Loose (s.afterGettingFrame frameCb n) (g.add Nal.presentationTime n) ∧
      ∃ given closed, (s.afterGettingFrame frameCb n).frames = s.frames ++ given ∧
        (g.add Nal.presentationTime n).closed = g.closed ++ closed ∧
        given.length ≤ closed.length := by
  rw [afterGettingFrame_eq hcb hl.up] at hbounded ⊢
  obtain ⟨-, hsize, -, hframes, hup⟩ := setTime_sizes s n.presentationTime
  split at hbounded
  · rename_i hcomplete
    rw [if_pos hcomplete]
    obtain ⟨hzero, hsec, husec, hdiff⟩ := (complete_setTime s n.presentationTime).1 hcomplete
    rw [setTime_of_set fun hz => hsec hz.1] at hbounded ⊢
    have hlast : ∀ b ∈ g.cur.getLast?, b.presentationTime = s.lastTimeVal := by
      obtain hstuck | hlast := hl.time
      · obtain hz | hz := hstuck.1
        · exact absurd hz hsec
        · exact absurd hz husec
      · exact hlast
    have hne : g.cur ≠ [] := fun hnil => hzero (hl.first hnil).1
    have hcloses : g.Closes Nal.presentationTime n := by
      refine ⟨g.cur.getLast hne, List.getLast?_eq_getLast_of_ne_nil hne, ?_⟩
      rw [hlast _ (List.getLast?_eq_getLast_of_ne_nil hne)]
      exact hdiff.symm
    have hsmall : (s.callBack.restart n.presentationTime).frameBufferSize < 2 ^ 32 := hl.small
    refine ⟨Loose.receive hl.up hsmall add_cur_getLast hbounded (.inr rfl),
      [s.frameInfo], [g.cur], ?_, ?_, Nat.le_refl 1⟩
    · rw [(sameFrame_receive _ n).frames]
      rfl
    · rw [add_of_closes hcloses]
  · rename_i hcomplete
    rw [if_neg hcomplete]
    have hsmall : (s.setTime n.presentationTime).frameBufferSize < 2 ^ 32 := by
      rw [hsize]
      exact hl.small
    refine ⟨Loose.receive (hup.trans hl.up) hsmall add_cur_getLast hbounded ?_, [], ?_⟩
    · by_cases hset : s.lastTimeVal.tv_sec = 0 ∧ s.lastTimeVal.tv_usec = 0
      · rw [OurRTSPSink.setTime, if_pos hset]
        exact .inr rfl
      · rw [setTime_of_set hset]
        by_cases hstuck : s.lastTimeVal.tv_sec = 0 ∨ s.lastTimeVal.tv_usec = 0
        · exact .inl ⟨hstuck, hset⟩
        · -- a time that is set, and a frame: only its own time does not complete it
          rw [not_or] at hstuck
          rw [complete_setTime] at hcomplete
          have hzero : s.frameOffset ≠ 0 := hl.offset fun hnil => by
            rw [(hl.first hnil).2] at hset
            exact hset ⟨rfl, rfl⟩
          by_contra hnot
          exact hcomplete ⟨hzero, hstuck.1, hstuck.2, fun heq => hnot (.inr heq)⟩
    · have hsame : ((s.setTime n.presentationTime).receive n).frames = s.frames ++ [] := by
        rw [(sameFrame_receive _ n).frames, hframes, List.append_nil]
      by_cases hcloses : g.Closes Nal.presentationTime n
      · exact ⟨[g.cur], hsame, by rw [add_of_closes hcloses], Nat.zero_le _⟩
      · exact ⟨[], hsame, by rw [add_of_not_closes hcloses, List.append_nil], Nat.le_refl _⟩

/-! ## Sequences of NAL units -/

/-- What is asked of a sequence: a frame for each run but the last, and nothing behind the
end of the buffer. -/
structure SinkLaw (w h : Int) (nals : List Nal) (s : OurRTSPSink) : Prop where
  frames : s.frames = framesOfNals w h nals
  bounded : Bounded s.writes

/-- The sink is ready for each NAL unit in front of it. -/
def AllReady (frameCb : RtspFrameInfo → Int) (s₀ : OurRTSPSink) (nals : List Nal) : Prop :=
  ∀ earlier n, earlier ++ [n] <+: nals → (s₀.run frameCb earlier).Ready n

theorem run_concat (s₀ : OurRTSPSink) (nals : List Nal) (n : Nal) :
    s₀.run frameCb (nals ++ [n]) = (s₀.run frameCb nals).afterGettingFrame frameCb n := by
  rw [OurRTSPSink.run, List.foldl_append]
  rfl

theorem allReady_concat {s₀ : OurRTSPSink} :
    AllReady frameCb s₀ (nals ++ [n]) ↔
      AllReady frameCb s₀ nals ∧ (s₀.run frameCb nals).Ready n := by
  constructor
  · intro h
    refine ⟨fun earlier m hm => h earlier m (hm.trans (List.prefix_append _ _)), ?_⟩
    exact h nals n (List.prefix_refl _)
  · rintro ⟨hall, hlast⟩ earlier m hm
    obtain heq | hm := List.prefix_concat_iff.1 hm
    · obtain ⟨hearlier, hone⟩ := List.append_inj' heq rfl
      rw [hearlier, List.singleton_inj.1 hone]
      exact hlast
    · exact hall earlier m hm

theorem framesOfNals_eq (w h : Int) (nals : List Nal) :
    framesOfNals w h nals = framesOf w h (gather Nal.presentationTime nals).closed := by
  rw [framesOfNals, dropLast_runs]

/-- What is copied stays on the record. -/
theorem writes_prefix (frameCb : RtspFrameInfo → Int) (s : OurRTSPSink) (n : Nal) :
    s.writes <+: (s.afterGettingFrame frameCb n).writes := by
  have hset := (setTime_sizes s n.presentationTime).2.2.1
  rw [OurRTSPSink.afterGettingFrame]
  split
  · exact List.prefix_refl _
  dsimp only
  split
  · split
    · show s.writes <+: (s.setTime n.presentationTime).writes
      rw [hset]
    · rw [receive_writes]
      show s.writes <+: (s.setTime n.presentationTime).writes ++ _
      rw [hset]
      exact List.prefix_append _ _
  · rw [receive_writes, hset]
    exact List.prefix_append _ _

theorem bounded_of_step (h : Bounded (s.afterGettingFrame frameCb n).writes) :
    Bounded s.writes := by
  obtain ⟨more, hmore⟩ := writes_prefix frameCb s n
  rw [← hmore, bounded_append] at h
  exact h.1

variable {buffer : ByteFile}

theorem initial_lt : 256 * 1024 < 2 ^ 32 := by decide

theorem waits_new (w h : Int) (buffer : ByteFile) :
    Waits w h (.new w h buffer) (gather Nal.presentationTime []) where
  gathers := ⟨rfl, rfl, rfl, rfl, rfl, rfl, rfl, rfl, fun _ hm => absurd hm List.not_mem_nil,
    ⟨⟨4, rfl⟩, initial_lt, Nat.zero_le _⟩⟩
  first := fun _ => rfl

theorem loose_new (w h : Int) (buffer : ByteFile) :
    Loose (.new w h buffer) (gather Nal.presentationTime []) where
  up := rfl
  small := initial_lt
  first := fun _ => ⟨rfl, rfl⟩
  offset := fun hne => absurd rfl hne
  time := .inr fun b hb => by cases hb

/-- As long as nothing is out of bounds there are at most as many frames as runs that are
closed. -/
theorem loose_run (hcb : ∀ f, 0 ≤ frameCb f)
    (hbounded : Bounded ((OurRTSPSink.new w h buffer).run frameCb nals).writes) :
    Loose ((OurRTSPSink.new w h buffer).run frameCb nals) (gather Nal.presentationTime nals) ∧
      ((OurRTSPSink.new w h buffer).run frameCb nals).frames.length ≤
        (gather Nal.presentationTime nals).closed.length := by
  induction nals using List.reverseRecOn with
  | nil => exact ⟨loose_new w h buffer, Nat.le_refl 0⟩
  | append_singleton nals n ih =>
      rw [run_concat] at hbounded ⊢
      rw [gather_concat]
      obtain ⟨hloose, hcount⟩ := ih (bounded_of_step hbounded)
      obtain ⟨hstep, given, closed, hframes, hclosed, hle⟩ := hloose.step hcb hbounded
      refine ⟨hstep, ?_⟩
      rw [hframes, hclosed, List.length_append, List.length_append]
      omega

/-- What a longer sequence meets, the shorter one meets. -/
theorem SinkLaw.of_concat (hcb : ∀ f, 0 ≤ frameCb f)
    (hlaw : SinkLaw w h (nals ++ [n]) ((OurRTSPSink.new w h buffer).run frameCb (nals ++ [n]))) :
    SinkLaw w h nals ((OurRTSPSink.new w h buffer).run frameCb nals) := by
  have hbounded := hlaw.bounded
  have hall := hlaw.frames
  rw [framesOfNals_eq, gather_concat] at hall
  rw [run_concat] at hbounded hall
  obtain ⟨hloose, hcount⟩ := loose_run hcb (bounded_of_step hbounded)
  obtain ⟨-, given, closed, hframes, hclosed, hle⟩ := hloose.step hcb hbounded
  refine ⟨?_, bounded_of_step hbounded⟩
  rw [hframes, hclosed, framesOf, List.zipIdx_append, List.map_append] at hall
  have hlengths := congrArg List.length hall
  simp only [List.length_append, List.length_map, List.length_zipIdx] at hlengths
  rw [framesOfNals_eq]
  refine (List.append_inj hall ?_).1
  rw [List.length_map, List.length_zipIdx]
  omega

/-- If a run is closed whose time has a part that is 0, its frame is missed. -/
theorem SinkLaw.timed (hcb : ∀ f, 0 ≤ frameCb f)
    (hlaw : SinkLaw w h (nals ++ [n]) ((OurRTSPSink.new w h buffer).run frameCb (nals ++ [n])))
    (hw : Waits w h ((OurRTSPSink.new w h buffer).run frameCb nals)
      (gather Nal.presentationTime nals)) :
    ((OurRTSPSink.new w h buffer).run frameCb nals).frameOffset ≠ 0 →
      n.presentationTime ≠ ((OurRTSPSink.new w h buffer).run frameCb nals).lastTimeVal →
      ((OurRTSPSink.new w h buffer).run frameCb nals).lastTimeVal.tv_sec ≠ 0 ∧
        ((OurRTSPSink.new w h buffer).run frameCb nals).lastTimeVal.tv_usec ≠ 0 := by
  have hall := hlaw.frames
  rw [framesOfNals_eq, gather_concat, run_concat] at hall
  generalize (OurRTSPSink.new w h buffer).run frameCb nals = s at hw hall ⊢
  intro hzero hdiff
  have hg := hw.gathers
  have hcloses := hg.closes_iff.2 ⟨hzero, hdiff⟩
  by_contra hnot
  have hcomplete : ¬(s.setTime n.presentationTime).Complete n.presentationTime := by
    rw [complete_setTime]
    exact fun hc => hnot ⟨hc.2.1, hc.2.2.1⟩
  rw [afterGettingFrame_eq hcb hg.up, if_neg hcomplete, (sameFrame_receive _ n).frames,
    (setTime_sizes s _).2.2.2.1, hg.frames, add_of_closes hcloses, framesOf_concat] at hall
  exact List.cons_ne_nil _ _ (List.self_eq_append_right.1 hall)

theorem waits_of_allReady (hcb : ∀ f, 0 ≤ frameCb f)
    (hready : AllReady frameCb (.new w h buffer) nals) :
    Waits w h ((OurRTSPSink.new w h buffer).run frameCb nals) (gather Nal.presentationTime nals) ∧
      Bounded ((OurRTSPSink.new w h buffer).run frameCb nals).writes := by
  induction nals using List.reverseRecOn with
  | nil => exact ⟨waits_new w h buffer, fun x hx => absurd hx List.not_mem_nil⟩
  | append_singleton nals n ih =>
      obtain ⟨hearlier, hlast⟩ := allReady_concat.1 hready
      obtain ⟨hw, hbounded⟩ := ih hearlier
      obtain ⟨hwrites, hstep⟩ := hw.step hcb hlast.timed
      rw [run_concat, gather_concat]
      exact ⟨hstep hlast, hwrites.2 ⟨hbounded, hlast⟩⟩

/-- The frames of a sequence of NAL units are its runs of equal times, and nothing is
copied behind the buffer, if and only if the sink is ready for each of them. -/
theorem sinkLaw_iff (hcb : ∀ f, 0 ≤ frameCb f) (w h : Int) (buffer : ByteFile)
    (nals : List Nal) :
    SinkLaw w h nals ((OurRTSPSink.new w h buffer).run frameCb nals) ↔
      AllReady frameCb (.new w h buffer) nals := by
  constructor
  · intro hlaw
    induction nals using List.reverseRecOn with
    | nil =>
        intro earlier n hprefix
        exact absurd (List.prefix_nil.1 hprefix)
          (List.append_ne_nil_of_right_ne_nil _ (List.cons_ne_nil _ _))
    | append_singleton nals n ih =>
        have hearlier := ih (hlaw.of_concat hcb)
        have hw := (waits_of_allReady hcb hearlier).1
        have hbounded := hlaw.bounded
        rw [run_concat] at hbounded
        exact allReady_concat.2 ⟨hearlier, ((hw.step hcb (hlaw.timed hcb hw)).1.1 hbounded).2⟩
  · intro hready
    obtain ⟨hw, hbounded⟩ := waits_of_allReady hcb hready
    exact ⟨by rw [framesOfNals_eq, hw.gathers.frames], hbounded⟩

/-- A NAL unit of one byte. -/
def oneByte (c : UInt8) (t : TimeVal) : Nal :=
  ⟨[c], t, List.cons_ne_nil _ _, Nat.succ_le_of_lt (by decide)⟩

/-- A frame of a second exactly, and the next one. -/
def wholeSecond : List Nal := [oneByte 0x65 ⟨1, 0⟩, oneByte 0x41 ⟨1, 40000⟩]

theorem sinkLaw_iff_wholeSecond :
    SinkLaw 0 0 wholeSecond ((OurRTSPSink.new 0 0 fun _ => 0).run (fun _ => 0) wholeSecond) ↔
      AllReady (fun _ => 0) (.new 0 0 fun _ => 0) wholeSecond :=
  sinkLaw_iff (fun _ => Int.le_refl 0) 0 0 (fun _ => 0) wholeSecond

/-- The frame of a second exactly is not given out. -/
theorem not_sinkLaw : ¬∀ (w h : Int) (buffer : ByteFile) (nals : List Nal),
    SinkLaw w h nals ((OurRTSPSink.new w h buffer).run (fun _ => 0) nals) := by
  intro hlaw
  have hframes := (hlaw 0 0 (fun _ => 0) wholeSecond).frames
  have hnone : ((OurRTSPSink.new 0 0 fun _ => 0).run (fun _ => 0) wholeSecond).frames = [] := by
    decide
  have hone : (framesOfNals 0 0 wholeSecond).length = 1 := by decide
  rw [← hframes, hnone] at hone
  cases hone

end Nvr.RtspClient
