import Nvr.Lib.Run
import Nvr.Player.Decode

/-!
# Frames that are dropped

As long as `discard_frame_num` is not 0, a frame is handed to the decoder only if it is an
I-frame. A frame that is handed over from there on has `first_frame` set, so that the delay
is not counted with it, and what is left of `discard_frame_num` is still left behind it. It
is 0 if it was 1; but a frame whose number is large enough is taken before that.
-/

namespace Nvr.Player

/-! ## The law -/

/-- A frame has been dropped, or the decoder has failed. -/
def Turn.Waits (t : Turn) : Prop := t.dropped = true ∨ t.ret = -2

/-- The delay has raised `discard_frame_num`, or the decoder has failed. -/
def Turn.Renews (t : Turn) : Prop := t.raised = true ∨ t.ret = -2

/-- What the turns of a channel should be: behind a frame that is dropped, or that the decoder
fails with, the next one handed over is an I-frame with `first_frame`, and from this one on no
frame is dropped before there is reason for it again. -/
structure DropLaw (turns : List Turn) : Prop where
  resumes : ∀ front t mid u back, turns = front ++ t :: (mid ++ u :: back) → t.Waits →
    (∀ v ∈ mid, v.handed = none) → ∀ frame, u.handed = some frame → frame = (avVideoFrameI, true)
  ends : ∀ front t mid u more w back,
    turns = front ++ t :: (mid ++ u :: (more ++ w :: back)) → t.Waits →
    (∀ v ∈ mid, v.handed = none) → u.handed ≠ none → (∀ v ∈ u :: more, ¬v.Renews) →
    w.dropped = false

/-- One message to a channel that is at work. -/
def Plays (s : DecodeCtl) (l : DecodeCmd × Turn) (t : DecodeCtl) : Prop :=
  s.main l.1 = (some l.2, t)

/-- No I-frame is taken before `discard_frame_num` is 1. -/
def TakesLast (s : DecodeCtl) : DecodeCmd → Prop
  | .newData _ frame _ =>
      frame.u8FrameType = avVideoFrameI → 1 < s.discard_frame_num →
        frame.u32FrameNo < s.dec_frame_no + (s.discard_frame_num - 1)
  | _ => True

namespace DecodeCtl

variable {hdl : DecodeCtl} {frame : DecodeFrame} {io : DecodeIo} {first : Bool}

/-! ## What the functions leave as it is -/

@[simp] theorem rateCount_discard (timestamp : UInt32) :
    (hdl.rateCount timestamp).discard_frame_num = hdl.discard_frame_num := by
  simp only [rateCount]
  split
  · split
    · split <;> rfl
    · rfl
  · rfl

@[simp] theorem rateCount_sta (timestamp : UInt32) :
    (hdl.rateCount timestamp).dec_thr_sta = hdl.dec_thr_sta := by
  simp only [rateCount]
  split
  · split
    · split <;> rfl
    · rfl
  · rfl

theorem rateCount_times (timestamp : UInt32) :
    (hdl.rateCount timestamp).cur_dec_time = hdl.cur_dec_time ∧
      (hdl.rateCount timestamp).pre_dec_time = hdl.pre_dec_time ∧
      (hdl.rateCount timestamp).delay_time = hdl.delay_time := by
  simp only [rateCount]
  split
  · split
    · split <;> exact ⟨rfl, rfl, rfl⟩
    · exact ⟨rfl, rfl, rfl⟩
  · exact ⟨rfl, rfl, rfl⟩

@[simp] theorem checkContinue_discard :
    (hdl.checkContinue first).2.discard_frame_num = hdl.discard_frame_num := by
  rw [checkContinue]
  split <;> rfl

@[simp] theorem checkContinue_sta : (hdl.checkContinue first).2.dec_thr_sta = hdl.dec_thr_sta := by
  rw [checkContinue]
  split <;> rfl

@[simp] theorem delayCount_sta (timestamp : UInt32) :
    (hdl.delayCount timestamp).dec_thr_sta = hdl.dec_thr_sta := by
  simp only [delayCount]
  split
  · split <;> rfl
  · split <;> rfl

/-- The delay is not counted with a frame that has nothing in front of it. -/
theorem delayCount_discard {timestamp : UInt32} (h : ¬hdl.Clears timestamp) :
    (hdl.delayCount timestamp).discard_frame_num = hdl.discard_frame_num := by
  simp only [delayCount]
  split
  · rename_i hlt
    rw [if_neg fun hclears => h ⟨hlt, hclears⟩]
  · split <;> rfl

@[simp] theorem abnormalConf_false : hdl.abnormalConf false = hdl := rfl

@[simp] theorem resCheck_discard (ok : Bool) :
    (hdl.resCheck ok).2.discard_frame_num = hdl.discard_frame_num := by
  simp only [resCheck]
  split
  · split <;> rfl
  · rfl

@[simp] theorem resCheck_sta (ok : Bool) :
    (hdl.resCheck ok).2.dec_thr_sta = hdl.dec_thr_sta := by
  simp only [resCheck]
  split
  · split <;> rfl
  · rfl

/-- `decode_decode_pro`: a frame that is not handed over makes it return -1. -/
theorem decodePro_spec (type : UInt8) (io : DecodeIo) :
    (hdl.decodePro type io).2.2.discard_frame_num = hdl.discard_frame_num ∧
      (hdl.decodePro type io).2.2.dec_thr_sta = hdl.dec_thr_sta ∧
      ((hdl.decodePro type io).1 = false → (hdl.decodePro type io).2.1 = -1) := by
  have hres : ∀ r, r = (if type = avVideoFrameI then hdl.resCheck io.decoderInit else (0, hdl)) →
      r.2.discard_frame_num = hdl.discard_frame_num ∧ r.2.dec_thr_sta = hdl.dec_thr_sta := by
    rintro r rfl
    split
    · exact ⟨resCheck_discard _, resCheck_sta _⟩
    · exact ⟨rfl, rfl⟩
  simp only [decodePro]
  generalize hr : (if type = avVideoFrameI then hdl.resCheck io.decoderInit else (0, hdl)) = r
  obtain ⟨hdiscard, hsta⟩ := hres r hr.symm
  split
  · exact ⟨hdiscard, hsta, fun _ => rfl⟩
  · split
    · exact ⟨hdiscard, hsta, fun _ => rfl⟩
    · exact ⟨hdiscard, hsta, fun h => nomatch h⟩

/-- A frame with nothing in front of it has no delay to be counted. -/
theorem not_clears_first (hcur : hdl.cur_dec_time = 0) (hpre : hdl.pre_dec_time = 0)
    {timestamp : UInt32} : ¬hdl.Clears timestamp := by
  rintro ⟨hlt, -⟩
  rw [hcur, hpre] at hlt
  exact absurd hlt (UInt32.not_lt_zero)

/-- What `decode_video_data_pro` does with a frame that is not dropped. -/
structure Decoded (hdl : DecodeCtl) (type : UInt8) (first : Bool) (r : Turn × DecodeCtl) :
    Prop where
  dropped : r.1.dropped = false
  sta : r.2.dec_thr_sta = hdl.dec_thr_sta
  kept : r.1.handed = none → r.1.ret ≠ 0 ∧ r.1.ret ≠ -2
  handed : ∀ x f, r.1.handed = some (x, f) → x = type ∧ (first = true → f = true)
  discard : r.1.raised = false →
    r.2.discard_frame_num = hdl.discard_frame_num ∨ r.2.discard_frame_num = 0
  first : first = true → r.1.raised = false ∧ r.2.discard_frame_num = hdl.discard_frame_num

theorem counted_discard {timestamp : UInt32} (h : hdl.raises timestamp = false) :
    (hdl.counted timestamp).discard_frame_num = hdl.discard_frame_num ∨
      (hdl.counted timestamp).discard_frame_num = 0 := by
  rw [counted]
  split
  · rename_i hnet
    by_cases hclears : hdl.Clears timestamp
    · refine .inr (Decidable.not_not.1 fun hne => ?_)
      exact of_decide_eq_false h ⟨hnet, hclears, hne⟩
    · exact .inl (delayCount_discard hclears)
  · exact .inl rfl

@[simp] theorem counted_sta (timestamp : UInt32) :
    (hdl.counted timestamp).dec_thr_sta = hdl.dec_thr_sta := by
  rw [counted]
  split
  · exact delayCount_sta timestamp
  · rfl

theorem counted_discard_first (hcur : hdl.cur_dec_time = 0) (hpre : hdl.pre_dec_time = 0)
    (timestamp : UInt32) :
    (hdl.counted timestamp).discard_frame_num = hdl.discard_frame_num := by
  rw [counted]
  split
  · exact delayCount_discard (not_clears_first hcur hpre)
  · rfl

theorem checkContinue_first : (hdl.checkContinue true).1 = true ∧
    (hdl.checkContinue true).2.cur_dec_time = 0 ∧ (hdl.checkContinue true).2.pre_dec_time = 0 := by
  rw [checkContinue, if_pos (.inr (.inr rfl))]
  exact ⟨rfl, rfl, rfl⟩

@[simp] theorem depart_discard : (hdl.depart frame io).discard_frame_num = hdl.discard_frame_num :=
  rfl

@[simp] theorem depart_sta : (hdl.depart frame io).dec_thr_sta = hdl.dec_thr_sta := rfl

@[simp] theorem arrive_discard : (hdl.arrive frame io).discard_frame_num = hdl.discard_frame_num :=
  rfl

@[simp] theorem arrive_sta : (hdl.arrive frame io).dec_thr_sta = hdl.dec_thr_sta := rfl

theorem decodeFrame_spec (hdl : DecodeCtl) (frame : DecodeFrame) (first : Bool) (io : DecodeIo) :
    Decoded hdl frame.u8FrameType first (hdl.decodeFrame frame first io) := by
  have hdiscard : ((hdl.arrive frame io).checkContinue first).2.discard_frame_num =
      hdl.discard_frame_num := by
    rw [checkContinue_discard, arrive_discard]
  have hsta : ((hdl.arrive frame io).checkContinue first).2.dec_thr_sta = hdl.dec_thr_sta := by
    rw [checkContinue_sta, arrive_sta]
  have hfirst : first = true → ((hdl.arrive frame io).checkContinue first).1 = true ∧
      ((hdl.arrive frame io).checkContinue first).2.cur_dec_time = 0 ∧
      ((hdl.arrive frame io).checkContinue first).2.pre_dec_time = 0 := by
    rintro rfl
    exact checkContinue_first
  rw [decodeFrame]
  generalize (hdl.arrive frame io).checkContinue first = r at hdiscard hsta hfirst ⊢
  generalize r.2.timestamp r.1 = timestamp
  obtain ⟨hcur, hpre, -⟩ := @rateCount_times r.2 timestamp
  have hrated : (r.2.rateCount timestamp).discard_frame_num = hdl.discard_frame_num := by
    rw [rateCount_discard, hdiscard]
  have hrated_sta : (r.2.rateCount timestamp).dec_thr_sta = hdl.dec_thr_sta := by
    rw [rateCount_sta, hsta]
  generalize r.2.rateCount timestamp = u at hcur hpre hrated hrated_sta ⊢
  obtain ⟨hpro, hpro_sta, hpro_none⟩ :=
    @decodePro_spec ((u.counted timestamp).depart frame io) frame.u8FrameType io
  rw [depart_discard] at hpro
  rw [depart_sta, counted_sta, hrated_sta] at hpro_sta
  generalize ((u.counted timestamp).depart frame io).decodePro frame.u8FrameType io = d
    at hpro hpro_sta hpro_none ⊢
  refine ⟨rfl, hpro_sta, fun hnone => ?_, fun x f hx => ?_, fun hraised => ?_, fun h => ?_⟩
  · have hfalse : d.1 = false := by
      cases hd : d.1 with
      | false => rfl
      | true => simp [hd] at hnone
    simp [hpro_none hfalse]
  · cases hd : d.1 with
    | false => simp [hd] at hx
    | true =>
        simp only [hd, if_true, Option.some.injEq, Prod.mk.injEq] at hx
        obtain ⟨hx, hf⟩ := hx
        refine ⟨hx.symm, fun h => ?_⟩
        rw [← hf]
        exact (hfirst h).1
  · dsimp only at hraised ⊢
    rw [hpro, ← hrated]
    exact counted_discard hraised
  · obtain ⟨-, hs, hs'⟩ := hfirst h
    have hclears := @not_clears_first u (hcur.trans hs) (hpre.trans hs') timestamp
    refine ⟨decide_eq_false fun hraises => hclears hraises.2.1, ?_⟩
    dsimp only
    rw [hpro, ← hrated]
    exact counted_discard_first (hcur.trans hs) (hpre.trans hs') timestamp

/-! ## One message -/

/-- `decode_discard_frame_judge` without a reason to drop. -/
theorem judge_zero (h : hdl.discard_frame_num = 0) (type : UInt8) (no : UInt32) :
    hdl.discardFrameJudge type no first = (false, first, hdl) := by
  rw [discardFrameJudge, if_pos h]

section

variable {type : UInt8} {no : UInt32}

/-- An I-frame ends the dropping, and leaves the rest of the number. -/
theorem judge_resume (h : hdl.discard_frame_num ≠ 0)
    (hlast : hdl.discard_frame_num - 1 = 0 ∨ hdl.dec_frame_no + (hdl.discard_frame_num - 1) ≤ no)
    (htype : type = avVideoFrameI) : hdl.discardFrameJudge type no first =
      (false, true, { hdl with discard_frame_num := hdl.discard_frame_num - 1 }) := by
  rw [discardFrameJudge, if_neg h]
  exact (if_pos hlast).trans (if_pos htype)

theorem judge_wait (h : hdl.discard_frame_num ≠ 0)
    (hlast : hdl.discard_frame_num - 1 = 0 ∨ hdl.dec_frame_no + (hdl.discard_frame_num - 1) ≤ no)
    (htype : type ≠ avVideoFrameI) : hdl.discardFrameJudge type no first =
      (true, first, { hdl with discard_frame_num := 1 }) := by
  rw [discardFrameJudge, if_neg h]
  exact (if_pos hlast).trans (if_neg htype)

theorem judge_early (h : hdl.discard_frame_num ≠ 0)
    (hearly : ¬(hdl.discard_frame_num - 1 = 0 ∨
      hdl.dec_frame_no + (hdl.discard_frame_num - 1) ≤ no)) :
    hdl.discardFrameJudge type no first =
      (true, first, { hdl with discard_frame_num := hdl.discard_frame_num - 1 }) := by
  rw [discardFrameJudge, if_neg h]
  exact if_neg hearly

/-- With a reason to drop the frame is dropped, and there is one still; or it is an I-frame. -/
theorem judge_pos (h : hdl.discard_frame_num ≠ 0) :
    (∃ s, s.discard_frame_num ≠ 0 ∧ hdl.discardFrameJudge type no first = (true, first, s)) ∨
      (type = avVideoFrameI ∧
        (hdl.discard_frame_num - 1 = 0 ∨ hdl.dec_frame_no + (hdl.discard_frame_num - 1) ≤ no) ∧
        hdl.discardFrameJudge type no first =
          (false, true, { hdl with discard_frame_num := hdl.discard_frame_num - 1 })) := by
  by_cases hlast : hdl.discard_frame_num - 1 = 0 ∨
      hdl.dec_frame_no + (hdl.discard_frame_num - 1) ≤ no
  · by_cases htype : type = avVideoFrameI
    · exact .inr ⟨htype, hlast, judge_resume h hlast htype⟩
    · exact .inl ⟨_, show (1 : UInt32) ≠ 0 by decide, judge_wait h hlast htype⟩
  · exact .inl ⟨_, fun hzero => hlast (.inl hzero), judge_early h hlast⟩

end

end DecodeCtl

variable {s t : DecodeCtl} {cmd : DecodeCmd} {turn : Turn}

/-- As long as the channel is at work, it waits for an I-frame. -/
def AwaitsI (s : DecodeCtl) : Prop := s.dec_thr_sta = .workOn → s.discard_frame_num ≠ 0

/-- The messages that there is a turn for. -/
theorem plays_cases (h : Plays s (cmd, turn) t) :
    s.dec_thr_sta = .workOn ∧
      ((∃ res frame io, cmd = .newData res frame io ∧
          turn = ({ s with cur_out_res := res }.videoDataPro frame io).1 ∧
          t = ({ s with cur_out_res := res }.videoDataPro frame io).2.afterTurn turn.ret) ∨
        (∃ moved, cmd = .clearData moved ∧ turn = ⟨false, none, false, 0⟩ ∧
          t = if moved then s else { s with dec_thr_sta := .standby })) := by
  have hmain : s.main cmd = (some turn, t) := h
  cases cmd with
  | newData res frame io =>
      rw [DecodeCtl.main] at hmain
      split at hmain
      · rename_i hwork
        obtain ⟨hturn, ht⟩ := Prod.mk.inj hmain
        obtain rfl := Option.some.inj hturn
        exact ⟨hwork, .inl ⟨res, frame, io, rfl, rfl, ht.symm⟩⟩
      · cases hmain
  | clearData moved =>
      rw [DecodeCtl.main] at hmain
      split at hmain
      · rename_i hwork
        obtain ⟨hturn, ht⟩ := Prod.mk.inj hmain
        obtain rfl := Option.some.inj hturn
        exact ⟨hwork, .inr ⟨moved, rfl, rfl, ht.symm⟩⟩
      · cases hmain
  | standby => cases hmain
  | workOnAlready record =>
      rw [DecodeCtl.main] at hmain
      split at hmain <;> cases hmain

theorem afterTurn_of_zero (s : DecodeCtl) : s.afterTurn 0 = s := rfl

theorem afterTurn_failed (s : DecodeCtl) : (s.afterTurn (-2)).discard_frame_num = 1 := rfl

theorem afterTurn_standby {ret : Int} (hzero : ret ≠ 0) (hfail : ret ≠ -2) :
    s.afterTurn ret = { s with dec_thr_sta := .standby } := by
  rw [DecodeCtl.afterTurn, if_neg hzero, if_neg hfail]

/-- Behind the decoder's failure, or without a change, nothing is waited for but an I-frame. -/
theorem afterTurn_discard {ret : Int} (hfail : ret ≠ -2) :
    (s.afterTurn ret).discard_frame_num = s.discard_frame_num := by
  rw [DecodeCtl.afterTurn]
  split
  · rfl
  · rfl

/-- What one turn does to the number of frames to drop. -/
structure TurnSpec (s : DecodeCtl) (cmd : DecodeCmd) (turn : Turn) (t : DecodeCtl) : Prop where
  waits : turn.Waits → AwaitsI t
  pending : AwaitsI s → turn.handed = none → AwaitsI t
  resumes : AwaitsI s → ∀ x, turn.handed = some x → x = (avVideoFrameI, true)
  ends : AwaitsI s → TakesLast s cmd → turn.handed ≠ none → ¬turn.Renews → t.discard_frame_num = 0
  quiet : s.discard_frame_num = 0 →
    turn.dropped = false ∧ (¬turn.Renews → t.discard_frame_num = 0)

theorem turnSpec_clear {moved : Bool} (hturn : turn = ⟨false, none, false, 0⟩)
    (ht : t = if moved then s else { s with dec_thr_sta := .standby }) : TurnSpec s cmd turn t := by
  have hdiscard : t.discard_frame_num = s.discard_frame_num := by
    rw [ht]
    split <;> rfl
  have hsta : t.dec_thr_sta = .workOn → s.dec_thr_sta = .workOn := by
    rw [ht]
    split
    · exact id
    · exact fun h => nomatch h
  subst hturn
  refine ⟨?_, ?_, ?_, ?_, ?_⟩
  · rintro (h | h)
    · cases h
    · exact absurd h (by decide)
  · intro hs _ hwork
    rw [hdiscard]
    exact hs (hsta hwork)
  · exact fun _ x hx => nomatch hx
  · exact fun _ _ h => absurd rfl h
  · exact fun h => ⟨rfl, fun _ => hdiscard.trans h⟩

section

variable {res : UInt32} {frame : DecodeFrame} {io : DecodeIo}

/-- The resolution that is asked for has nothing to do with dropping. -/
abbrev DecodeCtl.asked (s : DecodeCtl) (res : UInt32) : DecodeCtl := { s with cur_out_res := res }

theorem videoDataPro_noBuf (h : io.fullBuf = false) :
    s.videoDataPro frame io = (⟨false, none, false, -1⟩, s) := by
  rw [DecodeCtl.videoDataPro, if_pos (by simp [h])]

theorem videoDataPro_dropped {first : Bool} (hfull : io.fullBuf = true)
    (h : s.discardFrameJudge frame.u8FrameType frame.u32FrameNo frame.first_frame =
      (true, first, t)) : s.videoDataPro frame io = (⟨true, none, false, 0⟩, t) := by
  rw [DecodeCtl.videoDataPro, if_neg (by simp [hfull]), h]
  exact if_pos rfl

theorem videoDataPro_taken {first : Bool} (hfull : io.fullBuf = true)
    (h : s.discardFrameJudge frame.u8FrameType frame.u32FrameNo frame.first_frame =
      (false, first, t)) : s.videoDataPro frame io = t.decodeFrame frame first io := by
  rw [DecodeCtl.videoDataPro, if_neg (by simp [hfull]), h]
  exact if_neg Bool.false_ne_true

/-- Behind `afterTurn` the channel waits, is not at work, or has the number of before. -/
theorem pending_of_failed {ret : Int} (h : ret = -2) : AwaitsI (s.afterTurn ret) := by
  subst h
  exact fun _ => show (1 : UInt32) ≠ 0 by decide

theorem pending_of_standby {ret : Int} (hzero : ret ≠ 0) (hfail : ret ≠ -2) :
    AwaitsI (s.afterTurn ret) := by
  rw [afterTurn_standby hzero hfail]
  exact fun h => nomatch h

/-- A frame that is decoded while no frame is to be dropped. -/
theorem turnSpec_decoded {first : Bool} {r : Turn × DecodeCtl} {u : DecodeCtl}
    (hwork : s.dec_thr_sta = .workOn) (hu : u.discard_frame_num = s.discard_frame_num)
    (hdecoded : DecodeCtl.Decoded u frame.u8FrameType first r) (h : s.discard_frame_num = 0) :
    TurnSpec s cmd r.1 (r.2.afterTurn r.1.ret) := by
  have hnot : ¬AwaitsI s := fun hs => hs hwork h
  refine ⟨?_, fun hs => absurd hs hnot, fun hs => absurd hs hnot, fun hs => absurd hs hnot, ?_⟩
  · rintro (hdropped | hfail)
    · rw [hdecoded.dropped] at hdropped
      cases hdropped
    · exact pending_of_failed hfail
  · refine fun _ => ⟨hdecoded.dropped, fun hrenews => ?_⟩
    rw [afterTurn_discard fun hfail => hrenews (.inr hfail)]
    have hraised : r.1.raised = false := Bool.eq_false_iff.2 fun hr => hrenews (.inl hr)
    obtain hkept | hzero := hdecoded.discard hraised
    · rw [hkept, hu, h]
    · exact hzero

/-- An I-frame that ends the dropping. -/
theorem turnSpec_resumed {r : Turn × DecodeCtl} {u : DecodeCtl} (h : s.discard_frame_num ≠ 0)
    (hu : u.discard_frame_num = s.discard_frame_num - 1)
    (hdecoded : DecodeCtl.Decoded u avVideoFrameI true r)
    (hlast : TakesLast s cmd → s.discard_frame_num - 1 = 0) :
    TurnSpec s cmd r.1 (r.2.afterTurn r.1.ret) := by
  obtain ⟨-, hdiscard⟩ := hdecoded.first rfl
  refine ⟨?_, fun _ hnone => ?_, fun _ x hx => ?_, fun _ htakes _ hrenews => ?_,
    fun hzero => absurd hzero h⟩
  · rintro (hdropped | hfail)
    · rw [hdecoded.dropped] at hdropped
      cases hdropped
    · exact pending_of_failed hfail
  · obtain ⟨hzero, hfail⟩ := hdecoded.kept hnone
    exact pending_of_standby hzero hfail
  · obtain ⟨x, f⟩ := x
    obtain ⟨hx, hf⟩ := hdecoded.handed x f hx
    rw [hx, hf rfl]
  · rw [afterTurn_discard fun hfail => hrenews (.inr hfail), hdiscard, hu, hlast htakes]

theorem turnSpec_newData (hwork : s.dec_thr_sta = .workOn) :
    TurnSpec s (.newData res frame io) ((s.asked res).videoDataPro frame io).1
      (((s.asked res).videoDataPro frame io).2.afterTurn
        ((s.asked res).videoDataPro frame io).1.ret) := by
  have hasked : (s.asked res).discard_frame_num = s.discard_frame_num := rfl
  have hno : (s.asked res).dec_frame_no = s.dec_frame_no := rfl
  cases hfull : io.fullBuf with
  | false =>
      rw [videoDataPro_noBuf hfull]
      have hzero : (-1 : Int) ≠ 0 := by decide
      have hfail : (-1 : Int) ≠ -2 := by decide
      refine ⟨?_, fun _ _ => pending_of_standby hzero hfail, fun _ x hx => (nomatch hx),
        fun _ _ h => absurd rfl h, fun h => ⟨rfl, fun _ => h⟩⟩
      rintro (h | h)
      · cases h
      · exact absurd h hfail
  | true =>
      by_cases hzero : s.discard_frame_num = 0
      · rw [videoDataPro_taken hfull (DecodeCtl.judge_zero (hasked.trans hzero) _ _)]
        exact turnSpec_decoded hwork hasked (DecodeCtl.decodeFrame_spec _ _ _ _) hzero
      obtain ⟨u, hu, hjudge⟩ | ⟨htype, hlast, hjudge⟩ := @DecodeCtl.judge_pos (s.asked res)
        frame.first_frame frame.u8FrameType frame.u32FrameNo (hasked ▸ hzero)
      · rw [videoDataPro_dropped hfull hjudge]
        exact ⟨fun _ _ => hu, fun _ _ _ => hu, fun _ x hx => (nomatch hx),
          fun _ _ h => absurd rfl h, fun h => absurd h hzero⟩
      · rw [videoDataPro_taken hfull hjudge]
        have hspec := DecodeCtl.decodeFrame_spec
          { s.asked res with discard_frame_num := (s.asked res).discard_frame_num - 1 } frame true io
        rw [htype] at hspec
        refine turnSpec_resumed hzero rfl hspec fun htakes => ?_
        by_contra hone
        rw [hasked, hno] at hlast
        obtain hlast | hlast := hlast
        · exact hone hlast
        · have hlt := htakes htype ?_
          · exact absurd hlast (UInt32.not_le.2 hlt)
          · by_contra hle
            refine hone ?_
            have hnat : s.discard_frame_num.toNat ≤ 1 := UInt32.not_lt.1 hle
            have hne : s.discard_frame_num.toNat ≠ 0 := fun hz => hzero (UInt32.toNat_inj.1 hz)
            have heq : s.discard_frame_num = 1 := UInt32.toNat_inj.1 (by
              show s.discard_frame_num.toNat = 1
              omega)
            rw [heq]
            rfl

end

/-- A turn, whatever the message is. -/
theorem turnSpec (h : Plays s (cmd, turn) t) : TurnSpec s cmd turn t := by
  obtain ⟨hwork, ⟨res, frame, io, rfl, rfl, rfl⟩ | ⟨moved, rfl, hturn, ht⟩⟩ := plays_cases h
  · exact turnSpec_newData hwork
  · exact turnSpec_clear hturn ht

/-! ## Runs -/

/-- The steps that take an I-frame only as the last one of those to drop. -/
def PlaysClean : DecodeCtl → DecodeCmd × Turn → DecodeCtl → Prop :=
  Restrict Plays fun s l => TakesLast s l.1

variable {ls : List (DecodeCmd × Turn)}

/-- A channel that waits goes on waiting as long as no frame is handed over. -/
theorem pending_run (h : Run PlaysClean s ls t) (hs : AwaitsI s)
    (hnone : ∀ v ∈ ls.map Prod.snd, v.handed = none) : AwaitsI t := by
  induction h with
  | nil => exact hs
  | @snoc as u w a _ hstep ih =>
      rw [List.map_append] at hnone
      refine (turnSpec hstep.1).pending (ih fun v hv => hnone v (List.mem_append_left _ hv)) ?_
      exact hnone a.2 (List.mem_append_right _ (List.mem_singleton_self _))

/-- Where nothing is dropped, nothing is until there is reason for it. -/
theorem quiet_run (h : Run PlaysClean s ls t) (hs : s.discard_frame_num = 0)
    (hrenews : ∀ v ∈ ls.map Prod.snd, ¬v.Renews) : t.discard_frame_num = 0 := by
  induction h with
  | nil => exact hs
  | @snoc as u w a _ hstep ih =>
      rw [List.map_append] at hrenews
      have hu := ih fun v hv => hrenews v (List.mem_append_left _ hv)
      refine ((turnSpec hstep.1).quiet hu).2 ?_
      exact hrenews a.2 (List.mem_append_right _ (List.mem_singleton_self _))

/-- A run up to the turn behind which there is a reason to wait. -/
theorem run_waits {front : List Turn} {w : Turn} {back : List Turn}
    (h : Run PlaysClean s ls t) (hls : ls.map Prod.snd = front ++ w :: back) (hw : w.Waits) :
    ∃ u ls', AwaitsI u ∧ Run PlaysClean u ls' t ∧ ls'.map Prod.snd = back := by
  obtain ⟨as, bs, rfl, -, hbs⟩ := List.map_eq_append_iff.1 hls
  obtain ⟨a, cs, rfl, rfl, rfl⟩ := List.map_eq_cons_iff.1 hbs
  obtain ⟨u, -, hrest⟩ := h.of_append
  obtain ⟨v, hstep, hback⟩ := hrest.of_cons
  exact ⟨v, cs, (turnSpec hstep.1).waits hw, hback, rfl⟩

/-- And from there on to the frame that is handed over next. -/
theorem run_handed {mid : List Turn} {w : Turn} {back : List Turn} (h : Run PlaysClean s ls t)
    (hs : AwaitsI s) (hls : ls.map Prod.snd = mid ++ w :: back) (hnone : ∀ v ∈ mid, v.handed = none) :
    ∃ u v cmd ls', AwaitsI u ∧ PlaysClean u (cmd, w) v ∧ Run PlaysClean v ls' t ∧
      ls'.map Prod.snd = back := by
  obtain ⟨as, bs, rfl, rfl, hbs⟩ := List.map_eq_append_iff.1 hls
  obtain ⟨a, cs, rfl, rfl, rfl⟩ := List.map_eq_cons_iff.1 hbs
  obtain ⟨u, hmid, hrest⟩ := h.of_append
  obtain ⟨v, hstep, hback⟩ := hrest.of_cons
  exact ⟨u, v, a.1, cs, pending_run hmid hs hnone, hstep, hback, rfl⟩

theorem dropLaw_of_clean (h : Run PlaysClean s ls t) : DropLaw (ls.map Prod.snd) := by
  constructor
  · intro front w mid x back hls hw hnone frame hframe
    obtain ⟨u, ls', hu, hrun, hls'⟩ := run_waits h hls hw
    obtain ⟨v, v', cmd, -, hv, hstep, -⟩ := run_handed hrun hu hls' hnone
    exact (turnSpec hstep.1).resumes hv frame hframe
  · intro front w mid x more y back hls hw hnone hhanded hrenews
    obtain ⟨u, ls', hu, hrun, hls'⟩ := run_waits h hls hw
    obtain ⟨v, v', cmd, ls'', hv, hstep, hrest, hls''⟩ := run_handed hrun hu hls' hnone
    have hzero := (turnSpec hstep.1).ends hv hstep.2 hhanded (hrenews x List.mem_cons_self)
    obtain ⟨as, bs, rfl, rfl, hbs⟩ := List.map_eq_append_iff.1 hls''
    obtain ⟨a, cs, rfl, rfl, -⟩ := List.map_eq_cons_iff.1 hbs
    obtain ⟨q, hmore, hlast⟩ := hrest.of_append
    obtain ⟨q', hdrop, -⟩ := hlast.of_cons
    have hq := quiet_run hmore hzero fun r hr => hrenews r (List.mem_cons_of_mem _ hr)
    exact ((turnSpec hdrop.1).quiet hq).1

/-! ## What is left behind an I-frame -/

/-- An I-frame taken before its time leaves a number behind. -/
theorem leaves_of_early (h : Plays s (cmd, turn) t) (hearly : ¬TakesLast s cmd)
    (hret : turn.ret = 0) : turn.handed ≠ none ∧ ¬turn.Renews ∧ t.discard_frame_num ≠ 0 := by
  obtain ⟨-, ⟨res, frame, io, rfl, rfl, rfl⟩ | ⟨moved, rfl, -, -⟩⟩ := plays_cases h
  swap
  · exact absurd trivial hearly
  obtain ⟨htype, htakes⟩ := Classical.not_imp.1 hearly
  obtain ⟨hone, hno⟩ := Classical.not_imp.1 htakes
  have hasked : (s.asked res).discard_frame_num = s.discard_frame_num := rfl
  have hne : s.discard_frame_num - 1 ≠ 0 := by
    intro hzero
    have heq : s.discard_frame_num = 1 := by
      rw [← UInt32.sub_add_cancel s.discard_frame_num 1, hzero]
      rfl
    rw [heq] at hone
    exact absurd hone (by decide)
  have hpos : s.discard_frame_num ≠ 0 := by
    intro hzero
    rw [hzero] at hone
    exact absurd hone (by decide)
  cases hfull : io.fullBuf with
  | false =>
      have hneg : (-1 : Int) ≠ 0 := by decide
      rw [videoDataPro_noBuf hfull] at hret
      exact absurd hret hneg
  | true =>
      have hjudge := @DecodeCtl.judge_resume (s.asked res) frame.first_frame frame.u8FrameType
        frame.u32FrameNo hpos (.inr (UInt32.not_lt.1 hno)) htype
      rw [videoDataPro_taken hfull hjudge] at hret ⊢
      have hspec := DecodeCtl.decodeFrame_spec
        { s.asked res with discard_frame_num := (s.asked res).discard_frame_num - 1 } frame true io
      obtain ⟨hraised, hdiscard⟩ := hspec.first rfl
      refine ⟨fun hnone => (hspec.kept hnone).1 hret, ?_, ?_⟩
      · rintro (hr | hfail)
        · rw [hraised] at hr
          cases hr
        · rw [hret] at hfail
          exact absurd hfail (by decide)
      · rw [hret, afterTurn_of_zero, hdiscard]
        exact hne

/-- The next frame is dropped, if it is not an I-frame. -/
theorem dropped_of_left {res : UInt32} {frame : DecodeFrame} {io : DecodeIo}
    (h : Plays s (.newData res frame io, turn) t) (hleft : s.discard_frame_num ≠ 0)
    (htype : frame.u8FrameType ≠ avVideoFrameI) (hfull : io.fullBuf = true) :
    turn.dropped = true := by
  obtain ⟨-, ⟨res', frame', io', hcmd, rfl, -⟩ | ⟨moved, hcmd, -, -⟩⟩ := plays_cases h
  · cases hcmd
    obtain ⟨u, -, hjudge⟩ | ⟨hI, -, -⟩ := @DecodeCtl.judge_pos (s.asked res)
      frame.first_frame frame.u8FrameType frame.u32FrameNo hleft
    · rw [videoDataPro_dropped hfull hjudge]
    · exact absurd hI htype
  · cases hcmd

/-- A channel that is waiting for an I-frame. -/
def WaitsLast (turns : List Turn) : Prop :=
  ∃ front w mid, turns = front ++ w :: mid ∧ w.Waits ∧ ∀ v ∈ mid, v.handed = none

theorem not_dropLaw_of_early {u : DecodeCtl} {res : UInt32} {frame : DecodeFrame} {io : DecodeIo}
    {next : Turn} (hwaits : WaitsLast (ls.map Prod.snd)) (h : Plays s (cmd, turn) t)
    (hearly : ¬TakesLast s cmd) (hret : turn.ret = 0)
    (hnext : Plays t (.newData res frame io, next) u)
    (htype : frame.u8FrameType ≠ avVideoFrameI) (hfull : io.fullBuf = true) :
    ¬DropLaw ((ls ++ [(cmd, turn), (.newData res frame io, next)]).map Prod.snd) := by
  intro hlaw
  obtain ⟨front, w, mid, hls, hw, hnone⟩ := hwaits
  obtain ⟨hhanded, hrenews, hleft⟩ := leaves_of_early h hearly hret
  have hdropped := dropped_of_left hnext hleft htype hfull
  have hkept := hlaw.ends front w mid turn [] next [] (by
    rw [List.map_append, hls, List.append_assoc]
    rfl) hw hnone hhanded (fun v hv => by
      obtain rfl := List.mem_singleton.1 hv
      exact hrenews)
  rw [hdropped] at hkept
  cases hkept

/-- The thread when its first channel has been chosen. -/
def atWork : DecodeCtl := { decodeParameterInit 0 0 with dec_thr_sta := .workOn }

/-- A frame that the decoder takes, at some time. -/
def frameAt (type : UInt8) (no : UInt32) (time : UInt32) (status : Int32) : DecodeCmd :=
  .newData 360 ⟨type, no, 1000000 + 40000 * no.toUInt64, decide (no = 1)⟩
    ⟨true, time, time, true, true, status, true⟩

/-- The turns of messages, if each of them has one. -/
def turnsOf (s : DecodeCtl) : List DecodeCmd → Option (List Turn)
  | [] => some []
  | cmd :: cmds => do
      let turn ← (s.main cmd).1
      let turns ← turnsOf (s.main cmd).2 cmds
      some (turn :: turns)

theorem run_of_turnsOf {cmds : List DecodeCmd} : ∀ {s : DecodeCtl} {turns : List Turn},
    turnsOf s cmds = some turns → ∃ ls t, Run Plays s ls t ∧ ls.map Prod.snd = turns := by
  induction cmds with
  | nil =>
      intro s turns h
      obtain rfl := Option.some.inj h
      exact ⟨[], s, .nil, rfl⟩
  | cons cmd cmds ih =>
      intro s turns h
      obtain ⟨turn, hturn, hrest⟩ := Option.bind_eq_some_iff.1 h
      obtain ⟨back, hback, hturns⟩ := Option.bind_eq_some_iff.1 hrest
      obtain ⟨ls, t, hrun, hls⟩ := ih hback
      obtain rfl := Option.some.inj hturns
      refine ⟨(cmd, turn) :: ls, t, ?_, congrArg (turn :: ·) hls⟩
      have hstep : Plays s (cmd, turn) (s.main cmd).2 := Prod.ext hturn rfl
      exact (Run.single hstep).append hrun

end Nvr.Player
