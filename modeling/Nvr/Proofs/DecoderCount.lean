import Nvr.Lib.Run
import Nvr.Player.Occupancy

/-!
# How many frames there are in a decoder

`put_decoder_num` should be the number of frames that the decoder has and that are neither
released nor failed. It is as long as each part of the count is undone where the frame is: a
buffer that is refused leaves a frame counted, and a picture of the decoder before takes one
off that was never counted for this one.
-/

namespace Nvr.Player

variable {s t : Occupancy} {a : OccupancyStep}

/-! ## The law -/

/-- The frame that the decode thread is just handing over. -/
def DecodePhase.inHand : DecodePhase → Nat
  | .waiting _ => 1
  | .entered => 1
  | _ => 0

/-- The frames handed to the decoder, or just being so, that are neither released nor failed. -/
def Occupancy.out (s : Occupancy) : Nat :=
  s.inside + (if s.picture.isSome ∧ s.picture = s.decoder then 1 else 0) + s.phase.inHand

/-- The count is exact, and nothing is handed over above the maximum. -/
def Occupancy.Exact (s : Occupancy) : Prop :=
  (s.decoder.isSome → s.put_decoder_num.toNat = s.out) ∧
    (s.phase = .entered → s.put_decoder_num ≤ decodeMaxStorageFrameNum)

/-- No buffer is refused, no picture is released that an earlier decoder has made, and no wait
ends above the maximum without a signal. -/
def Occupancy.Meets (s : Occupancy) : OccupancyStep → Prop
  | .requestWrite ok => ok = true
  | .release => s.picture = s.decoder
  | .wake => s.phase = .waiting true ∨ s.put_decoder_num ≤ decodeMaxStorageFrameNum
  | _ => True

namespace Occupancy

/-! ## The invariant -/

/-- Where the thread waits for a signal there may be one frame more. -/
def room (s : Occupancy) : Nat := if s.phase = .waiting false then 8 else 7

/-- The phases in which there is a decoder. -/
def Busy (phase : DecodePhase) : Prop :=
  phase = .checking ∨ phase = .entered ∨ phase = .decoding ∨ ∃ b, phase = .waiting b

structure Counted (s : Occupancy) : Prop where
  count : s.decoder.isSome → s.put_decoder_num.toNat = s.out
  le : s.put_decoder_num.toNat ≤ s.room
  decoder_lt : ∀ g, s.decoder = some g → g < s.decoders
  picture_lt : ∀ g, s.picture = some g → g < s.decoders
  inside_pos : s.phase = .decoding → 0 < s.inside
  busy : Busy s.phase → s.decoder.isSome

theorem counted_init : Counted init where
  count := fun h => nomatch h
  le := Nat.zero_le _
  decoder_lt := fun _ h => nomatch h
  picture_lt := fun _ h => nomatch h
  inside_pos := fun h => nomatch h
  busy := by
    rintro (h | h | h | ⟨_, h⟩)
    · cases h
    · cases h
    · cases h
    · cases h

theorem exact_of_counted (h : Counted s) : s.Exact := by
  refine ⟨h.count, fun hphase => ?_⟩
  have hle := h.le
  rw [room, hphase] at hle
  exact hle

/-! ## The parts of the count -/

theorem toNat_add_one {x : UInt8} (h : x.toNat ≤ 7) : (x + 1).toNat = x.toNat + 1 := by
  rw [UInt8.toNat_add]
  exact Nat.mod_eq_of_lt (show x.toNat + 1 < 256 by omega)

theorem toNat_sub_one {x : UInt8} (h : 0 < x.toNat) : (x - 1).toNat = x.toNat - 1 :=
  UInt8.toNat_sub_of_le _ _ (show (1 : UInt8).toNat ≤ x.toNat from h)

theorem sub_one_ne (x : UInt8) : (x - 1).toNat ≠ x.toNat := by
  rw [UInt8.toNat_sub]
  have hlt := x.toNat_lt
  have hone : (1 : UInt8).toNat = 1 := rfl
  omega

@[simp] theorem signal_num : s.signal.put_decoder_num = s.put_decoder_num := by
  rw [signal]
  split <;> rfl

@[simp] theorem signal_decoder : s.signal.decoder = s.decoder := by
  rw [signal]
  split <;> rfl

@[simp] theorem signal_decoders : s.signal.decoders = s.decoders := by
  rw [signal]
  split <;> rfl

@[simp] theorem signal_inside : s.signal.inside = s.inside := by
  rw [signal]
  split <;> rfl

@[simp] theorem signal_picture : s.signal.picture = s.picture := by
  rw [signal]
  split <;> rfl

/-- A wait that is signalled goes on being one, and all else stays where it is. -/
theorem signal_phase : (∃ b, s.phase = .waiting b ∧ s.signal.phase = .waiting true) ∨
    ((∀ b, s.phase ≠ .waiting b) ∧ s.signal.phase = s.phase) := by
  cases hphase : s.phase with
  | waiting b =>
      refine .inl ⟨b, rfl, ?_⟩
      rw [signal, hphase]
  | idle => exact .inr ⟨fun _ h => (nomatch h), by rw [signal, hphase]; exact hphase⟩
  | abnormal => exact .inr ⟨fun _ h => (nomatch h), by rw [signal, hphase]; exact hphase⟩
  | checking => exact .inr ⟨fun _ h => (nomatch h), by rw [signal, hphase]; exact hphase⟩
  | entered => exact .inr ⟨fun _ h => (nomatch h), by rw [signal, hphase]; exact hphase⟩
  | decoding => exact .inr ⟨fun _ h => (nomatch h), by rw [signal, hphase]; exact hphase⟩

@[simp] theorem signal_inHand : s.signal.phase.inHand = s.phase.inHand := by
  obtain ⟨b, hwait, hsignal⟩ | ⟨-, hsame⟩ := @signal_phase s
  · rw [hwait, hsignal]
    rfl
  · rw [hsame]

/-! ## The steps of the decode thread -/

theorem counted_frame {type : UInt8} {res : UInt32} (hs : Counted s)
    (h : s.step (.frame type res) = some t) : Counted t := by
  simp only [step] at h
  split at h
  · rename_i hidle
    have hle : s.put_decoder_num.toNat ≤ 7 := by
      have hroom := hs.le
      rwa [room, hidle] at hroom
    have hout : s.out = s.inside +
        (if s.picture.isSome ∧ s.picture = s.decoder then 1 else 0) + 0 := by
      rw [out, hidle]
      rfl
    split at h
    · obtain rfl := Option.some.inj h
      refine ⟨fun hd => (hs.count hd).trans hout, hle, hs.decoder_lt, hs.picture_lt,
        fun hp => (nomatch hp), ?_⟩
      rintro (h | h | h | ⟨_, h⟩)
      · cases h
      · cases h
      · cases h
      · cases h
    · split at h
      · rename_i hsome
        obtain rfl := Option.some.inj h
        exact ⟨fun hd => (hs.count hd).trans hout, hle, hs.decoder_lt, hs.picture_lt,
          fun hp => (nomatch hp), fun _ => hsome⟩
      · cases h
  · cases h

theorem counted_poll {ok : Bool} (hs : Counted s) (h : s.step (.poll ok) = some t) :
    Counted t := by
  simp only [step] at h
  split at h
  · rename_i cfg cnt habnormal
    have hle : s.put_decoder_num.toNat ≤ 7 := by
      have hroom := hs.le
      rwa [room, habnormal] at hroom
    have hout : s.out = s.inside +
        (if s.picture.isSome ∧ s.picture = s.decoder then 1 else 0) + 0 := by
      rw [out, habnormal]
      rfl
    have hfree : ∀ cfg cnt, ¬Busy (.abnormal cfg cnt) := by
      rintro cfg cnt (h | h | h | ⟨_, h⟩)
      · cases h
      · cases h
      · cases h
      · cases h
    have hidle : ¬Busy .idle := by
      rintro (h | h | h | ⟨_, h⟩)
      · cases h
      · cases h
      · cases h
      · cases h
    split at h
    · split at h
      · obtain rfl := Option.some.inj h
        exact ⟨fun hd => (hs.count hd).trans hout, hle, hs.decoder_lt, hs.picture_lt,
          fun hp => (nomatch hp), fun hb => absurd hb hidle⟩
      · obtain rfl := Option.some.inj h
        rw [recreate]
        split
        · -- no picture is one of the new decoder
          have hnone : ¬(s.picture.isSome ∧ s.picture = some s.decoders) := by
            rintro ⟨-, hpicture⟩
            exact absurd (hs.picture_lt _ hpicture) (Nat.lt_irrefl _)
          refine ⟨fun _ => ?_, Nat.zero_le _, fun g hg => ?_, fun g hg => ?_,
            fun hp => (nomatch hp), fun _ => rfl⟩
          · rw [out]
            dsimp only
            rw [if_neg hnone]
            rfl
          · obtain rfl := Option.some.inj hg
            exact Nat.lt_succ_self _
          · exact Nat.lt_succ_of_lt (hs.picture_lt g hg)
        · exact ⟨fun hd => (nomatch hd), hle, fun g hg => (nomatch hg), hs.picture_lt,
            fun hp => (nomatch hp), fun hb => absurd hb hidle⟩
    · obtain rfl := Option.some.inj h
      exact ⟨fun hd => (hs.count hd).trans hout, hle, hs.decoder_lt, hs.picture_lt,
        fun hp => (nomatch hp), fun hb => absurd hb (hfree _ _)⟩
  · cases h

theorem counted_check (hs : Counted s) (h : s.step .check = some t) : Counted t := by
  simp only [step] at h
  split at h
  · rename_i hphase
    have hle : s.put_decoder_num.toNat ≤ 7 := by
      have hroom := hs.le
      rwa [room, hphase] at hroom
    have hadd := toNat_add_one hle
    obtain rfl := Option.some.inj h
    have hsome := hs.busy (.inl hphase)
    have hcount := hs.count hsome
    rw [out, hphase] at hcount
    have hcount' : s.put_decoder_num.toNat =
        s.inside + (if s.picture.isSome ∧ s.picture = s.decoder then 1 else 0) := hcount
    rw [checkPutDecoderNum]
    by_cases hwait : decodeMaxStorageFrameNum < s.put_decoder_num + 1
    · rw [if_pos hwait]
      refine ⟨fun _ => ?_, ?_, hs.decoder_lt, hs.picture_lt, fun hp => (nomatch hp), fun _ => hsome⟩
      · show (s.put_decoder_num + 1).toNat =
          s.inside + (if s.picture.isSome ∧ s.picture = s.decoder then 1 else 0) + 1
        omega
      · show (s.put_decoder_num + 1).toNat ≤ 8
        omega
    · rw [if_neg hwait]
      refine ⟨fun _ => ?_, ?_, hs.decoder_lt, hs.picture_lt, fun hp => (nomatch hp), fun _ => hsome⟩
      · show (s.put_decoder_num + 1).toNat =
          s.inside + (if s.picture.isSome ∧ s.picture = s.decoder then 1 else 0) + 1
        omega
      · exact UInt8.not_lt.1 hwait
  · cases h

theorem counted_wake (hs : Counted s) (hmeets : s.Meets .wake) (h : s.step .wake = some t) :
    Counted t := by
  simp only [step] at h
  split at h
  · rename_i b hphase
    obtain rfl := Option.some.inj h
    have hsome := hs.busy (.inr (.inr (.inr ⟨b, hphase⟩)))
    have hcount := hs.count hsome
    rw [out, hphase] at hcount
    have hle : s.put_decoder_num.toNat ≤ 7 := by
      obtain hsignalled | hle := hmeets
      · have hroom := hs.le
        rwa [room, hsignalled] at hroom
      · exact hle
    exact ⟨fun _ => hcount, hle, hs.decoder_lt, hs.picture_lt, fun hp => (nomatch hp), fun _ => hsome⟩
  · cases h

theorem counted_requestWrite (hs : Counted s) (h : s.step (.requestWrite true) = some t) :
    Counted t := by
  simp only [step] at h
  split at h
  · rename_i hphase
    obtain ⟨hphase, hsome⟩ := hphase
    obtain rfl := Option.some.inj h
    have hcount := hs.count hsome
    rw [out, hphase] at hcount
    have hle : s.put_decoder_num.toNat ≤ 7 := by
      have hroom := hs.le
      rwa [room, hphase] at hroom
    refine ⟨fun _ => ?_, hle, hs.decoder_lt, hs.picture_lt, fun _ => Nat.succ_pos _, fun _ => hsome⟩
    have hcount' : s.put_decoder_num.toNat =
        s.inside + (if s.picture.isSome ∧ s.picture = s.decoder then 1 else 0) + 1 := hcount
    show s.put_decoder_num.toNat =
      s.inside + 1 + (if s.picture.isSome ∧ s.picture = s.decoder then 1 else 0) + 0
    omega
  · cases h

/-! ## The count taken back, by either of the threads -/

@[simp] theorem releas_num : s.releasDecoderNum.put_decoder_num = s.put_decoder_num - 1 :=
  signal_num

@[simp] theorem releas_decoder : s.releasDecoderNum.decoder = s.decoder := signal_decoder

@[simp] theorem releas_decoders : s.releasDecoderNum.decoders = s.decoders := signal_decoders

@[simp] theorem releas_inside : s.releasDecoderNum.inside = s.inside := signal_inside

@[simp] theorem releas_picture : s.releasDecoderNum.picture = s.picture := signal_picture

@[simp] theorem releas_inHand : s.releasDecoderNum.phase.inHand = s.phase.inHand := signal_inHand

theorem counted_decode {status : Int32} (hs : Counted s)
    (h : s.step (.decode status) = some t) : Counted t := by
  simp only [step] at h
  split at h
  · rename_i hphase
    have hsome := hs.busy (.inr (.inr (.inl hphase)))
    have hcount := hs.count hsome
    rw [out, hphase] at hcount
    have hcount' : s.put_decoder_num.toNat =
        s.inside + (if s.picture.isSome ∧ s.picture = s.decoder then 1 else 0) := hcount
    have hpos := hs.inside_pos hphase
    have hle : s.put_decoder_num.toNat ≤ 7 := by
      have hroom := hs.le
      rwa [room, hphase] at hroom
    split at h
    · obtain rfl := Option.some.inj h
      have hsub := @toNat_sub_one s.put_decoder_num (by omega)
      refine ⟨fun _ => ?_, ?_, fun g hg => ?_, fun g hg => ?_, fun hp => (nomatch hp), fun hb => ?_⟩
      · rw [out]
        simp only [releas_num, releas_inside, releas_picture, releas_decoder]
        show (s.put_decoder_num - 1).toNat = s.inside - 1 +
          (if s.picture.isSome ∧ s.picture = s.decoder then 1 else 0) + 0
        omega
      · simp only [releas_num]
        show (s.put_decoder_num - 1).toNat ≤ 7
        omega
      · simp only [releas_decoder, releas_decoders] at hg ⊢
        exact hs.decoder_lt g hg
      · simp only [releas_picture, releas_decoders] at hg ⊢
        exact hs.picture_lt g hg
      · obtain hb | hb | hb | ⟨_, hb⟩ := hb
        · cases hb
        · cases hb
        · cases hb
        · cases hb
    · obtain rfl := Option.some.inj h
      refine ⟨fun _ => hcount, hle, hs.decoder_lt, hs.picture_lt, fun hp => (nomatch hp), fun hb => ?_⟩
      obtain hb | hb | hb | ⟨_, hb⟩ := hb
      · cases hb
      · cases hb
      · cases hb
      · cases hb
  · cases h

/-! ## The steps of the copy thread -/

theorem counted_displayRequest (hs : Counted s) (h : s.step .displayRequest = some t) :
    Counted t := by
  rw [step] at h
  by_cases hfetch : s.decoder.isSome ∧ s.picture = none ∧
      (if s.phase = .decoding then 1 else 0) < s.inside
  · rw [if_pos hfetch] at h
    obtain ⟨hsome, hnone, hlt⟩ := hfetch
    obtain rfl := Option.some.inj h
    have hcount := hs.count hsome
    rw [out, hnone, if_neg (by rintro ⟨hp, -⟩; cases hp)] at hcount
    refine ⟨fun _ => ?_, hs.le, hs.decoder_lt, hs.decoder_lt, fun hphase => ?_, hs.busy⟩
    · have hone : s.decoder.isSome ∧ s.decoder = s.decoder := ⟨hsome, rfl⟩
      rw [out]
      dsimp only
      rw [if_pos hone]
      omega
    · have hdecoding : s.phase = .decoding := hphase
      rw [if_pos hdecoding] at hlt
      show 0 < s.inside - 1
      omega
  · rw [if_neg hfetch] at h
    cases h

theorem counted_release (hs : Counted s) (hmeets : s.Meets .release)
    (h : s.step .release = some t) : Counted t := by
  simp only [step] at h
  split at h
  · rename_i hrelease
    obtain ⟨hsome, hpicture⟩ := hrelease
    obtain rfl := Option.some.inj h
    have hcount := hs.count hsome
    rw [out, if_pos ⟨hpicture, hmeets⟩] at hcount
    have hsub := @toNat_sub_one s.put_decoder_num (by omega)
    have hle := hs.le
    refine ⟨fun _ => ?_, ?_, fun g hg => ?_, fun g hg => (nomatch hg), fun hphase => ?_, fun hb => ?_⟩
    · rw [out]
      simp only [releas_num, releas_inside, releas_inHand]
      show (s.put_decoder_num - 1).toNat = s.inside + 0 + s.phase.inHand
      omega
    · rw [room] at hle ⊢
      simp only [releas_num]
      have hseven : (s.put_decoder_num - 1).toNat ≤ 7 := by
        split at hle <;> omega
      split <;> omega
    · simp only [releas_decoder, releas_decoders] at hg ⊢
      exact hs.decoder_lt g hg
    · simp only [releas_inside]
      refine hs.inside_pos ?_
      obtain ⟨b, hwait, hsignal⟩ | ⟨-, hsame⟩ :=
        @signal_phase { s with put_decoder_num := s.put_decoder_num - 1 }
      · rw [releasDecoderNum] at hphase
        rw [hsignal] at hphase
        cases hphase
      · rw [releasDecoderNum] at hphase
        exact hsame.symm.trans hphase
    · simp only [releas_decoder]
      exact hsome
  · cases h

/-- Every step that meets the condition keeps the count. -/
theorem counted_step (hs : Counted s) (h : s.step a = some t) (hmeets : s.Meets a) :
    Counted t := by
  cases a with
  | frame type res => exact counted_frame hs h
  | poll ok => exact counted_poll hs h
  | check => exact counted_check hs h
  | wake => exact counted_wake hs hmeets h
  | requestWrite ok =>
      obtain rfl : ok = true := hmeets
      exact counted_requestWrite hs h
  | decode status => exact counted_decode hs h
  | displayRequest => exact counted_displayRequest hs h
  | release => exact counted_release hs hmeets h

/-- A step that does not meet it leads to a wrong count. -/
theorem not_exact_step (hs : Counted s) (h : s.step a = some t) (hmeets : ¬s.Meets a) :
    ¬t.Exact := by
  cases a with
  | frame type res => exact absurd trivial hmeets
  | poll ok => exact absurd trivial hmeets
  | check => exact absurd trivial hmeets
  | wake =>
      simp only [step] at h
      split at h
      · obtain rfl := Option.some.inj h
        exact fun hexact => hmeets (.inr (hexact.2 rfl))
      · cases h
  | requestWrite ok =>
      obtain rfl : ok = false := Bool.eq_false_iff.2 hmeets
      simp only [step] at h
      split at h
      · rename_i hphase
        obtain ⟨hphase, hsome⟩ := hphase
        obtain rfl := Option.some.inj h
        intro hexact
        have hcount := hs.count hsome
        rw [out, hphase] at hcount
        have hcount' : s.put_decoder_num.toNat = s.inside +
            (if s.picture.isSome ∧ s.picture = s.decoder then 1 else 0) + 1 := hcount
        have hwrong : s.put_decoder_num.toNat = s.inside +
            (if s.picture.isSome ∧ s.picture = s.decoder then 1 else 0) + 0 := hexact.1 hsome
        omega
      · cases h
  | decode status => exact absurd trivial hmeets
  | displayRequest => exact absurd trivial hmeets
  | release =>
      simp only [step] at h
      split at h
      · rename_i hrelease
        obtain ⟨hsome, hpicture⟩ := hrelease
        obtain rfl := Option.some.inj h
        intro hexact
        have hcount := hs.count hsome
        rw [out, if_neg fun hp => hmeets hp.2] at hcount
        have hwrong := hexact.1 (by simp only [releas_decoder]; exact hsome)
        rw [out] at hwrong
        simp only [releas_num, releas_inside, releas_inHand] at hwrong
        have hwrong' : (s.put_decoder_num - 1).toNat = s.inside + 0 + s.phase.inHand := hwrong
        exact sub_one_ne _ (hwrong'.trans hcount.symm)
      · cases h

/-- All the states of a run from the beginning have the right count if and only if each of its
steps meets the condition. -/
theorem put_decoder_num_exact_iff {steps : List OccupancyStep} (h : init.run steps = some t) :
    (∀ pre s, pre <+: steps → init.run pre = some s → s.Exact) ↔
      ∀ pre a s, pre ++ [a] <+: steps → init.run pre = some s → s.Meets a :=
  Run.good_iff_meets (fun hs => exact_of_counted hs) (fun hs hstep hok => counted_step hs hstep hok)
    (fun hs hstep hbad => not_exact_step hs hstep hbad) counted_init h

/-- A frame that is decoded, and its picture. -/
def oneFrame : List OccupancyStep :=
  [.frame avVideoFrameI 360, .poll true, .check, .requestWrite true, .decode 0, .displayRequest]

theorem put_decoder_num_exact_iff_oneFrame :
    (∀ pre s, pre <+: oneFrame ++ [.release] → init.run pre = some s → s.Exact) ↔
      ∀ pre a s, pre ++ [a] <+: oneFrame ++ [.release] → init.run pre = some s → s.Meets a :=
  put_decoder_num_exact_iff (Option.eq_some_of_isSome (by decide))

/-- A buffer that is refused leaves the frame counted; and where the resolution is changed while
the copy thread has a picture, the count goes below 0 with its release. -/
theorem not_put_decoder_num_exact :
    (¬∀ steps t, init.run steps = some t → t.Exact) ∧
      (init.run (oneFrame ++ [.frame avVideoFrameI 720, .poll true, .release])).map
        Occupancy.put_decoder_num = some 255 := by
  refine ⟨fun hlaw => ?_, by decide⟩
  have hrun : init.run [.frame avVideoFrameI 360, .poll true, .check, .requestWrite false] =
      some ⟨.idle, 1, 360, 360, 0, some 0, 1, 0, none⟩ := by decide
  have hone : (1 : UInt8).toNat = 0 := (hlaw _ _ hrun).1 rfl
  exact absurd hone (by decide)

end Occupancy

end Nvr.Player
