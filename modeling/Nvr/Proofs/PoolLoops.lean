import Mathlib.Data.Finset.Prod
import Nvr.Lib.Iterate
import Nvr.Proofs.PoolOldestI

/-!
# Whether a write to the pool ends

A write moves the oldest frames out of its way by going over the ring from frame
to frame. The ring does not change meanwhile, so the loops go round for ever when
they do not come to a place outside the region they free, or to one without a
header. They come to one in every run in which each frame leaves the newest
frame, and in a video pool the newest I frame, alone.
-/

namespace Nvr.AvPool

namespace JpoolMan

variable (m : JpoolMan)

/-- The place `k` frames behind another. -/
def placeAfter (k pos : Nat) : Nat := m.nextPos^[k] pos

/-- The loop that frees goes on at a place to the next. -/
def Goes (nWriteLen pos : Nat) : Prop :=
  m.inWriteRange nWriteLen pos ∧ m.avPoolCheckIsFrame (m.nextPos pos)

/-- Going from frame to frame one comes to a place that is not in the way, or to
one without a frame. -/
def LeavesRange (nWriteLen pos : Nat) : Prop :=
  ∃ k, ¬ m.Goes nWriteLen (m.placeAfter k pos)

/-- The search for an I frame: the next place, with the sum of the offsets. -/
def searchNext (s : Nat × Nat) : Nat × Nat :=
  (m.nextPos s.1, (s.2 + m.avPoolGetFrameOffset s.1) % 2 ^ 32)

/-- The search goes on at a place with a sum. -/
def Searches (s : Nat × Nat) : Prop :=
  m.avPoolCheckIsFrame s.1 ∧ (m.hdr s.1).u8FrameType ≠ avVideoFrameI ∧
    (m.searchNext s).2 < m.u32BuffSize

/-- From a place on, one comes to an I frame, to a place without a frame, or to
offsets that add up to the ring. -/
def SearchEnds (pos : Nat) : Prop := ∃ k, ¬ m.Searches (m.searchNext^[k] (pos, 0))

/-- The loops that a write of so many bytes runs through all end. -/
def Ends (nWriteLen : Nat) : Prop :=
  m.u32OldestFramePos = noPos ∨
    m.LeavesRange nWriteLen m.u32OldestFramePos ∧
      (m.u8VideoPool = true ∧ m.u32OldestIFramePos ≠ noPos →
        m.LeavesRange nWriteLen m.u32OldestIFramePos ∧
          ∀ k > 0, (∀ i < k, m.Goes nWriteLen (m.placeAfter i m.u32OldestIFramePos)) →
            ¬ m.inWriteRange nWriteLen (m.placeAfter k m.u32OldestIFramePos) →
              m.SearchEnds (m.placeAfter k m.u32OldestIFramePos))

/-! ## The loop that frees -/

theorem placeAfter_succ (k pos : Nat) :
    m.placeAfter (k + 1) pos = m.placeAfter k (m.nextPos pos) :=
  Function.iterate_succ_apply _ _ _

variable {m}

theorem goes_iff {n pos : Nat} :
    m.Goes n pos ↔ m.inWriteRange n pos = true ∧ m.avPoolCheckIsFrame (m.nextPos pos) = true :=
  Iff.rfl

/-- The loop ends in as many passes as it was given when one of the places is not
gone on from. -/
theorem refresh_isSome_iff {n fuel pos : Nat} {upd : Bool} :
    (m.refresh n fuel pos upd).isSome ↔ ∃ k < fuel, ¬ m.Goes n (m.placeAfter k pos) := by
  induction fuel generalizing pos upd with
  | zero =>
      rw [refresh]
      refine iff_of_false Bool.false_ne_true ?_
      rintro ⟨k, hk, -⟩
      exact Nat.not_lt_zero k hk
  | succ fuel ih =>
      rw [refresh]
      by_cases hrange : m.inWriteRange n pos = true
      · rw [if_pos hrange]
        dsimp only
        by_cases hframe : m.avPoolCheckIsFrame (m.nextPos pos) = true
        · rw [if_pos hframe, ih]
          constructor
          · rintro ⟨k, hk, hstop⟩
            exact ⟨k + 1, by omega, by rwa [placeAfter_succ]⟩
          · rintro ⟨k, hk, hstop⟩
            cases k with
            | zero => exact absurd ⟨hrange, hframe⟩ hstop
            | succ k => exact ⟨k, by omega, by rwa [placeAfter_succ] at hstop⟩
        · rw [if_neg hframe]
          exact iff_of_true rfl ⟨0, Nat.succ_pos _, fun h => hframe h.2⟩
      · rw [if_neg hrange]
        exact iff_of_true rfl ⟨0, Nat.succ_pos _, fun h => hrange h.1⟩

theorem nextPos_lt (hpos : 0 < m.u32BuffSize) (pos : Nat) : m.nextPos pos < m.u32BuffSize :=
  Nat.mod_lt _ hpos

theorem placeAfter_lt (hpos : 0 < m.u32BuffSize) {k : Nat} (hk : 0 < k) (pos : Nat) :
    m.placeAfter k pos < m.u32BuffSize := by
  obtain ⟨k, rfl⟩ : ∃ j, k = j + 1 := ⟨k - 1, by omega⟩
  unfold placeAfter
  rw [Function.iterate_succ_apply']
  exact nextPos_lt hpos _

/-- The passes of the model are enough: a loop that does not end in them never ends. -/
theorem refresh_fuel (hpos : 0 < m.u32BuffSize) {n pos : Nat} {upd : Bool} :
    (m.refresh n m.fuel pos upd).isSome ↔ m.LeavesRange n pos := by
  rw [refresh_isSome_iff]
  constructor
  · rintro ⟨k, -, hstop⟩
    exact ⟨k, hstop⟩
  · intro h
    have hmem : ∀ k, (∀ i < k, ¬ ¬ m.Goes n (m.nextPos^[i] pos)) →
        m.nextPos^[k] pos ∈ insert pos (Finset.range m.u32BuffSize) := by
      intro k _
      rw [Finset.mem_insert, Finset.mem_range]
      cases k with
      | zero => exact .inl rfl
      | succ k => exact .inr (placeAfter_lt hpos (Nat.succ_pos k) pos)
    obtain ⟨k, hk, hstop⟩ := Iterate.stops_within (fun p => ¬ m.Goes n p) hmem h
    have hcard := Finset.card_insert_le pos (Finset.range m.u32BuffSize)
    rw [Finset.card_range] at hcard
    exact ⟨k, hk.trans_le hcard, hstop⟩

/-- Where the loop ends when it has moved: at the first place that is not in the
way. -/
theorem refresh_at {n fuel pos p : Nat} {upd : Bool}
    (h : m.refresh n fuel pos upd = some (.at p true)) :
    ∃ k, p = m.placeAfter k pos ∧ (upd = false → 0 < k) ∧
      (∀ i < k, m.Goes n (m.placeAfter i pos)) ∧ ¬ m.inWriteRange n p := by
  induction fuel generalizing pos upd with
  | zero => cases h
  | succ fuel ih =>
      rw [refresh] at h
      by_cases hrange : m.inWriteRange n pos = true
      · rw [if_pos hrange] at h
        dsimp only at h
        by_cases hframe : m.avPoolCheckIsFrame (m.nextPos pos) = true
        · rw [if_pos hframe] at h
          obtain ⟨k, hp, -, hgoes, hout⟩ := ih h
          refine ⟨k + 1, by rw [placeAfter_succ]; exact hp, fun _ => Nat.succ_pos k, ?_, hout⟩
          intro i hi
          cases i with
          | zero => exact ⟨hrange, hframe⟩
          | succ i =>
              rw [placeAfter_succ]
              exact hgoes i (by omega)
        · rw [if_neg hframe] at h
          cases h
      · rw [if_neg hrange] at h
        obtain ⟨rfl, rfl⟩ := Refresh.at.inj (Option.some.inj h)
        refine ⟨0, rfl, ?_, fun i hi => absurd hi (Nat.not_lt_zero i), hrange⟩
        intro hupd
        cases hupd

/-- There is no other such place. -/
theorem refresh_eq_at {n fuel pos k : Nat} {upd : Bool} {r : Refresh}
    (h : m.refresh n fuel pos upd = some r) (hgoes : ∀ i < k, m.Goes n (m.placeAfter i pos))
    (hout : ¬ m.inWriteRange n (m.placeAfter k pos)) :
    r = .at (m.placeAfter k pos) (upd || decide (0 < k)) := by
  induction fuel generalizing pos upd k with
  | zero => cases h
  | succ fuel ih =>
      rw [refresh] at h
      cases k with
      | zero =>
          have hhere : ¬ m.inWriteRange n pos = true := hout
          rw [if_neg hhere] at h
          rw [decide_eq_false (Nat.lt_irrefl 0), Bool.or_false]
          exact (Option.some.inj h).symm
      | succ k =>
          have hhere : m.Goes n pos := hgoes 0 (Nat.succ_pos k)
          obtain ⟨hrange, hframe⟩ := hhere
          rw [if_pos hrange] at h
          dsimp only at h
          rw [if_pos hframe] at h
          rw [placeAfter_succ] at hout ⊢
          have hrest := ih h (fun i hi => by rw [← placeAfter_succ]; exact hgoes (i + 1) (by omega))
            hout
          rw [hrest, Bool.true_or, decide_eq_true (Nat.succ_pos k), Bool.or_true]

/-! ## The search for an I frame -/

theorem searchIframe_isSome_iff {fuel pos len : Nat} :
    (m.searchIframe fuel pos len).isSome ↔
      ∃ k < fuel, ¬ m.Searches (m.searchNext^[k] (pos, len)) := by
  induction fuel generalizing pos len with
  | zero =>
      rw [searchIframe]
      refine iff_of_false Bool.false_ne_true ?_
      rintro ⟨k, hk, -⟩
      exact Nat.not_lt_zero k hk
  | succ fuel ih =>
      rw [searchIframe]
      have hstop : ¬ m.Searches (pos, len) →
          ∃ k < fuel + 1, ¬ m.Searches (m.searchNext^[k] (pos, len)) :=
        fun h => ⟨0, Nat.succ_pos _, h⟩
      by_cases hframe : m.avPoolCheckIsFrame pos = true
      · rw [if_pos hframe]
        by_cases htype : (m.hdr pos).u8FrameType = avVideoFrameI
        · rw [if_pos htype]
          exact iff_of_true rfl (hstop fun h => h.2.1 htype)
        · rw [if_neg htype]
          dsimp only
          by_cases hlen : (len + m.avPoolGetFrameOffset pos) % 2 ^ 32 < m.u32BuffSize
          · rw [if_pos hlen, ih]
            constructor
            · rintro ⟨k, hk, h⟩
              exact ⟨k + 1, by omega, by rwa [Function.iterate_succ_apply]⟩
            · rintro ⟨k, hk, h⟩
              cases k with
              | zero => exact absurd ⟨hframe, htype, hlen⟩ h
              | succ k => exact ⟨k, by omega, by rwa [Function.iterate_succ_apply] at h⟩
          · rw [if_neg hlen]
            exact iff_of_true rfl (hstop fun h => hlen h.2.2)
      · rw [if_neg hframe]
        exact iff_of_true rfl (hstop fun h => hframe h.1)

/-- The passes of the model are enough for the search too. -/
theorem searchIframe_fuel {pos : Nat} (hpos : pos < m.u32BuffSize) :
    (m.searchIframe m.searchFuel pos 0).isSome ↔ m.SearchEnds pos := by
  rw [searchIframe_isSome_iff]
  constructor
  · rintro ⟨k, -, hstop⟩
    exact ⟨k, hstop⟩
  · intro h
    have hmem : ∀ k, (∀ i < k, ¬ ¬ m.Searches (m.searchNext^[i] (pos, 0))) →
        m.searchNext^[k] (pos, 0) ∈
          Finset.range m.u32BuffSize ×ˢ Finset.range m.u32BuffSize := by
      intro k hk
      rw [Finset.mem_product, Finset.mem_range, Finset.mem_range]
      cases k with
      | zero => exact ⟨hpos, by dsimp only [Function.iterate_zero, id]; omega⟩
      | succ k =>
          obtain ⟨-, -, hlen⟩ := not_not.1 (hk k (Nat.lt_succ_self k))
          rw [Function.iterate_succ_apply']
          exact ⟨nextPos_lt (by omega) _, hlen⟩
    obtain ⟨k, hk, hstop⟩ := Iterate.stops_within (fun s => ¬ m.Searches s) hmem h
    rw [Finset.card_product, Finset.card_range] at hk
    exact ⟨k, Nat.lt_succ_of_lt hk, hstop⟩

/-! ## A write -/

theorem avPoolRefreshOldestIframePos_isSome_iff (hpos : 0 < m.u32BuffSize) {n : Nat} :
    (m.avPoolRefreshOldestIframePos n).isSome ↔
      m.LeavesRange n m.u32OldestIFramePos ∧
        ∀ k > 0, (∀ i < k, m.Goes n (m.placeAfter i m.u32OldestIFramePos)) →
          ¬ m.inWriteRange n (m.placeAfter k m.u32OldestIFramePos) →
            m.SearchEnds (m.placeAfter k m.u32OldestIFramePos) := by
  unfold avPoolRefreshOldestIframePos
  have hfuel : (m.refresh n m.fuel m.u32OldestIFramePos false).isSome ↔
      m.LeavesRange n m.u32OldestIFramePos := refresh_fuel hpos
  rw [← hfuel]
  cases hrefresh : m.refresh n m.fuel m.u32OldestIFramePos false with
  | none => exact iff_of_false Bool.false_ne_true fun h => Bool.false_ne_true h.1
  | some r =>
      rw [Option.bind_some]
      have hplace : ∀ k > 0, (∀ i < k, m.Goes n (m.placeAfter i m.u32OldestIFramePos)) →
          ¬ m.inWriteRange n (m.placeAfter k m.u32OldestIFramePos) →
          r = .at (m.placeAfter k m.u32OldestIFramePos) true := by
        intro k hk hgoes hout
        have hr := refresh_eq_at hrefresh hgoes hout
        rwa [decide_eq_true hk, Bool.or_true] at hr
      cases r with
      | lost =>
          refine iff_of_true rfl ⟨rfl, fun k hk hgoes hout => ?_⟩
          cases hplace k hk hgoes hout
      | «at» p upd =>
          cases upd with
          | false =>
              refine iff_of_true rfl ⟨rfl, fun k hk hgoes hout => ?_⟩
              cases hplace k hk hgoes hout
          | true =>
              obtain ⟨j, rfl, hj, hgoes, hout⟩ := refresh_at hrefresh
              dsimp only
              rw [searchIframe_fuel (placeAfter_lt hpos (hj rfl) _)]
              constructor
              · intro h
                refine ⟨rfl, fun k hk hgoes' hout' => ?_⟩
                obtain ⟨heq, -⟩ := Refresh.at.inj (hplace k hk hgoes' hout')
                rwa [← heq]
              · rintro ⟨-, h⟩
                exact h j (hj rfl) hgoes hout

end JpoolMan

section Ring

variable {m m' : JpoolMan}

theorem SameRing.nextPos (h : SameRing m m') : m'.nextPos = m.nextPos := by
  funext pos
  unfold JpoolMan.nextPos JpoolMan.avPoolGetFrameOffset JpoolMan.hdr
  rw [h.mem, h.size]

theorem SameRing.goes (h : SameRing m m') : m'.Goes = m.Goes := by
  funext n pos
  unfold JpoolMan.Goes JpoolMan.inWriteRange JpoolMan.avPoolCheckIsFrame JpoolMan.hdr
  rw [h.nextPos, h.mem, h.size, h.write]

theorem SameRing.inWriteRange (h : SameRing m m') : m'.inWriteRange = m.inWriteRange := by
  funext n pos
  unfold JpoolMan.inWriteRange
  rw [h.size, h.write]

theorem SameRing.placeAfter (h : SameRing m m') : m'.placeAfter = m.placeAfter := by
  funext k pos
  unfold JpoolMan.placeAfter
  rw [h.nextPos]

theorem SameRing.leavesRange (h : SameRing m m') : m'.LeavesRange = m.LeavesRange := by
  funext n pos
  unfold JpoolMan.LeavesRange
  rw [h.goes, h.placeAfter]

theorem SameRing.searchEnds (h : SameRing m m') : m'.SearchEnds = m.SearchEnds := by
  have hnext : m'.searchNext = m.searchNext := by
    funext s
    unfold JpoolMan.searchNext JpoolMan.avPoolGetFrameOffset JpoolMan.hdr
    rw [h.nextPos, h.mem]
  have hsearches : m'.Searches = m.Searches := by
    funext s
    unfold JpoolMan.Searches JpoolMan.avPoolCheckIsFrame JpoolMan.hdr
    rw [hnext, h.mem, h.size]
  funext pos
  unfold JpoolMan.SearchEnds
  rw [hnext, hsearches]

/-- A write returns exactly when its loops end. -/
theorem avPoolWriteFrame_isSome_iff (hpos : 0 < m.u32BuffSize) (f : Frame) :
    (m.avPoolWriteFrame f).isSome ↔ m.Ends f.needSize := by
  obtain ⟨hring, holdest, holdestI, -⟩ := noteNewest_ring m f
  unfold JpoolMan.avPoolWriteFrame JpoolMan.avPoolWriteAvData JpoolMan.freeOldest JpoolMan.Ends
  rw [Option.isSome_map, Option.isSome_map, holdest]
  by_cases hnone : m.u32OldestFramePos = noPos
  · rw [if_neg (not_not.2 hnone)]
    exact iff_of_true rfl (.inl hnone)
  · rw [if_pos hnone, or_iff_right hnone]
    have hfree : ((m.noteNewest f).avPoolRefreshOldestFramePos f.needSize).isSome ↔
        m.LeavesRange f.needSize m.u32OldestFramePos := by
      unfold JpoolMan.avPoolRefreshOldestFramePos
      rw [Option.isSome_map, JpoolMan.refresh_fuel (by rwa [hring.size]), hring.leavesRange, holdest]
    cases hfirst : (m.noteNewest f).avPoolRefreshOldestFramePos f.needSize with
    | none =>
        rw [hfirst] at hfree
        exact iff_of_false Bool.false_ne_true fun h => Bool.false_ne_true (hfree.2 h.1)
    | some m₁ =>
        rw [hfirst] at hfree
        obtain ⟨hring₁, hoi₁⟩ := avPoolRefreshOldestFramePos_ring hfirst
        have hring' := hring.trans hring₁
        rw [and_iff_right (hfree.1 rfl), Option.bind_some, hring'.video, hoi₁, holdestI]
        by_cases hiframe : m.u8VideoPool = true ∧ m.u32OldestIFramePos ≠ noPos
        · rw [if_pos hiframe,
            JpoolMan.avPoolRefreshOldestIframePos_isSome_iff (by rwa [hring'.size]), hoi₁, holdestI,
            hring'.leavesRange, hring'.goes, hring'.placeAfter, hring'.inWriteRange,
            hring'.searchEnds]
          exact ⟨fun h _ => h, fun h => h hiframe⟩
        · rw [if_neg hiframe]
          exact iff_of_true rfl fun h => absurd h hiframe

end Ring

/-! ## Over a run -/

/-- The ring is there in every state that is reached. -/
theorem size_pos_of_run {video : Bool} {size : PoolSize} {mem : ByteFile} {fs : List Frame}
    {s : Logged} (h : Run WriteStep (.init video size mem) fs s) : 0 < s.man.u32BuffSize := by
  refine h.invariant (I := fun s => 0 < s.man.u32BuffSize) (fun hs hstep => ?_) size.pos
  rw [hstep.size]
  exact hs

/-- What a write is to leave alone: the newest frame, and in a video pool the
newest I frame. -/
def LeavesNewest (s : Logged) (f : Frame) : Prop :=
  FitsBehind s f ∧ (s.man.u8VideoPool = true → KeepsIframe s f)

/-- What such a run keeps: the chain of frames, with its oldest I frame in a video
pool. -/
def KeptChain (s : Logged) : Prop :=
  (s.man.u8VideoPool = false ∧ ∃ live x, Live s live x) ∨ ∃ live x, LiveI s live x

theorem keptChain_init (video : Bool) (size : PoolSize) (mem : ByteFile) :
    KeptChain (.init video size mem) := by
  cases video with
  | false => exact .inl ⟨rfl, _, _, live_init false size mem⟩
  | true => exact .inr ⟨_, _, liveI_init size mem⟩

theorem KeptChain.write {s t : Logged} {f : Frame} (h : KeptChain s) (hstep : WriteStep s f t)
    (hleaves : LeavesNewest s f) : KeptChain t := by
  obtain ⟨hfit, hkeeps⟩ := hleaves
  obtain ⟨hvideo, live, x, hlive⟩ | ⟨live, x, hlive⟩ := h
  · exact .inl ⟨hstep.video.trans hvideo, _, hlive.write hfit hstep⟩
  · exact .inr (hlive.write hfit (hkeeps hlive.video) hstep)

theorem KeptChain.returns {s : Logged} {f : Frame} (h : KeptChain s) (haccepts : s.man.Accepts f)
    (hleaves : LeavesNewest s f) : ∃ t, WriteStep s f t := by
  obtain ⟨hfit, hkeeps⟩ := hleaves
  obtain ⟨hvideo, live, x, hlive⟩ | ⟨live, x, hlive⟩ := h
  · exact hlive.returns hfit haccepts hvideo
  · exact hlive.returns haccepts hfit (hkeeps hlive.video)

/-- In every state that is reached, a write of an accepted frame ends exactly when
its loops come out of the frames to be freed; and in a run of writes that leave
the newest frame and the newest I frame alone they always do. -/
theorem writes_end {video : Bool} {size : PoolSize} {mem : ByteFile} :
    (∀ (fs : List Frame) (s : Logged), Run WriteStep (.init video size mem) fs s →
      ∀ f, s.man.Accepts f → ((∃ t, WriteStep s f t) ↔ s.man.Ends f.needSize)) ∧
      ∀ (fs : List Frame) (s : Logged),
        Run (Restrict WriteStep LeavesNewest) (.init video size mem) fs s →
          ∀ f, s.man.Accepts f → LeavesNewest s f → s.man.Ends f.needSize := by
  have hiff : ∀ (fs : List Frame) (s : Logged), Run WriteStep (.init video size mem) fs s →
      ∀ f, s.man.Accepts f → ((∃ t, WriteStep s f t) ↔ s.man.Ends f.needSize) := by
    intro fs s hrun f haccepts
    rw [← avPoolWriteFrame_isSome_iff (size_pos_of_run hrun) f]
    constructor
    · rintro ⟨t, -, hwrite⟩
      rw [hwrite]
      rfl
    · intro h
      obtain ⟨m, hm⟩ := Option.isSome_iff_exists.1 h
      exact ⟨_, .write haccepts hm⟩
  refine ⟨hiff, fun fs s hrun f haccepts hleaves => ?_⟩
  have hkept : KeptChain s := hrun.invariant (fun h hstep => h.write hstep.1 hstep.2)
    (keptChain_init video size mem)
  exact (hiff fs s (hrun.mono fun h => h.1) f haccepts).1 (hkept.returns haccepts hleaves)

/-- A pool of 256 bytes. -/
def poolSize256 : PoolSize := ⟨256, by decide, by decide, by decide⟩

/-- Three frames of half the pool each: the third write goes round for ever. -/
theorem not_writes_end : ¬∀ (video : Bool) (size : PoolSize) (mem : ByteFile) (fs : List Frame)
    (s : Logged), Run WriteStep (.init video size mem) fs s → ∀ f, s.man.Accepts f →
      ∃ t, WriteStep s f t := by
  intro h
  have hexec : ((List.replicate 2 (pieceFrame 0xA (List.replicate 64 1))).foldlM Logged.exec
      (.init false poolSize256 fun _ => 0)).map (fun s =>
        decide (s.man.Accepts (pieceFrame 0xA (List.replicate 64 1))) &&
          (s.man.avPoolWriteFrame (pieceFrame 0xA (List.replicate 64 1))).isNone) =
      some true := by decide +kernel
  obtain ⟨s, hs, hstuck⟩ := Option.map_eq_some_iff.1 hexec
  rw [Bool.and_eq_true, decide_eq_true_eq, Option.isNone_iff_eq_none] at hstuck
  obtain ⟨t, -, hwrite⟩ := h _ _ _ _ s (Run.of_foldlM Logged.exec_writeStep hs) _ hstuck.1
  rw [hstuck.2] at hwrite
  cases hwrite

end Nvr.AvPool
