import Nvr.Proofs.SpsReader

/-!
# Where a parameter set is read

The functions over `bs_t` compare with `p_end` before they look at a byte, so whatever the
bytes are they stay inside of them, and their loops end. `_read_sps` itself looks at the
first bytes without a comparison: these are the only ones that may be outside.
-/

namespace Nvr.RtspClient

open BitGrammar

/-! ## The loops end -/

/-- A round of `_bs_read` takes a bit at least, so there are no more rounds than bits. -/
theorem bsReadLoop_more (rounds : Nat) : ∀ (s : Bs) (i_count : Int) (acc : UInt32) (more : Nat),
    s.Ok → i_count ≤ rounds →
    bsReadLoop (rounds + more) i_count acc s = bsReadLoop rounds i_count acc s := by
  induction rounds with
  | zero =>
      intro s i_count acc more _ hle
      have hdone : i_count ≤ 0 := hle
      cases more with
      | zero => rfl
      | succ more =>
          rw [← Nat.add_assoc, bsReadLoop]
          exact if_pos hdone
  | succ rounds ih =>
      intro s i_count acc more hok hle
      obtain ⟨hone, height⟩ := hok
      rw [Nat.add_right_comm, bsReadLoop, bsReadLoop]
      dsimp only
      split
      · rfl
      · split
        · rfl
        · split
          · rfl
          · refine ih _ _ _ more ⟨?_, ?_⟩ (by omega)
            · show (1 : Int) ≤ 8
              omega
            · show (8 : Int) ≤ 8
              omega

/-- Nor does `_bs_skip` go round more often than once for each bit. -/
theorem bsSkipLoop_more (rounds : Nat) : ∀ (s : Bs) (more : Nat), 0 < s.i_left + 8 * rounds →
    bsSkipLoop (rounds + more) s = bsSkipLoop rounds s := by
  induction rounds with
  | zero =>
      intro s more hpos
      cases more with
      | zero => rfl
      | succ more =>
          rw [← Nat.add_assoc, bsSkipLoop]
          exact if_neg (by omega)
  | succ rounds ih =>
      intro s more hpos
      rw [Nat.add_right_comm, bsSkipLoop, bsSkipLoop]
      split
      · exact ih _ more (by show 0 < s.i_left + 8 + 8 * rounds; omega)
      · rfl

/-! ## Nothing is read outside -/

/-- After the bytes at `front`, only bytes inside have been read. -/
structure Inside (sps : List UInt8) (front : List Nat) (s : Bs) : Prop where
  ok : s.Ok
  bytes : s.bytes = sps
  reads : ∃ back, s.reads = front ++ back ∧ ∀ k ∈ back, k < sps.length

variable {sps : List UInt8} {front : List Nat} {shl32 : UInt32}

theorem Inside.of_bs {s : Bs} (h : Inside sps front s) (p : Nat) {i_left : Int}
    (hleft : 1 ≤ i_left ∧ i_left ≤ 8) : Inside sps front { s with p := p, i_left := i_left } :=
  ⟨hleft, h.bytes, h.reads⟩

/-- A byte inside is read, and bits of it may be left. -/
theorem Inside.leave {s : Bs} (h : Inside sps front s) (hp : s.p < s.bytes.length) {i_left : Int}
    (hleft : 0 ≤ i_left ∧ i_left ≤ 8) : Inside sps front (s.leave i_left) := by
  obtain ⟨back, hback, hin⟩ := h.reads
  have hreads : ∃ back', s.reads ++ [s.p] = front ++ back' ∧ ∀ k ∈ back', k < sps.length := by
    refine ⟨back ++ [s.p], by rw [hback, List.append_assoc], fun k hk => ?_⟩
    obtain hk | hk := List.mem_append.1 hk
    · exact hin k hk
    · rw [List.mem_singleton.1 hk, ← h.bytes]
      exact hp
  rw [Bs.leave]
  split
  · exact ⟨⟨Int.le.intro_sub _ rfl, Int.le_refl 8⟩, h.bytes, hreads⟩
  · exact ⟨⟨by show 1 ≤ i_left; omega, hleft.2⟩, h.bytes, hreads⟩

theorem bsReadLoop_inside_keeps (rounds : Nat) : ∀ (i_count : Int) (acc : UInt32),
    Keeps (Inside sps front) (bsReadLoop rounds i_count acc) := by
  induction rounds with
  | zero => exact fun _ acc => keeps_pure acc
  | succ rounds ih =>
      intro i_count acc s h
      obtain ⟨hone, height⟩ := h.ok
      rw [bsReadLoop]
      dsimp only
      split
      · exact h
      · split
        · exact h
        · rename_i hend
          have hp : s.p < s.bytes.length := Nat.not_le.1 hend
          split
          · exact h.leave hp ⟨by omega, by omega⟩
          · exact ih _ _ _ (h.leave hp ⟨by omega, by omega⟩)

theorem bsRead_keeps (i_count : Nat) : Keeps (Inside sps front) (bsRead i_count) :=
  bsReadLoop_inside_keeps i_count i_count 0

theorem bsRead1_keeps : Keeps (Inside sps front) bsRead1 := by
  intro s h
  obtain ⟨hone, height⟩ := h.ok
  rw [bsRead1]
  split
  · rename_i hp
    exact h.leave hp ⟨by omega, by omega⟩
  · exact h

theorem bsSkipLoop_reads (rounds : Nat) : ∀ s, (bsSkipLoop rounds s).reads = s.reads := by
  induction rounds with
  | zero => exact fun _ => rfl
  | succ rounds ih =>
      intro s
      rw [bsSkipLoop]
      split
      · exact ih _
      · rfl

theorem bsSkip_keeps (i_count : Nat) : Keeps (Inside sps front) (bsSkip i_count) := by
  intro s h
  obtain ⟨hone, height⟩ := h.ok
  obtain ⟨hok, hbytes, -⟩ := bsSkipLoop_spec (i_count + 1) { s with i_left := s.i_left - i_count }
    (by show s.i_left - i_count ≤ 8; omega)
    (by show 0 < s.i_left - i_count + 8 * (i_count + 1 : Nat); omega)
  obtain ⟨back, hback, hin⟩ := h.reads
  exact ⟨hok, hbytes.trans h.bytes, back, (bsSkipLoop_reads _ _).trans hback, hin⟩

theorem ueLoop_keeps (left : Nat) : ∀ i, Keeps (Inside sps front) (ueLoop left i) := by
  induction left with
  | zero => exact fun i => bsRead1_keeps.bind fun _ => keeps_pure i
  | succ left ih =>
      intro i s h
      rw [ueLoop_succ]
      split
      · exact ih (i + 1) _ (bsRead1_keeps s h)
      · exact bsRead1_keeps s h

theorem readIf_keeps {c : Prop} [Decidable c] {m : StateM Bs Unit}
    (hm : Keeps (Inside sps front) m) : Keeps (Inside sps front) (readIf c m) :=
  keeps_ite (fun _ => hm) fun _ => keeps_pure ()

theorem bsReadUe_keeps : Keeps (Inside sps front) (bsReadUe shl32) :=
  (ueLoop_keeps 32 0).bind fun i => (bsRead_keeps i).bind fun _ => keeps_pure _

theorem bsReadSe_keeps : Keeps (Inside sps front) (bsReadSe shl32) :=
  bsReadUe_keeps.bind fun _ => keeps_pure _

theorem scalingLoop_keeps (left : Nat) : ∀ last next : Int,
    Keeps (Inside sps front) (scalingLoop shl32 left last next) := by
  induction left with
  | zero => exact fun _ _ => keeps_pure ()
  | succ left ih =>
      intro last next
      refine Keeps.bind ?_ fun next => ih _ next
      exact keeps_ite (fun _ => bsReadSe_keeps.bind fun _ => keeps_pure _) fun _ => keeps_pure _

theorem scalingLists_keeps (left : Nat) : ∀ i,
    Keeps (Inside sps front) (scalingLists shl32 left i) := by
  induction left with
  | zero => exact fun _ => keeps_pure ()
  | succ left ih =>
      intro i
      refine (bsRead_keeps 1).bind fun _ => ?_
      exact (readIf_keeps (scalingLoop_keeps _ 8 8)).bind fun _ => ih (i + 1)

theorem readHigh_keeps : Keeps (Inside sps front) (readHigh shl32) := by
  refine bsReadUe_keeps.bind fun chroma_format_idc => ?_
  refine (readIf_keeps ((bsRead_keeps 1).bind fun _ => keeps_pure ())).bind fun _ => ?_
  refine bsReadUe_keeps.bind fun _ => bsReadUe_keeps.bind fun _ => ?_
  refine (bsRead_keeps 1).bind fun _ => (bsRead_keeps 1).bind fun _ => ?_
  exact readIf_keeps (scalingLists_keeps 8 0)

theorem readOffsets_keeps (left : Nat) : Keeps (Inside sps front) (readOffsets shl32 left) := by
  induction left with
  | zero => exact keeps_pure ()
  | succ left ih => exact bsReadSe_keeps.bind fun _ => ih

theorem readPoc_keeps (i_poc_type : Int) :
    Keeps (Inside sps front) (readPoc shl32 i_poc_type) := by
  refine keeps_ite (fun _ => bsReadUe_keeps.bind fun _ => keeps_pure true) fun _ => ?_
  refine keeps_ite (fun _ => ?_) fun _ => keeps_pure _
  refine (bsRead_keeps 1).bind fun _ => bsReadSe_keeps.bind fun _ => ?_
  refine bsReadSe_keeps.bind fun _ => bsReadUe_keeps.bind fun _ => ?_
  exact (readOffsets_keeps _).bind fun _ => keeps_pure true

theorem readSize_keeps (id : Int) : Keeps (Inside sps front) (readSize shl32 id) := by
  refine bsReadUe_keeps.bind fun _ => (bsRead_keeps 1).bind fun _ => ?_
  exact bsReadUe_keeps.bind fun _ => bsReadUe_keeps.bind fun _ => keeps_pure _

theorem readFields_keeps : Keeps (Inside sps front) (readFields shl32) := by
  refine (bsRead_keeps 8).bind fun i_profile_idc => (bsRead_keeps 1).bind fun _ => ?_
  refine (bsRead_keeps 1).bind fun _ => (bsRead_keeps 1).bind fun _ => ?_
  refine (bsSkip_keeps 5).bind fun _ => (bsRead_keeps 8).bind fun _ => ?_
  refine bsReadUe_keeps.bind fun id => (readIf_keeps readHigh_keeps).bind fun _ => ?_
  refine bsReadUe_keeps.bind fun _ => bsReadUe_keeps.bind fun i_poc_type => ?_
  refine (readPoc_keeps i_poc_type).bind fun known => ?_
  exact keeps_ite (fun _ => readSize_keeps id) fun _ => keeps_pure _

end Nvr.RtspClient
