import Nvr.Proofs.SpsFields
import Nvr.Proofs.SpsInside

/-!
# The resolution of a stream

What `sps_parse` should do, for every sequence parameter set and for every string of bytes,
and when it does. The fields are read right where they are plain. The bytes that are read
without a comparison are the ones in which a start code is looked for and the type behind
it, and which of them these are depends on the bytes themselves.
-/

namespace Nvr.RtspClient

open BitString BitGrammar

variable {shl32 : UInt32} {sps : List UInt8}

/-! ## The law -/

/-- The size that a parameter set has is returned, and its id. -/
def ResolutionLaw (shl32 : UInt32) (n : SpsNal) : Prop :=
  ∃ width height : UInt32,
    (spsParse shl32 n.bytes).1 = ⟨n.data.seq_parameter_set_id.val, some (width, height)⟩ ∧
      width.toNat = 16 * (n.data.pic_width_in_mbs_minus1.val + 1) ∧
      height.toNat = 16 * (n.data.pic_height_in_map_units_minus1.val + 1)

/-- Only bytes of the string are read. -/
def ReadsInside (shl32 : UInt32) (sps : List UInt8) : Prop :=
  ∀ k ∈ (spsParse shl32 sps).2, k < sps.length

/-- The loops whose rounds are counted end before the count does. -/
def LoopsEnd : Prop :=
  ∀ s : Bs, s.Ok → ∀ n more : Nat,
    (∀ acc, bsReadLoop (n + more) n acc s = bsReadLoop n n acc s) ∧
      bsSkipLoop (n + 1 + more) { s with i_left := s.i_left - n } =
        bsSkipLoop (n + 1) { s with i_left := s.i_left - n }

def SpsLaw (shl32 : UInt32) : Prop :=
  (∀ n, ResolutionLaw shl32 n) ∧ (∀ sps, ReadsInside shl32 sps) ∧ LoopsEnd

/-- No byte is put in front of the size's end, the profile is one whose fields are read, there
are no twelve scaling lists, and an `uint32_t` can have the size. -/
structure SpsNal.Plain (n : SpsNal) : Prop where
  known : n.data.Known
  lists : ∀ f, n.data.high = some f → f.chroma_format_idc.val = 3 → f.seq_scaling_lists = none
  bits : n.data.bits <+: ofBytes (EmulationPrevention.encode 0 n.rbsp)
  width : 16 * (n.data.pic_width_in_mbs_minus1.val + 1) < 2 ^ 32
  height : 16 * (n.data.pic_height_in_map_units_minus1.val + 1) < 2 ^ 32

/-- There are as many bytes as are looked at for a start code and a type. -/
def HeaderInside (sps : List UInt8) : Prop :=
  2 ≤ sps.length ∧
    (sps.getD 0 0 = 0 → sps.getD 1 0 = 0 → 3 ≤ sps.length ∧
      (sps.getD 2 0 = 0 → 4 ≤ sps.length ∧ (sps.getD 3 0 = 1 → 5 ≤ sps.length)))

/-! ## What is in front of the fields -/

theorem startsWith_cons (k : Nat) (code : UInt8) (codes : List UInt8) (s : Bs) :
    startsWith k (code :: codes) s =
      if s.bytes.getD k 0 = code then startsWith (k + 1) codes { s with reads := s.reads ++ [k] }
      else (false, { s with reads := s.reads ++ [k] }) := by
  rw [startsWith, run_bind, bsByte]
  dsimp only
  split <;> rfl

/-- The bytes that are looked at for a start code. -/
def startReads (sps : List UInt8) : List Nat :=
  if sps.getD 0 0 = 0 then
    if sps.getD 1 0 = 0 then
      if sps.getD 2 0 = 0 then [0, 1, 2, 3] else [0, 1, 2]
    else [0, 1]
  else [0]

/-- Whether there is a start code. -/
def Starts (sps : List UInt8) : Prop :=
  sps.getD 0 0 = 0 ∧ sps.getD 1 0 = 0 ∧ sps.getD 2 0 = 0 ∧ sps.getD 3 0 = 1

instance (sps : List UInt8) : Decidable (Starts sps) := inferInstanceAs (Decidable (_ ∧ _))

/-- The bytes looked at in front of the fields. -/
def headerReads (sps : List UInt8) : List Nat :=
  startReads sps ++ if Starts sps then [4] else [0, 1]

theorem startsWith_run (sps : List UInt8) :
    startsWith 0 [0x00, 0x00, 0x00, 0x01] ⟨sps, 0, 8, []⟩ =
      (decide (Starts sps), ⟨sps, 0, 8, startReads sps⟩) := by
  simp only [startsWith_cons, startReads, Starts]
  split
  · split
    · split
      · split
        · simp_all [startsWith]
          rfl
        · simp_all
      · simp_all
    · simp_all
  · simp_all

theorem readSps_start (h : Starts sps) :
    readSps shl32 ⟨sps, 0, 8, []⟩ = readUnit shl32 4 ⟨sps, 5, 8, startReads sps⟩ := by
  rw [readSps, run_bind, startsWith_run]
  dsimp only
  rw [if_pos (decide_eq_true h)]
  rfl

/-- Without a start code, the first two bytes may be too small. -/
theorem readSps_small (h : ¬Starts sps)
    (hsmall : ((sps.getD 0 0).toNat <<< 8 ||| (sps.getD 1 0).toNat) ≤ 3) :
    readSps shl32 ⟨sps, 0, 8, []⟩ = (⟨-1, none⟩, ⟨sps, 0, 8, startReads sps ++ [0] ++ [1]⟩) := by
  rw [readSps, run_bind, startsWith_run]
  dsimp only
  rw [if_neg fun hstart => h (of_decide_eq_true hstart), run_bind, run_bind]
  exact congrFun (if_pos hsmall) _

theorem readSps_bare (h : ¬Starts sps)
    (hlarge : ¬((sps.getD 0 0).toNat <<< 8 ||| (sps.getD 1 0).toNat) ≤ 3) :
    readSps shl32 ⟨sps, 0, 8, []⟩ =
      readUnit shl32 0 ⟨sps, 1, 8, startReads sps ++ [0] ++ [1]⟩ := by
  rw [readSps, run_bind, startsWith_run]
  dsimp only
  rw [if_neg fun hstart => h (of_decide_eq_true hstart), run_bind, run_bind]
  exact congrFun (if_neg hlarge) _

/-! ## The size -/

/-- From the type on, the fields are what is returned. -/
theorem readUnit_reads {d : SpsData} (hknown : d.Known)
    (hlists : ∀ f, d.high = some f → f.chroma_format_idc.val = 3 → f.seq_scaling_lists = none)
    {s : Bs} {k : Nat} {more : List Bool} (hheader : s.bytes.getD k 0 &&& 0x0f = 0x07)
    (hok : s.Ok) (hbits : s.bits = d.bits ++ more) : (readUnit shl32 k s).1 = d.result := by
  have hrun : readUnit shl32 k s = readFields shl32 { s with reads := s.reads ++ [k] } := by
    rw [readUnit, run_bind, bsByte]
    exact congrFun (if_neg (not_not_intro hheader)) _
  have hread : BsReads (readFields shl32) d.bits d.result := readFields_reads hknown hlists
  rw [hrun]
  exact (hread { s with reads := s.reads ++ [k] } more hok hbits).1

/-- The reader behind `8 * n` bits. -/
theorem bits_behind (front back : List UInt8) (reads : List Nat) :
    Bs.bits ⟨front ++ back, front.length, 8, reads⟩ = ofBytes back := by
  have hpos : Bs.pos ⟨front ++ back, front.length, 8, reads⟩ = (ofBytes front).length := by
    rw [length_ofBytes]
    rfl
  have hbytes : ofBytes (front ++ back) = ofBytes front ++ ofBytes back := List.flatMap_append
  rw [Bs.bits, hpos]
  dsimp only
  rw [hbytes]
  exact List.drop_left

theorem eight_ok : (1 : Int) ≤ 8 ∧ (8 : Int) ≤ 8 := ⟨by decide, Int.le_refl 8⟩

theorem header_type {header : UInt8} (h : header ∈ [(0x27 : UInt8), 0x47, 0x67]) :
    header &&& 0x0f = 0x07 ∧ header ≠ 0 ∧ 4 ≤ header.toNat := by
  simp only [List.mem_cons, List.not_mem_nil, or_false] at h
  obtain rfl | rfl | rfl := h
  · decide
  · decide
  · decide

theorem large_of_four {header : UInt8} (hfour : 4 ≤ header.toNat) (b : UInt8) :
    ¬(header.toNat <<< 8 ||| b.toNat) ≤ 3 := by
  have hor : header.toNat <<< 8 ≤ header.toNat <<< 8 ||| b.toNat := Nat.left_le_or
  rw [Nat.shiftLeft_eq] at hor ⊢
  omega

theorem resolutionLaw_of_plain {n : SpsNal} (h : n.Plain) : ResolutionLaw shl32 n := by
  obtain ⟨htype, hne, hfour⟩ := header_type n.header_mem
  obtain ⟨more, hmore⟩ := h.bits
  have hresult : (spsParse shl32 n.bytes).1 = n.data.result := by
    show (readSps shl32 ⟨n.bytes, 0, 8, []⟩).1 = _
    rw [SpsNal.bytes]
    split
    · have hstarts : Starts ([0x00, 0x00, 0x00, 0x01] ++
          n.header :: EmulationPrevention.encode 0 n.rbsp) := ⟨rfl, rfl, rfl, rfl⟩
      rw [readSps_start hstarts]
      exact readUnit_reads h.known h.lists htype eight_ok ((bits_behind
        [0x00, 0x00, 0x00, 0x01, n.header] _ _).trans hmore.symm)
    · have hbare : ¬Starts (n.header :: EmulationPrevention.encode 0 n.rbsp) :=
        fun hstart => hne hstart.1
      rw [List.nil_append, readSps_bare hbare (large_of_four hfour _)]
      exact readUnit_reads h.known h.lists htype eight_ok
        ((bits_behind [n.header] _ _).trans hmore.symm)
  exact ⟨_, _, hresult, pixels_toNat h.width, pixels_toNat h.height⟩

/-! ## The bytes read -/

/-- From the type on, only bytes inside are read. -/
theorem readUnit_inside {front : List Nat} {s : Bs} (h : Inside sps front s) {k : Nat} :
    ∃ back, (readUnit shl32 k s).2.reads = s.reads ++ [k] ++ back ∧ ∀ j ∈ back, j < sps.length := by
  have hunit : Inside sps (s.reads ++ [k]) (readUnit shl32 k s).2 := by
    rw [readUnit, run_bind, bsByte]
    dsimp only
    refine keeps_ite (fun _ => keeps_pure _) (fun _ => readFields_keeps) _ ?_
    exact ⟨h.ok, h.bytes, [], (List.append_nil _).symm, fun _ hj => nomatch hj⟩
  exact hunit.reads

/-- Nothing but `front` has been read. -/
theorem inside_start (sps : List UInt8) (p : Nat) (front : List Nat) :
    Inside sps front ⟨sps, p, 8, front⟩ :=
  ⟨eight_ok, rfl, [], (List.append_nil front).symm, fun _ hj => nomatch hj⟩

theorem spsParse_reads (sps : List UInt8) : ∃ back,
    (spsParse shl32 sps).2 = headerReads sps ++ back ∧ ∀ k ∈ back, k < sps.length := by
  have hreads : (spsParse shl32 sps).2 = (readSps shl32 ⟨sps, 0, 8, []⟩).2.reads := rfl
  rw [hreads, headerReads]
  by_cases hstart : Starts sps
  · rw [if_pos hstart, readSps_start hstart]
    exact readUnit_inside (inside_start sps 5 (startReads sps))
  rw [if_neg hstart]
  by_cases hsmall : ((sps.getD 0 0).toNat <<< 8 ||| (sps.getD 1 0).toNat) ≤ 3
  · rw [readSps_small hstart hsmall]
    refine ⟨[], ?_, fun _ hj => nomatch hj⟩
    rw [List.append_nil]
    exact List.append_assoc (startReads sps) [0] [1]
  · have hzero : 0 < sps.length := by
      by_contra hnone
      obtain rfl := List.length_eq_zero_iff.1 (Nat.le_zero.1 (Nat.not_lt.1 hnone))
      exact hsmall (Nat.zero_le 3)
    rw [readSps_bare hstart hsmall]
    obtain ⟨back, hback, hin⟩ := @readUnit_inside shl32 _ _ _
      (inside_start sps 1 (startReads sps ++ [0] ++ [1])) 0
    refine ⟨0 :: back, hback.trans ?_, fun j hj => ?_⟩
    · show startReads sps ++ [0] ++ [1] ++ [0] ++ back = startReads sps ++ [0, 1] ++ 0 :: back
      simp only [List.append_assoc, List.cons_append, List.nil_append]
    · obtain rfl | hj := List.mem_cons.1 hj
      · exact hzero
      · exact hin j hj

theorem readsInside_iff : ReadsInside shl32 sps ↔ HeaderInside sps := by
  obtain ⟨back, hreads, hback⟩ := @spsParse_reads shl32 sps
  have hheader : ReadsInside shl32 sps ↔ ∀ k ∈ headerReads sps, k < sps.length := by
    rw [ReadsInside, hreads]
    simp only [List.mem_append, or_imp, forall_and]
    exact and_iff_left hback
  rw [hheader, HeaderInside, headerReads]
  by_cases h0 : sps.getD 0 0 = 0
  · by_cases h1 : sps.getD 1 0 = 0
    · by_cases h2 : sps.getD 2 0 = 0
      · by_cases h3 : sps.getD 3 0 = 1
        · simp_all [startReads, Starts]
          omega
        · simp_all [startReads, Starts]
          omega
      · simp_all [startReads, Starts]
        omega
    · simp_all [startReads, Starts]
      omega
  · simp_all [startReads, Starts]
    omega

theorem loopsEnd : LoopsEnd := by
  intro s hok n more
  obtain ⟨hone, height⟩ := hok
  refine ⟨fun acc => bsReadLoop_more n s n acc more ⟨hone, height⟩ (Int.le_refl _), ?_⟩
  refine bsSkipLoop_more (n + 1) _ more ?_
  show 0 < s.i_left - n + 8 * (n + 1 : Nat)
  omega

/-- The size is found where the fields are plain; and only bytes inside are read if and only if
there are as many as are looked at for a start code and a type. -/
theorem spsParse_size_and_reads (shl32 : UInt32) :
    (∀ n : SpsNal, n.Plain → ResolutionLaw shl32 n) ∧
      (∀ sps, ReadsInside shl32 sps ↔ HeaderInside sps) ∧ LoopsEnd :=
  ⟨fun _ h => resolutionLaw_of_plain h, fun _ => readsInside_iff, loopsEnd⟩

/-- 640x480 in some profile. -/
def vga (profile_idc : UInt8) (high : Option HighFields)
    (high_iff : high.isSome ↔ profile_idc ∈ highProfiles) : SpsData where
  profile_idc := profile_idc
  constraint_set_flags := 0
  level_idc := 30
  seq_parameter_set_id := 0
  high := high
  high_iff := high_iff
  log2_max_frame_num_minus4 := ⟨0, by decide⟩
  poc := .zero ⟨2, by decide⟩
  max_num_ref_frames := ⟨1, by decide⟩
  gaps_in_frame_num_value_allowed_flag := false
  pic_width_in_mbs_minus1 := ⟨39, by decide⟩
  pic_height_in_map_units_minus1 := ⟨29, by decide⟩

/-- The baseline profile, behind a start code. -/
def baselineSps : SpsNal where
  data := vga 66 none (by decide)
  header := 0x67
  header_mem := by decide
  rbsp := [66, 0, 30, 237, 1, 64, 123, 32]
  begins := by decide
  start := true

theorem spsParse_size_and_reads_baseline : ResolutionLaw 0 baselineSps :=
  (spsParse_size_and_reads 0).1 baselineSps
    ⟨show (66 : UInt8) ≠ 144 by decide, nofun, by decide, by decide, by decide⟩

/-- A high profile with separate values for the colours, which is not one of those whose
fields are read. -/
def predictiveSps : SpsNal where
  data := vga 244 (some ⟨⟨1, by decide⟩, false, ⟨0, by decide⟩, ⟨0, by decide⟩, false, none,
    nofun, nofun⟩) (by decide)
  header := 0x67
  header_mem := by decide
  rbsp := [244, 0, 30, 172, 218, 2, 128, 247, 32]
  begins := by decide
  start := false

/-- Its size is not found; and of an empty string two bytes are read. -/
theorem not_spsLaw :
    ¬(∀ shl32 n, ResolutionLaw shl32 n) ∧ ¬(∀ shl32 sps, ReadsInside shl32 sps) := by
  refine ⟨fun hlaw => ?_, fun hlaw => ?_⟩
  · obtain ⟨width, height, hparse, hwidth, -⟩ := hlaw 0 predictiveSps
    have hother : (spsParse 0 predictiveSps.bytes).1 = ⟨0, some (16, 32)⟩ := by decide +kernel
    rw [hother] at hparse
    have hsize : ((16 : UInt32), (32 : UInt32)) = (width, height) :=
      Option.some.inj (congrArg SpsResult.size hparse)
    have hwidth' : (16 : UInt32).toNat = 640 :=
      (congrArg UInt32.toNat (congrArg Prod.fst hsize)).trans hwidth
    exact absurd hwidth' (by decide)
  · have hread : 0 ∈ (spsParse 0 []).2 := by decide +kernel
    exact absurd (hlaw 0 [] 0 hread) (Nat.not_lt_zero 0)

end Nvr.RtspClient
