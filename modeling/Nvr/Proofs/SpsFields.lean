import Nvr.Proofs.SpsReader
import Nvr.RtspClient.SpsSyntax

/-!
# The fields of a sequence parameter set

`_read_sps` reads the fields in the order in which the standard writes them. It takes three
of the high profiles for such, and one that is none any more, and it reads eight scaling
lists where there may be twelve; and it does not take out the bytes that prevent the
emulation of a start code. Where none of this matters (`SpsNal.Plain`) it finds the size.
-/

namespace Nvr.RtspClient

open BitString BitGrammar ExpGolomb

variable {shl32 : UInt32} {n : Nat}

/-! ## Values -/

theorem ue_lt (k : Ue) : k.val < 2 ^ 32 - 1 := k.isLt

theorem number_lt (x : Se) : number x.val < 2 ^ 32 - 1 := by
  obtain ⟨x, hlow, hhigh⟩ := x
  show number x < 2 ^ 32 - 1
  rw [number]
  split <;> omega

theorem toInt_eq_iff {k : Nat} (hk : k < 2 ^ 32 - 1) {c : Nat} (hc : c < 2 ^ 31) :
    toInt (.ofNat k) = c ↔ k = c := by
  rw [← toInt_ofNat hc]
  constructor
  · intro h
    have heq : UInt32.ofNat k = UInt32.ofNat c :=
      UInt32.toBitVec_inj.1 (BitVec.toInt_inj.1 h)
    have hnat := congrArg UInt32.toNat heq
    rwa [UInt32.toNat_ofNat_of_lt' (show k < 2 ^ 32 by omega),
      UInt32.toNat_ofNat_of_lt' (show c < 2 ^ 32 by omega)] at hnat
  · rintro rfl
    rfl

theorem bsRead_byte (x : UInt8) : BsReads (bsRead 8) (Byte.bits x) x.toUInt32 := by
  have h := bsRead_reads (show (Byte.bits x).length ≤ 32 from Nat.le_of_ble_eq_true rfl)
  rw [value_bits] at h
  have hx : UInt32.ofNat x.toNat = x.toUInt32 := UInt32.toNat_inj.1 (by
    rw [UInt32.toNat_ofNat_of_lt' (Nat.lt_trans x.toNat_lt (by decide)), UInt8.toNat_toUInt32])
  rwa [hx] at h

theorem bsRead_flag (b : Bool) : BsReads (bsRead 1) [b] (if b then 1 else 0) := by
  have h := bsRead_reads (show [b].length ≤ 32 from Nat.le_of_ble_eq_true rfl)
  cases b <;> exact h

/-- A part that is there under a condition. -/
theorem readIf_reads {c : Prop} [Decidable c] {m : StateM Bs Unit} {bs : List Bool}
    (hm : c → BsReads m bs ()) (hbs : ¬c → bs = []) : BsReads (readIf c m) bs () := by
  rw [readIf]
  split
  · rename_i hc
    exact hm hc
  · rename_i hc
    rw [hbs hc]
    exact reads_pure ()

/-! ## Scaling lists -/

theorem scalingDeltas_succ (left : Nat) (last next : Int) (deltas : List Int) :
    ScalingDeltas (left + 1) last next deltas ↔
      (next = 0 ∧ ScalingDeltas left last 0 deltas) ∨
      (next ≠ 0 ∧ ∃ delta rest, deltas = delta :: rest ∧ -128 ≤ delta ∧ delta ≤ 127 ∧
        ScalingDeltas left (if scaleBehind last delta = 0 then last else scaleBehind last delta)
          (scaleBehind last delta) rest) := by
  by_cases hnext : next = 0
  · cases deltas <;> simp [ScalingDeltas, hnext]
  · cases deltas <;> simp [ScalingDeltas, hnext]

/-- The numbers of a scaling list are from 1 to 255, and 0 ends it. -/
theorem scalingLoop_reads (left : Nat) : ∀ (last next : Int) (deltas : List Int),
    1 ≤ last → last ≤ 255 → ScalingDeltas left last next deltas →
    BsReads (scalingLoop shl32 left last next) (deltas.flatMap signedCode) () := by
  induction left with
  | zero =>
      intro last next deltas _ _ hdeltas
      obtain rfl : deltas = [] := hdeltas
      exact reads_pure ()
  | succ left ih =>
      intro last next deltas hone hmax hdeltas
      rw [scalingLoop, nextScale]
      obtain ⟨rfl, hrest⟩ | ⟨hne, delta, deltas, rfl, hlow, hhigh, hrest⟩ :=
        (scalingDeltas_succ left last next deltas).1 hdeltas
      · rw [if_neg (not_not_intro rfl), ← List.nil_append (deltas.flatMap signedCode)]
        exact (reads_pure (0 : Int)).bind (ih last 0 deltas hone hmax hrest)
      · rw [if_pos hne]
        have hnumber : number delta < 2 ^ 32 - 1 := by
          rw [number]
          split <;> omega
        have hread := @bsReadSe_reads shl32 _ hnumber
        rw [seOf_number (by omega) (by omega)] at hread
        have hscale : (wrapInt (last + delta + 256)).tmod 256 = scaleBehind last delta := by
          rw [wrapInt, Int.bmod_eq_of_le (by omega) (by omega),
            Int.tmod_eq_emod_of_nonneg (by omega)]
          rfl
        have hnext : BsReads (bsReadSe shl32 >>= fun delta_scale =>
            pure ((wrapInt (last + delta_scale + 256)).tmod 256)) (signedCode delta)
            (scaleBehind last delta) := by
          refine hread.then ?_
          rw [hscale]
          exact reads_pure _
        rw [List.flatMap_cons]
        refine hnext.bind (ih _ _ deltas ?_ ?_ hrest)
        · split
          · exact hone
          · rename_i hscale_ne
            rw [scaleBehind] at hscale_ne ⊢
            omega
        · split
          · exact hmax
          · rw [scaleBehind]
            omega

theorem scalingLists_reads (lists : List (Option (List Int))) : ∀ i, ScalingValid i lists →
    BsReads (scalingLists shl32 lists.length i) (lists.flatMap scalingBits) () := by
  induction lists with
  | nil => exact fun _ _ => reads_pure ()
  | cons list lists ih =>
      intro i hvalid
      obtain ⟨hlist, hlists⟩ := hvalid
      rw [List.length_cons, scalingLists, List.flatMap_cons]
      cases list with
      | none =>
          have hnone : BsReads (readIf ((0 : UInt32) ≠ 0)
              (scalingList shl32 (if i < 6 then 16 else 64))) [] () :=
            readIf_reads (fun h => absurd rfl h) fun _ => rfl
          show BsReads _ ([false] ++ ([] ++ lists.flatMap scalingBits)) ()
          exact (bsRead_flag false).bind (hnone.bind (ih (i + 1) hlists))
      | some deltas =>
          rw [scalingBits]
          show BsReads _ ([true] ++ (deltas.flatMap signedCode ++ lists.flatMap scalingBits)) ()
          refine (bsRead_flag true).bind ?_
          refine (readIf_reads (fun _ => ?_) fun h => absurd (by decide) h).bind (ih (i + 1) hlists)
          have hdeltas := hlist deltas rfl
          rw [scalingList]
          exact scalingLoop_reads _ 8 8 deltas (by decide) (by decide) hdeltas

/-- The fields of the high profiles, if there are not twelve scaling lists. -/
theorem readHigh_reads (f : HighFields)
    (hlists : f.chroma_format_idc.val = 3 → f.seq_scaling_lists = none) :
    BsReads (readHigh shl32) f.bits () := by
  rw [readHigh, HighFields.bits]
  refine (bsReadUe_reads (ue_lt _)).bind ?_
  refine (readIf_reads (fun hthree => ?_) fun hne => ?_).bind ?_
  · have hchroma := (toInt_eq_iff (ue_lt f.chroma_format_idc) (c := 3) (by decide)).1 hthree
    rw [if_pos hchroma]
    exact (bsRead_flag _).then (reads_pure ())
  · rw [if_neg fun hchroma => hne ((toInt_eq_iff (ue_lt _) (c := 3) (by decide)).2 hchroma)]
  refine (bsReadUe_reads (ue_lt _)).bind ((bsReadUe_reads (ue_lt _)).bind ?_)
  refine (bsRead_flag _).bind ((bsRead_flag _).bind (readIf_reads (fun hflag => ?_) fun hflag => ?_))
  · cases hsome : f.seq_scaling_lists with
    | none =>
        rw [hsome] at hflag
        exact absurd rfl hflag
    | some lists =>
        have hcount := f.count lists hsome
        rw [if_neg fun hthree => by
          rw [hlists hthree] at hsome
          cases hsome] at hcount
        have hread := @scalingLists_reads shl32 lists 0 (f.valid lists hsome)
        rwa [hcount] at hread
  · cases hsome : f.seq_scaling_lists with
    | none => rfl
    | some lists =>
        rw [hsome] at hflag
        exact absurd (show (1 : UInt32) ≠ 0 by decide) hflag

/-! ## The picture order count -/

theorem readOffsets_reads (offsets : List Se) : BsReads (readOffsets shl32 offsets.length)
    (offsets.flatMap fun offset => signedCode offset.val) () := by
  induction offsets with
  | nil => exact reads_pure ()
  | cons offset offsets ih =>
      rw [List.length_cons, readOffsets, List.flatMap_cons]
      exact (bsReadSe_reads (number_lt offset)).bind ih

theorem Poc.type_le (poc : Poc) : poc.type ≤ 2 := by
  cases poc with
  | zero => exact Nat.zero_le 2
  | one => exact Nat.le_succ 1
  | two => exact Nat.le_refl 2

theorem readPoc_reads (poc : Poc) : BsReads (readPoc shl32 poc.type) poc.bits true := by
  cases poc with
  | zero lsb =>
      show BsReads (readPoc shl32 0) (code lsb) true
      rw [readPoc, if_pos rfl]
      exact (bsReadUe_reads (ue_lt lsb)).then (reads_pure true)
  | one flag nonRef topBottom offsets hle =>
      show BsReads (readPoc shl32 1) _ true
      rw [readPoc, if_neg (by decide), if_pos rfl, Poc.bits]
      refine (bsRead_flag flag).bind ((bsReadSe_reads (number_lt nonRef)).bind
        ((bsReadSe_reads (number_lt topBottom)).bind
          ((bsReadUe_reads (k := offsets.length) (by omega)).bind ?_)))
      have hcycle : (if 256 < toInt (.ofNat offsets.length) then (256 : Int)
          else toInt (.ofNat offsets.length)).toNat = offsets.length := by
        rw [toInt_ofNat (by omega), if_neg (by omega)]
        rfl
      rw [hcycle]
      exact (readOffsets_reads offsets).then (reads_pure true)
  | two => exact reads_pure true

/-! ## The size -/

theorem wrapInt_eq (x : Int) : ∃ c : Int, wrapInt x = x - 2 ^ 32 * c :=
  ⟨_, Int.bmod_eq_self_sub_mul_bdiv x _⟩

theorem toInt_wrap (k : Nat) : ∃ c : Int, toInt (.ofNat k) = k - 2 ^ 32 * c := by
  have hbmod := BitVec.toInt_ofNat' (n := 32) k
  exact ⟨_, hbmod.trans (Int.bmod_eq_self_sub_mul_bdiv k _)⟩

theorem toNat_ofInt (z : Int) : (UInt32.ofInt z).toNat = (z % 2 ^ 32).toNat :=
  UInt32.toNat_ofNat_of_lt' (show (z % 2 ^ 32).toNat < 2 ^ 32 by omega)

/-- A number of macroblocks, as a number of pixels. -/
def pixels (k : Nat) : UInt32 := .ofInt (wrapInt (toInt (.ofNat k) + 1) * 16)

theorem pixels_toNat {k : Nat} (hfits : 16 * (k + 1) < 2 ^ 32) :
    (pixels k).toNat = 16 * (k + 1) := by
  obtain ⟨c, hc⟩ := toInt_wrap k
  obtain ⟨d, hd⟩ := wrapInt_eq (toInt (.ofNat k) + 1)
  rw [pixels, toNat_ofInt, hd, hc]
  omega

theorem readSize_reads (d : SpsData) (id : Int) : BsReads (readSize shl32 id) d.sizeBits
    ⟨id, some (pixels d.pic_width_in_mbs_minus1, pixels d.pic_height_in_map_units_minus1)⟩ := by
  rw [readSize, SpsData.sizeBits]
  exact (bsReadUe_reads (ue_lt _)).bind ((bsRead_flag _).bind
    ((bsReadUe_reads (ue_lt _)).bind ((bsReadUe_reads (ue_lt _)).then (reads_pure _))))

/-! ## From the profile on -/

/-- The profiles that are read as the standard has them. -/
def SpsData.Known (d : SpsData) : Prop :=
  if d.high.isSome then d.profile_idc ∈ [(100 : UInt8), 110, 122] else d.profile_idc ≠ 144

theorem profile_eq_iff {x c : UInt8} : x.toUInt32 = c.toUInt32 ↔ x = c :=
  ⟨fun h => UInt8.toNat_inj.1 (by
    have hnat := congrArg UInt32.toNat h
    rwa [UInt8.toNat_toUInt32, UInt8.toNat_toUInt32] at hnat), fun h => h ▸ rfl⟩

theorem known_iff {d : SpsData} (hknown : d.Known) :
    (d.profile_idc.toUInt32 = 100 ∨ d.profile_idc.toUInt32 = 110 ∨
      d.profile_idc.toUInt32 = 122 ∨ d.profile_idc.toUInt32 = 144) ↔ d.high.isSome := by
  rw [show (100 : UInt32) = UInt8.toUInt32 100 from rfl,
    show (110 : UInt32) = UInt8.toUInt32 110 from rfl,
    show (122 : UInt32) = UInt8.toUInt32 122 from rfl,
    show (144 : UInt32) = UInt8.toUInt32 144 from rfl, profile_eq_iff, profile_eq_iff,
    profile_eq_iff, profile_eq_iff]
  have hiff := d.high_iff
  rw [SpsData.Known] at hknown
  split at hknown
  · rename_i hsome
    simp only [List.mem_cons, List.not_mem_nil, or_false] at hknown
    exact ⟨fun _ => hsome, fun _ => by tauto⟩
  · rename_i hnone
    refine ⟨fun h => ?_, fun h => absurd h hnone⟩
    refine hiff.2 ?_
    obtain h | h | h | h := h
    · rw [h]; decide
    · rw [h]; decide
    · rw [h]; decide
    · exact absurd h hknown

/-- Three flags of the constraints are read, and the five bits behind them skipped. -/
theorem flags_reads {α : Type} (x : UInt8) {m : StateM Bs α} {bs : List Bool} {v : α}
    (hm : BsReads m bs v) :
    BsReads (do
      let _constraint_set0 ← bsRead 1
      let _constraint_set1 ← bsRead 1
      let _constraint_set2 ← bsRead 1
      bsSkip 5
      m) (Byte.bits x ++ bs) v := by
  have hbits : Byte.bits x ++ bs = [Byte.bit x 7] ++ ([Byte.bit x 6] ++ ([Byte.bit x 5] ++
      ([Byte.bit x 4, Byte.bit x 3, Byte.bit x 2, Byte.bit x 1, Byte.bit x 0] ++ bs))) := rfl
  rw [hbits]
  exact (bsRead_flag _).bind ((bsRead_flag _).bind ((bsRead_flag _).bind
    (bsSkip_reads.bind hm)))

/-- What is returned of the data. -/
def SpsData.result (d : SpsData) : SpsResult :=
  ⟨d.seq_parameter_set_id.val,
    some (pixels d.pic_width_in_mbs_minus1, pixels d.pic_height_in_map_units_minus1)⟩

theorem readFields_reads {d : SpsData} (hknown : d.Known)
    (hlists : ∀ f, d.high = some f → f.chroma_format_idc.val = 3 → f.seq_scaling_lists = none) :
    BsReads (readFields shl32) d.bits d.result := by
  have hid : toInt (.ofNat d.seq_parameter_set_id.val) = d.seq_parameter_set_id.val :=
    toInt_ofNat (by omega)
  have hpoc : toInt (.ofNat d.poc.type) = d.poc.type :=
    toInt_ofNat (Nat.lt_of_le_of_lt d.poc.type_le (by decide))
  rw [readFields, SpsData.bits]
  refine (bsRead_byte _).bind (flags_reads _ ((bsRead_byte _).bind
    ((bsReadUe_reads (k := d.seq_parameter_set_id.val) (by omega)).bind ?_)))
  refine (readIf_reads (fun hhigh => ?_) fun hlow => ?_).bind ?_
  · obtain ⟨f, hf⟩ := Option.isSome_iff_exists.1 ((known_iff hknown).1 hhigh)
    rw [hf]
    exact readHigh_reads f (hlists f hf)
  · rw [Option.not_isSome_iff_eq_none.1 fun h => hlow ((known_iff hknown).2 h)]
    rfl
  refine (bsReadUe_reads (ue_lt _)).bind
    ((bsReadUe_reads (Nat.lt_of_le_of_lt d.poc.type_le (by decide))).bind ?_)
  rw [hid, hpoc]
  exact (readPoc_reads d.poc).bind (readSize_reads d _)

end Nvr.RtspClient
