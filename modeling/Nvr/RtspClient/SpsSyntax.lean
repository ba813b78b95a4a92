import Nvr.Lib.EmulationPrevention
import Nvr.Lib.ExpGolomb

/-!
# Sequence parameter sets

The syntax of a sequence parameter set, from the profile to the picture size, as the
standard has it: the fields, the bits that they are written as, and the NAL unit that has
these bits at its beginning. What stands behind the picture size is not looked at here.
-/

namespace Nvr.RtspClient

/-- The values of `ue(v)`. -/
abbrev Ue := Fin (2 ^ 32 - 1)

/-- The values of `se(v)`. -/
abbrev Se := {x : Int // -2 ^ 31 < x ∧ x < 2 ^ 31}

/-- The number behind `last` in a scaling list. -/
def scaleBehind (last delta : Int) : Int := (last + delta + 256) % 256

/-- The increments of a scaling list: one for each number, as long as the next number is
not 0. -/
def ScalingDeltas : Nat → Int → Int → List Int → Prop
  | 0, _, _, deltas => deltas = []
  | left + 1, last, next, deltas =>
      if next = 0 then ScalingDeltas left last 0 deltas
      else
        match deltas with
        | [] => False
        | delta :: deltas =>
            -128 ≤ delta ∧ delta ≤ 127 ∧
              ScalingDeltas left
                (if scaleBehind last delta = 0 then last else scaleBehind last delta)
                (scaleBehind last delta) deltas

/-- Scaling lists from index `i` on: six of 16 numbers, and then of 64. -/
def ScalingValid : Nat → List (Option (List Int)) → Prop
  | _, [] => True
  | i, list :: lists =>
      (∀ deltas, list = some deltas → ScalingDeltas (if i < 6 then 16 else 64) 8 8 deltas) ∧
        ScalingValid (i + 1) lists

def scalingBits : Option (List Int) → List Bool
  | none => [false]
  | some deltas => true :: deltas.flatMap ExpGolomb.signedCode

/-- What the high profiles have. -/
structure HighFields where
  chroma_format_idc : Ue
  separate_colour_plane_flag : Bool
  bit_depth_luma_minus8 : Ue
  bit_depth_chroma_minus8 : Ue
  qpprime_y_zero_transform_bypass_flag : Bool
  seq_scaling_lists : Option (List (Option (List Int)))
  count : ∀ lists, seq_scaling_lists = some lists →
    lists.length = if chroma_format_idc.val = 3 then 12 else 8
  valid : ∀ lists, seq_scaling_lists = some lists → ScalingValid 0 lists

def HighFields.bits (h : HighFields) : List Bool :=
  ExpGolomb.code h.chroma_format_idc ++
    ((if h.chroma_format_idc.val = 3 then [h.separate_colour_plane_flag] else []) ++
      (ExpGolomb.code h.bit_depth_luma_minus8 ++ (ExpGolomb.code h.bit_depth_chroma_minus8 ++
        ([h.qpprime_y_zero_transform_bypass_flag] ++ ([h.seq_scaling_lists.isSome] ++
          (h.seq_scaling_lists.getD []).flatMap scalingBits)))))

/-- The picture order count, by its type. -/
inductive Poc where
  | zero (log2_max_pic_order_cnt_lsb_minus4 : Ue)
  | one (delta_pic_order_always_zero_flag : Bool) (offset_for_non_ref_pic : Se)
      (offset_for_top_to_bottom_field : Se) (offset_for_ref_frame : List Se)
      (length_le : offset_for_ref_frame.length ≤ 255)
  | two

def Poc.type : Poc → Nat
  | .zero _ => 0
  | .one .. => 1
  | .two => 2

def Poc.bits : Poc → List Bool
  | .zero lsb => ExpGolomb.code lsb
  | .one flag nonRef topBottom offsets _ =>
      [flag] ++ (ExpGolomb.signedCode nonRef ++ (ExpGolomb.signedCode topBottom ++
        (ExpGolomb.code offsets.length ++
          offsets.flatMap fun offset => ExpGolomb.signedCode offset.val)))
  | .two => []

/-- The profiles that have the fields of the high ones. -/
def highProfiles : List UInt8 := [100, 110, 122, 244, 44, 83, 86, 118, 128, 138, 139, 134, 135]

structure SpsData where
  profile_idc : UInt8
  constraint_set_flags : UInt8
  level_idc : UInt8
  seq_parameter_set_id : Fin 32
  high : Option HighFields
  high_iff : high.isSome ↔ profile_idc ∈ highProfiles
  log2_max_frame_num_minus4 : Ue
  poc : Poc
  max_num_ref_frames : Ue
  gaps_in_frame_num_value_allowed_flag : Bool
  pic_width_in_mbs_minus1 : Ue
  pic_height_in_map_units_minus1 : Ue

/-- The bits in front of the size. -/
def SpsData.sizeBits (d : SpsData) : List Bool :=
  ExpGolomb.code d.max_num_ref_frames ++ ([d.gaps_in_frame_num_value_allowed_flag] ++
    (ExpGolomb.code d.pic_width_in_mbs_minus1 ++ ExpGolomb.code d.pic_height_in_map_units_minus1))

def SpsData.bits (d : SpsData) : List Bool :=
  Byte.bits d.profile_idc ++ (Byte.bits d.constraint_set_flags ++ (Byte.bits d.level_idc ++
    (ExpGolomb.code d.seq_parameter_set_id ++ ((d.high.map HighFields.bits).getD [] ++
      (ExpGolomb.code d.log2_max_frame_num_minus4 ++ (ExpGolomb.code d.poc.type ++
        (d.poc.bits ++ d.sizeBits)))))))

/-- A NAL unit with a sequence parameter set, whose reference number is not 0, with or
without a start code. -/
structure SpsNal where
  data : SpsData
  header : UInt8
  header_mem : header ∈ [(0x27 : UInt8), 0x47, 0x67]
  rbsp : List UInt8
  begins : data.bits <+: BitString.ofBytes rbsp
  start : Bool

def SpsNal.bytes (n : SpsNal) : List UInt8 :=
  (if n.start then [0x00, 0x00, 0x00, 0x01] else []) ++
    n.header :: EmulationPrevention.encode 0 n.rbsp

end Nvr.RtspClient
