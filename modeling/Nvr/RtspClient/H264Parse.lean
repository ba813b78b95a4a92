import Nvr.Lib.EmulationPrevention
import Nvr.Lib.ExpGolomb

/-!
# The resolution of a sequence parameter set

`sps_parse` of `h264_parse.cpp`. The reader is the state, and keeps besides its members
where it has read. A byte behind the end, which a comparison with `p_end` does not keep
from being read, is 0 here. An `int` is the integer that it is; `1 << 32`, which C leaves
open, is `shl32`.
-/

namespace Nvr.RtspClient

/-- `bs_t`, with pointers as positions in the bytes, and the positions read. -/
structure Bs where
  bytes : List UInt8
  p : Nat
  i_left : Int
  reads : List Nat

def Bs.p_end (s : Bs) : Nat := s.bytes.length

/-- `p[k]`, with the position noted. -/
def bsByte (p : Nat) : StateM Bs UInt8 := fun s =>
  (s.bytes.getD p 0, { s with reads := s.reads ++ [p] })

/-- `*p` is read, and `i_left` bits of it are left. -/
def Bs.leave (s : Bs) (i_left : Int) : Bs :=
  if i_left = 0 then { s with p := s.p + 1, i_left := 8, reads := s.reads ++ [s.p] }
  else { s with i_left := i_left, reads := s.reads ++ [s.p] }

def toInt (x : UInt32) : Int := x.toInt32.toInt

/-- An operation on `int`, wrapped. -/
def wrapInt (x : Int) : Int := x.bmod (2 ^ 32)

/-- `i_mask`. -/
def iMask (n : Nat) : UInt32 := .ofNat (2 ^ n - 1)

/-- The loop of `_bs_read`. A round reads a bit at least. -/
def bsReadLoop : Nat → Int → UInt32 → StateM Bs UInt32
  | 0, _, i_result => pure i_result
  | rounds + 1, i_count, i_result => fun s =>
      if i_count ≤ 0 then (i_result, s)
      else if s.p_end ≤ s.p then (i_result, s)
      else
        let byte := (s.bytes.getD s.p 0).toUInt32
        let i_shr := s.i_left - i_count
        if 0 ≤ i_shr then
          (i_result ||| ((byte >>> .ofNat i_shr.toNat) &&& iMask i_count.toNat), s.leave i_shr)
        else
          bsReadLoop rounds (i_count - s.i_left)
            (i_result ||| ((byte &&& iMask s.i_left.toNat) <<< .ofNat (-i_shr).toNat)) (s.leave 0)

/-- `_bs_read`. -/
def bsRead (i_count : Nat) : StateM Bs UInt32 := bsReadLoop i_count i_count 0

/-- `_bs_read1`. -/
def bsRead1 : StateM Bs UInt32 := fun s =>
  if s.p < s.p_end then
    let byte := (s.bytes.getD s.p 0).toUInt32
    let i_left := s.i_left - 1
    ((byte >>> .ofNat i_left.toNat) &&& 1, s.leave i_left)
  else (0, s)

/-- The loop of `_bs_skip`, which goes on as long as there is no bit left. -/
def bsSkipLoop : Nat → Bs → Bs
  | 0, s => s
  | rounds + 1, s =>
      if s.i_left ≤ 0 then bsSkipLoop rounds { s with p := s.p + 1, i_left := s.i_left + 8 }
      else s

/-- `_bs_skip`. -/
def bsSkip (i_count : Nat) : StateM Bs Unit :=
  modify fun s => bsSkipLoop (i_count + 1) { s with i_left := s.i_left - i_count }

/-- The loop of `_bs_read_ue`, with the zeros that may still follow. -/
def ueLoop : Nat → Nat → StateM Bs Nat
  | 0, i => do
      let _ ← bsRead1
      pure i
  | left + 1, i => do
      let bit ← bsRead1
      let s ← get
      if bit = 0 ∧ s.p < s.p_end then ueLoop left (i + 1) else pure i

def readIf (c : Prop) [Decidable c] (m : StateM Bs Unit) : StateM Bs Unit :=
  if c then m else pure ()

section

variable (shl32 : UInt32)

/-- `1 << i`. -/
def shlOne (i : Nat) : UInt32 := if i < 32 then (1 : UInt32) <<< UInt32.ofNat i else shl32

/-- `_bs_read_ue`. -/
def bsReadUe : StateM Bs Int := do
  let i ← ueLoop 32 0
  let bits ← bsRead i
  pure (toInt (shlOne shl32 i - 1 + bits))

/-- `_bs_read_se`. -/
def bsReadSe : StateM Bs Int := do
  let val ← bsReadUe shl32
  pure (if val % 2 = 1 then (wrapInt (val + 1)).tdiv 2 else -(val.tdiv 2))

/-- The next number of a scaling list. -/
def nextScale (lastScale nextScale : Int) : StateM Bs Int :=
  if nextScale ≠ 0 then do
    let delta_scale ← bsReadSe shl32
    pure ((wrapInt (lastScale + delta_scale + 256)).tmod 256)
  else pure nextScale

/-- The rest of the loop of `_scaling_list`. -/
def scalingLoop : Nat → Int → Int → StateM Bs Unit
  | 0, _, _ => pure ()
  | left + 1, lastScale, next => do
      let next ← nextScale shl32 lastScale next
      scalingLoop left (if next = 0 then lastScale else next) next

/-- `_scaling_list`. -/
def scalingList (sizeOfScalingList : Nat) : StateM Bs Unit :=
  scalingLoop shl32 sizeOfScalingList 8 8

/-- The loop over `seq_scaling_list_present_flag`, from index `i` on. -/
def scalingLists : Nat → Nat → StateM Bs Unit
  | 0, _ => pure ()
  | left + 1, i => do
      let flag ← bsRead 1
      readIf (flag ≠ 0) (scalingList shl32 (if i < 6 then 16 else 64))
      scalingLists left (i + 1)

/-- What the profiles have that are compared with. -/
def readHigh : StateM Bs Unit := do
  let chroma_format_idc ← bsReadUe shl32
  readIf (chroma_format_idc = 3) do
    let _residual_colour_transform_flag ← bsRead 1
    pure ()
  let _bit_depth_luma_minus8 ← bsReadUe shl32
  let _bit_depth_chroma_minus8 ← bsReadUe shl32
  let _qpprime_y_zero_transform_bypass_flag ← bsRead 1
  let seq_scaling_matrix_present_flag ← bsRead 1
  readIf (seq_scaling_matrix_present_flag ≠ 0) (scalingLists shl32 8 0)

/-- As many offsets. -/
def readOffsets : Nat → StateM Bs Unit
  | 0 => pure ()
  | left + 1 => do
      let _offset_for_ref_frame ← bsReadSe shl32
      readOffsets left

/-- What depends on `i_poc_type`, and whether it is one of the types. -/
def readPoc (i_poc_type : Int) : StateM Bs Bool :=
  if i_poc_type = 0 then do
    let _log2_max_poc_lsb ← bsReadUe shl32
    pure true
  else if i_poc_type = 1 then do
    let _delta_pic_order_always_zero ← bsRead 1
    let _offset_for_non_ref_pic ← bsReadSe shl32
    let _offset_for_top_to_bottom_field ← bsReadSe shl32
    let cycle ← bsReadUe shl32
    readOffsets shl32 (if 256 < cycle then 256 else cycle).toNat
    pure true
  else pure (decide (i_poc_type ≤ 2))

/-- What `_read_sps` returns, and the size if it is written. -/
structure SpsResult where
  ret : Int
  size : Option (UInt32 × UInt32)
  deriving DecidableEq

/-- `_read_sps`, behind the picture order count. -/
def readSize (id : Int) : StateM Bs SpsResult := do
  let _num_ref_frames ← bsReadUe shl32
  let _gaps_in_frame_num_value_allowed ← bsRead 1
  let i_mb_width ← bsReadUe shl32
  let i_mb_height ← bsReadUe shl32
  pure ⟨id, some (.ofInt (wrapInt (i_mb_width + 1) * 16),
    .ofInt (wrapInt (i_mb_height + 1) * 16))⟩

/-- `_read_sps`, from the profile on. -/
def readFields : StateM Bs SpsResult := do
  let i_profile_idc ← bsRead 8
  let _constraint_set0 ← bsRead 1
  let _constraint_set1 ← bsRead 1
  let _constraint_set2 ← bsRead 1
  bsSkip 5
  let _level_idc ← bsRead 8
  let id ← bsReadUe shl32
  readIf (i_profile_idc = 100 ∨ i_profile_idc = 110 ∨ i_profile_idc = 122 ∨ i_profile_idc = 144)
    (readHigh shl32)
  let _log2_max_frame_num ← bsReadUe shl32
  let i_poc_type ← bsReadUe shl32
  let known ← readPoc shl32 i_poc_type
  if known then readSize shl32 id else pure ⟨-1, none⟩

/-- The comparison with a start code from byte `k` on, which stops at the first byte that
differs. -/
def startsWith : Nat → List UInt8 → StateM Bs Bool
  | _, [] => pure true
  | k, code :: codes => do
      let b ← bsByte k
      if b = code then startsWith (k + 1) codes else pure false

/-- The comparison with the type of the NAL unit, `_read_sps` from there on. -/
def readUnit (header : Nat) : StateM Bs SpsResult := do
  let b ← bsByte header
  if b &&& 0x0f ≠ 0x07 then pure ⟨-2, none⟩ else readFields shl32

def Bs.skip (n : Nat) : StateM Bs Unit := fun s => ((), { s with p := s.p + n })

/-- `_read_sps`. -/
def readSps : StateM Bs SpsResult := do
  let start ← startsWith 0 [0x00, 0x00, 0x00, 0x01]
  if start then do
    Bs.skip 5
    readUnit shl32 4
  else do
    let b0 ← bsByte 0
    let b1 ← bsByte 1
    if (b0.toNat <<< 8 ||| b1.toNat) ≤ 3 then pure ⟨-1, none⟩
    else do
      Bs.skip 1
      readUnit shl32 0

/-- `sps_parse`, with the positions that have been read. -/
def spsParse (sps : List UInt8) : SpsResult × List Nat :=
  let r := readSps shl32 ⟨sps, 0, 8, []⟩
  (r.1, r.2.reads)

end

end Nvr.RtspClient
