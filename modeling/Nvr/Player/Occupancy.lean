import Nvr.Player.Decode

/-!
# The frames in a decoder

`put_decoder_num` of `decode.c`, which the decode thread counts up in front of each frame that
it hands to the decoder and the copy thread counts down when it has released a picture. A
step is what one of the two threads does under the lock, or between two such parts.

What the decoder does is the input of a step. It makes one picture of each frame it has taken
and not failed with, and not before it has returned from it; a picture is the decoder's that
it was made by, and pictures that nobody has fetched are gone with it. Where there is no
decoder its pointer would be followed, and there is no step. The thread is set to work again
when it has come to a standby, which is not a step of its own.
-/

namespace Nvr.Player

/-- `DECODE_MAX_STORAGE_FRAME_NUM`. -/
def decodeMaxStorageFrameNum : UInt8 := 7

/-- Where the decode thread is: in front of the next frame; in the loop of
`decode_lib_abnormal_conf`; in front of, inside the wait of, and behind
`decode_thr_check_put_deocder_num`; and in `decode`. -/
inductive DecodePhase
  | idle
  | abnormal (cfg : Bool) (cnt : Nat)
  | checking
  | waiting (signalled : Bool)
  | entered
  | decoding
  deriving DecidableEq

/-- The threads of one channel. `inside` frames have been taken by the decoder and are neither
failed nor fetched, and `picture` is the one that the copy thread has, by its decoder. -/
structure Occupancy where
  phase : DecodePhase
  put_decoder_num : UInt8
  cur_out_res : UInt32
  old_out_res : UInt32
  dec_num : UInt64
  decoder : Option Nat
  decoders : Nat
  inside : Nat
  picture : Option Nat
  deriving DecidableEq

/-- `decode_parameter_init`. -/
def Occupancy.init : Occupancy where
  phase := .idle
  put_decoder_num := 0
  cur_out_res := 360
  old_out_res := 0
  dec_num := 0
  decoder := none
  decoders := 0
  inside := 0
  picture := none

/-- What one of the threads does: the decode thread takes a frame, of a type and at a
resolution, looks at `put_decoder_num` in its loop, with what `decode_thr_decoder_init` would
return, counts the frame, is woken, asks for a buffer and decodes; the copy thread fetches a
picture and releases it. -/
inductive OccupancyStep
  | frame (frame_type : UInt8) (out_res : UInt32)
  | poll (decoderInit : Bool)
  | check
  | wake
  | requestWrite (ok : Bool)
  | decode (status : Int32)
  | displayRequest
  | release
  deriving DecidableEq

namespace Occupancy

variable (s : Occupancy)

/-- `decode_thr_check_put_deocder_num`, up to the wait. -/
def checkPutDecoderNum : Occupancy :=
  { s with
    put_decoder_num := s.put_decoder_num + 1
    phase :=
      if decodeMaxStorageFrameNum < s.put_decoder_num + 1 then .waiting false else .entered }

/-- `pthread_cond_signal`. -/
def signal : Occupancy :=
  match s.phase with
  | .waiting _ => { s with phase := .waiting true }
  | _ => s

/-- `decode_thr_releas_decoder_num`. -/
def releasDecoderNum : Occupancy := { s with put_decoder_num := s.put_decoder_num - 1 }.signal

/-- `decode_res_check`, behind the loop: the old decoder is gone, and there may be a new one. -/
def recreate (decoderInit : Bool) : Occupancy :=
  if decoderInit then
    { s with
      decoder := some s.decoders
      decoders := s.decoders + 1
      inside := 0
      old_out_res := s.cur_out_res
      dec_num := 0
      put_decoder_num := 0
      phase := .checking }
  else { s with decoder := none, inside := 0, phase := .idle }

/-- A step, if the thread is where it can be taken. -/
def step : OccupancyStep → Option Occupancy
  | .frame frame_type out_res =>
      if s.phase = .idle then
        if frame_type = avVideoFrameI ∧ out_res ≠ s.old_out_res then
          some { s with cur_out_res := out_res, phase := .abnormal false 0 }
        else if s.decoder.isSome then some { s with cur_out_res := out_res, phase := .checking }
        else none
      else none
  | .poll decoderInit =>
      match s.phase with
      | .abnormal cfg cnt =>
          if s.put_decoder_num ≤ 3 ∨ 1000 ≤ cnt then
            if cfg then some { s with old_out_res := 0, phase := .idle }
            else some (s.recreate decoderInit)
          else some { s with phase := .abnormal cfg (cnt + 1) }
      | _ => none
  | .check => if s.phase = .checking then some s.checkPutDecoderNum else none
  | .wake =>
      match s.phase with
      | .waiting _ => some { s with phase := .entered }
      | _ => none
  | .requestWrite ok =>
      if s.phase = .entered ∧ s.decoder.isSome then
        if ok then some { s with inside := s.inside + 1, phase := .decoding }
        else some { s with phase := .idle }
      else none
  | .decode status =>
      if s.phase = .decoding then
        let s := { s with dec_num := s.dec_num + 1 }
        if DecodeCtl.DecodeFails s.dec_num status then
          some { { s with inside := s.inside - 1 }.releasDecoderNum with phase := .abnormal true 0 }
        else some { s with phase := .idle }
      else none
  | .displayRequest =>
      if s.decoder.isSome ∧ s.picture = none ∧
          (if s.phase = .decoding then 1 else 0) < s.inside then
        some { s with inside := s.inside - 1, picture := s.decoder }
      else none
  | .release =>
      if s.decoder.isSome ∧ s.picture.isSome then
        some { s.releasDecoderNum with picture := none }
      else none

/-- The steps of a run, one after the other. -/
def run (s : Occupancy) (steps : List OccupancyStep) : Option Occupancy := steps.foldlM step s

end Occupancy

end Nvr.Player
