import Mathlib.Algebra.Group.Int.Defs
import Mathlib.Algebra.Group.Nat.Defs
import Mathlib.Data.List.Basic

/-!
# The decode thread

`decode.c`, what one decode thread does with its frames: which ones it drops because it is
late, and what it counts for that. The clock, the state of the buffers and what the decoder
returns are the input of a step.

The number of frames in the decoder is another thread's business as well and not looked at
here; nor are the heads that are passed on with the pictures, and the messages that are only
passed on.
-/

namespace Nvr.Player

/-- `DEC_THR_STA_..`. -/
inductive DecThrSta
  | workOn
  | standby
  deriving DecidableEq

/-- `GET_STREAM_..`, as `record_en` has it. -/
inductive GetStream
  | fromNet
  | fromDisk
  deriving DecidableEq

/-- `AV_VIDEO_FRAME_I`. -/
def avVideoFrameI : UInt8 := 0x7

/-- `FRAME_NUM`. -/
def frameNum : UInt8 := 40

/-- `DECODE_BUF_CLR_TIME`. -/
def decodeBufClrTime : UInt32 := 2000

/-- `DECODE_IPC_CHANGE`. -/
def decodeIpcChange : UInt64 := 1500000

/-- `decode_ctl`, and `real_frame_rate` of its `pic_infor`. -/
structure DecodeCtl where
  cur_frame_stamp : UInt64
  pre_frame_stamp : UInt64
  dec_num : UInt64
  discard_frame_num : UInt32
  cur_dec_time : UInt32
  pre_dec_time : UInt32
  delay_time : UInt32
  all_time : UInt32
  cur_out_res : UInt32
  old_out_res : UInt32
  average_timestamp : UInt32
  dec_frame_no : UInt32
  num : UInt8
  dec_thr_sta : DecThrSta
  record_en : GetStream
  real_frame_rate : UInt16

/-- `decode_parameter_init`, over what was on the stack. -/
def decodeParameterInit (average_timestamp dec_frame_no : UInt32) : DecodeCtl where
  cur_frame_stamp := 0
  pre_frame_stamp := 0
  dec_num := 0
  discard_frame_num := 0
  cur_dec_time := 0
  pre_dec_time := 0
  delay_time := 0
  all_time := 0
  cur_out_res := 360
  old_out_res := 0
  average_timestamp := average_timestamp
  dec_frame_no := dec_frame_no
  num := 0
  dec_thr_sta := .standby
  record_en := .fromNet
  real_frame_rate := 25

/-- A frame in a buffer: `AV_FRAME_HEAD_S`, and `first_frame` of the `buf_head` behind it. -/
structure DecodeFrame where
  u8FrameType : UInt8
  u32FrameNo : UInt32
  u64TimeStamp : UInt64
  first_frame : Bool

/-- What the functions return that a frame is decoded with, in the order of their calls:
`player_get_full_buf`, the two `OSA_getRunTimeInMsec`, `decode_thr_decoder_init`,
`request_write`, `decode` and `player_put_empty_buf`. -/
structure DecodeIo where
  fullBuf : Bool
  curDecTime : UInt32
  preDecTime : UInt32
  decoderInit : Bool
  requestWrite : Bool
  decode : Int32
  emptyBuf : Bool

/-- What has been done with a frame: whether it was dropped, with which type and `first_frame`
it was handed to the decoder, whether the delay has raised `discard_frame_num`, and what
`decode_video_data_pro` has returned. -/
structure Turn where
  dropped : Bool
  handed : Option (UInt8 × Bool)
  raised : Bool
  ret : Int
  deriving DecidableEq

namespace DecodeCtl

variable (hdl : DecodeCtl)

/-- `decode_lib_abnormal_conf`, behind its loop. -/
def abnormalConf (cfg : Bool) : DecodeCtl :=
  if cfg then { hdl with discard_frame_num := 1, old_out_res := 0 } else hdl

/-- `decode_discard_frame_judge`, with whether the frame is dropped and its `first_frame`. -/
def discardFrameJudge (frame_type : UInt8) (frame_no : UInt32) (first_frame : Bool) :
    Bool × Bool × DecodeCtl :=
  if hdl.discard_frame_num = 0 then (false, first_frame, hdl)
  else
    let hdl := { hdl with discard_frame_num := hdl.discard_frame_num - 1 }
    if hdl.discard_frame_num = 0 ∨ hdl.dec_frame_no + hdl.discard_frame_num ≤ frame_no then
      if frame_type = avVideoFrameI then (false, true, hdl)
      else (true, first_frame, { hdl with discard_frame_num := 1 })
    else (true, first_frame, hdl)

/-- The branch of `decode_delay_count` that sets `discard_frame_num`. -/
def Clears (timestamp : UInt32) : Prop :=
  timestamp < hdl.cur_dec_time - hdl.pre_dec_time ∧
    decodeBufClrTime ≤ hdl.delay_time + (hdl.cur_dec_time - hdl.pre_dec_time - timestamp)

instance (timestamp : UInt32) : Decidable (hdl.Clears timestamp) :=
  inferInstanceAs (Decidable (_ ∧ _))

/-- `decode_delay_count`. -/
def delayCount (timestamp : UInt32) : DecodeCtl :=
  let passed := hdl.cur_dec_time - hdl.pre_dec_time
  if timestamp < passed then
    let delay_time := hdl.delay_time + (passed - timestamp)
    if decodeBufClrTime ≤ delay_time then
      let delay_time := if 5000 ≤ delay_time then 5000 else delay_time
      { hdl with
        discard_frame_num := delay_time / hdl.real_frame_rate.toUInt32
        delay_time := 0 }
    else { hdl with delay_time := delay_time }
  else if timestamp - passed ≤ hdl.delay_time then
    { hdl with delay_time := hdl.delay_time - (timestamp - passed) }
  else { hdl with delay_time := 0 }

/-- `(1000.0*FRAME_NUM)/all_time+0.5`, cut off. -/
def rateOf (all_time : UInt32) : UInt16 :=
  .ofNat ((2 * 40000 + all_time.toNat) / (2 * all_time.toNat))

/-- `decode_rate_count`. -/
def rateCount (timestamp : UInt32) : DecodeCtl :=
  let hdl := { hdl with num := hdl.num + 1, all_time := hdl.all_time + timestamp }
  if frameNum = hdl.num then
    let hdl :=
      if hdl.all_time ≠ 0 then
        let hdl := { hdl with real_frame_rate := rateOf hdl.all_time }
        if hdl.real_frame_rate ≠ 0 then
          { hdl with average_timestamp := 1000 / hdl.real_frame_rate.toUInt32 }
        else hdl
      else hdl
    { hdl with num := 0, all_time := 0 }
  else hdl

/-- `decode_check_continue`, with `first_frame`. -/
def checkContinue (first_frame : Bool) : Bool × DecodeCtl :=
  if hdl.pre_frame_stamp + decodeIpcChange ≤ hdl.cur_frame_stamp ∨
      hdl.cur_frame_stamp ≤ hdl.pre_frame_stamp ∨ first_frame then
    (true,
      { hdl with
        num := 0
        all_time := 0
        delay_time := 0
        cur_dec_time := 0
        pre_dec_time := 0 })
  else (first_frame, hdl)

/-- `decode_res_check`, with what it returns. -/
def resCheck (decoderInit : Bool) : Int × DecodeCtl :=
  if hdl.cur_out_res ≠ hdl.old_out_res then
    let hdl := hdl.abnormalConf false
    if decoderInit then
      (0, { hdl with old_out_res := hdl.cur_out_res, dec_num := 0, real_frame_rate := 25 })
    else (-1, hdl)
  else (0, hdl)

/-- What `decode` must not return to the `dec_num`th frame. -/
def DecodeFails (dec_num : UInt64) (status : Int32) : Prop :=
  (3 ≤ dec_num ∧ 1 ≠ status ∧ 3 ≠ status) ∨ (dec_num < 3 ∧ 0 ≠ status ∧ 5 ≠ status)

instance (dec_num : UInt64) (status : Int32) : Decidable (DecodeFails dec_num status) :=
  inferInstanceAs (Decidable (_ ∨ _))

/-- `decode_lib_decode`. -/
def libDecode (status : Int32) : Int × DecodeCtl :=
  let hdl := { hdl with dec_num := hdl.dec_num + 1 }
  (if DecodeFails hdl.dec_num status then -2 else 0, hdl)

/-- `decode_decode_pro`, with whether the frame is handed to the decoder. -/
def decodePro (frame_type : UInt8) (io : DecodeIo) : Bool × Int × DecodeCtl :=
  let checked := if frame_type = avVideoFrameI then hdl.resCheck io.decoderInit else (0, hdl)
  if checked.1 ≠ 0 then (false, -1, checked.2)
  else if ¬ io.requestWrite then (false, -1, checked.2)
  else (true, checked.2.libDecode io.decode)

/-- The frame's time, when it is decoded and by its stamp. -/
def arrive (frame : DecodeFrame) (io : DecodeIo) : DecodeCtl :=
  { hdl with cur_dec_time := io.curDecTime, cur_frame_stamp := frame.u64TimeStamp }

/-- `timestamp` in `decode_video_data_pro`. -/
def timestamp (first_frame : Bool) : UInt32 :=
  if first_frame then 40 else ((hdl.cur_frame_stamp - hdl.pre_frame_stamp) / 1000).toUInt32

/-- The delay, which is counted for what comes from the net. -/
def counted (timestamp : UInt32) : DecodeCtl :=
  if hdl.record_en = .fromNet then hdl.delayCount timestamp else hdl

/-- `decode_delay_count` sets `discard_frame_num`, and not to 0. -/
def raises (timestamp : UInt32) : Bool :=
  decide (hdl.record_en = .fromNet ∧ hdl.Clears timestamp ∧
    (hdl.delayCount timestamp).discard_frame_num ≠ 0)

/-- What is remembered of a frame. -/
def depart (frame : DecodeFrame) (io : DecodeIo) : DecodeCtl :=
  { hdl with
    dec_frame_no := frame.u32FrameNo
    pre_dec_time := io.preDecTime
    pre_frame_stamp := hdl.cur_frame_stamp }

/-- `decode_video_data_pro`, behind `decode_discard_frame_judge`. -/
def decodeFrame (frame : DecodeFrame) (first_frame : Bool) (io : DecodeIo) : Turn × DecodeCtl :=
  let continued := (hdl.arrive frame io).checkContinue first_frame
  let timestamp := continued.2.timestamp continued.1
  let rated := continued.2.rateCount timestamp
  let done := ((rated.counted timestamp).depart frame io).decodePro frame.u8FrameType io
  ({ dropped := false
     handed := if done.1 then some (frame.u8FrameType, continued.1) else none
     raised := rated.raises timestamp
     ret := if done.2.1 = 0 ∧ ¬ io.emptyBuf then -1 else done.2.1 }, done.2.2)

/-- `decode_video_data_pro`. -/
def videoDataPro (frame : DecodeFrame) (io : DecodeIo) : Turn × DecodeCtl :=
  if ¬ io.fullBuf then (⟨false, none, false, -1⟩, hdl)
  else
    let judged := hdl.discardFrameJudge frame.u8FrameType frame.u32FrameNo frame.first_frame
    if judged.1 then (⟨true, none, false, 0⟩, judged.2.2)
    else judged.2.2.decodeFrame frame judged.2.1 io

/-- What is left of `decode_thr_main` behind `decode_video_data_pro`. -/
def afterTurn (ret : Int) : DecodeCtl :=
  if ret = 0 then hdl
  else if ret = -2 then hdl.abnormalConf true
  else { hdl with dec_thr_sta := .standby }

/-- `DECODE_CMD_NEW_DATA` at work, if the data is not to be cleared. -/
def newData (cur_out_res : UInt32) (frame : DecodeFrame) (io : DecodeIo) : Turn × DecodeCtl :=
  let done := { hdl with cur_out_res := cur_out_res }.videoDataPro frame io
  (done.1, done.2.afterTurn done.1.ret)

/-- `DECODE_CMD_NEW_DATA` at work, if it is: a buffer goes back unread. -/
def clearData (moved : Bool) : Turn × DecodeCtl :=
  (⟨false, none, false, 0⟩, if moved then hdl else { hdl with dec_thr_sta := .standby })

end DecodeCtl

/-- The messages to the thread that change what it keeps. -/
inductive DecodeCmd
  | newData (cur_out_res : UInt32) (frame : DecodeFrame) (io : DecodeIo)
  | clearData (moved : Bool)
  | standby
  | workOnAlready (record : GetStream)

/-- `decode_thr_main`, for one message. -/
def DecodeCtl.main (hdl : DecodeCtl) : DecodeCmd → Option Turn × DecodeCtl
  | .newData cur_out_res frame io =>
      if hdl.dec_thr_sta = .workOn then
        (some (hdl.newData cur_out_res frame io).1, (hdl.newData cur_out_res frame io).2)
      else (none, hdl)
  | .clearData moved =>
      if hdl.dec_thr_sta = .workOn then
        (some (hdl.clearData moved).1, (hdl.clearData moved).2)
      else (none, hdl)
  | .standby =>
      (none, { hdl with dec_thr_sta := .standby, discard_frame_num := 0, real_frame_rate := 25 })
  | .workOnAlready record =>
      if hdl.dec_thr_sta = .standby then
        (none, { hdl with record_en := record, dec_thr_sta := .workOn })
      else (none, hdl)

end Nvr.Player
