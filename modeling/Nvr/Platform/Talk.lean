import Nvr.Lib.Buffer
import Nvr.Server.LibCommon

/-!
# The intercom connection

`nvr_jxj_talk_client_recv_func` and the two functions of `nvr_talk_jxj.c` that receive and send
a packet, on a connection whose request has been answered and which has a writer to the pool.
What the buffer on the stack holds at first, and what the socket does, come with the call.
-/

namespace Nvr.Platform

open WordRecord Client

/-- `J_TALK_MAGIC`. -/
def jTalkMagic : UInt32 := 0x33222233

/-- `sizeof(J_TALK_FRMAE_HDR)`. -/
def talkHdrLen : Nat := 16

/-- `AV_FRAME_HEAD_LEN`. -/
def avFrameHeadLen : Nat := 32

/-- The size of `buff`. -/
def talkBuffLen : Nat := 1024

/-- `J_TALK_FRMAE_HDR`. -/
structure TalkHdr where
  u32Magic : UInt32
  u32FrameNo : UInt32
  u32Pts : UInt32
  u32Len : UInt32
  deriving DecidableEq

def TalkHdr.bytes (hdr : TalkHdr) : List UInt8 :=
  wordBytes hdr.u32Magic ++ wordBytes hdr.u32FrameNo ++ wordBytes hdr.u32Pts ++
    wordBytes hdr.u32Len

def TalkHdr.ofBytes (buf : List UInt8) : TalkHdr where
  u32Magic := wordIn buf 0
  u32FrameNo := wordIn buf 4
  u32Pts := wordIn buf 8
  u32Len := wordIn buf 12

/-! ## Receiving -/

/-- What `nvr_jxj_talk_recv_data` has received: the bytes of its two receives, the buffer, and
what is left on the connection. -/
structure TalkRecv where
  head : List UInt8
  data : List UInt8
  buff : List UInt8
  coming : List UInt8
  events : List RecvEvent
  deriving DecidableEq

/-- The second half of `nvr_jxj_talk_recv_data`, with the header in the buffer. -/
def talkRecvPayload (head pBuf coming : List UInt8) (events : List RecvEvent) :
    Option (Option TalkRecv) :=
  (netTcpNoblockRecv (Int32.ofNat (talkBuffLen - talkHdrLen))
      (TalkHdr.ofBytes pBuf).u32Len.toInt32 coming events).map fun r =>
    match r.ret with
    | none => none
    | some [] => none
    | some data => some ⟨head, data, Buffer.put pBuf talkHdrLen data, r.coming, r.events⟩

/-- `nvr_jxj_talk_recv_data`; `none` as the result of the call stands for -1. The `memset` is
given the size of an `int`. -/
def nvrJxjTalkRecvData (pBuf coming : List UInt8) (events : List RecvEvent) :
    Option (Option TalkRecv) :=
  let pBuf := Buffer.put pBuf 0 [0, 0, 0, 0]
  (netTcpNoblockRecv (Int32.ofNat talkBuffLen) (Int32.ofNat talkHdrLen) coming events).bind fun r =>
    match r.ret with
    | none => some none
    | some [] => some none
    | some head =>
        let pBuf := Buffer.put pBuf 0 head
        if (TalkHdr.ofBytes pBuf).u32Magic ≠ jTalkMagic then some none
        else talkRecvPayload head pBuf r.coming r.events

/-- What is given to `av_pool_write_frame`: the fields of the frame's header that come from the
packet, and the `u32Len` bytes behind `u8Data`, as far as all of them are in the buffer. -/
structure TalkFrame where
  u32FrameNo : UInt32
  u32Time : UInt32
  u32FrameSize : UInt32
  u64TimeStamp : UInt64
  data : Option (List UInt8)
  deriving DecidableEq

def talkFrame (buff : List UInt8) : TalkFrame :=
  let hdr := TalkHdr.ofBytes buff
  { u32FrameNo := hdr.u32FrameNo
    u32Time := hdr.u32Pts / 1000
    u32FrameSize := hdr.u32Len
    u64TimeStamp := (hdr.u32Pts * 1000).toUInt64
    data :=
      if talkHdrLen + hdr.u32Len.toNat ≤ talkBuffLen then
        some (Buffer.slice buff talkHdrLen hdr.u32Len.toNat)
      else none }

/-- A connection, with the bytes that are unread or still to come on it and the frames that
have been given to the pool. -/
structure TalkClient where
  connected : Bool
  coming : List UInt8
  frames : List TalkFrame
  deriving DecidableEq

/-- A call of `nvr_jxj_talk_client_recv_func`. -/
structure TalkCall where
  buff : List UInt8
  length_buff : buff.length = talkBuffLen
  events : List RecvEvent

/-- `nvr_jxj_talk_client_recv_func`. A connection is closed where it fails, and nothing is
called for it then. -/
def nvrJxjTalkClientRecvFunc (c : TalkClient) (call : TalkCall) : Option TalkClient :=
  if c.connected then
    (nvrJxjTalkRecvData call.buff c.coming call.events).map fun
      | none => { c with connected := false }
      | some r => { c with coming := r.coming, frames := c.frames ++ [talkFrame r.buff] }
  else none

/-! ## Sending -/

/-- What one `send` does: it takes some bytes, none for now, or it fails. -/
inductive SendEvent
  | sent (n : Nat)
  | again
  | failed
  deriving DecidableEq

/-- Whether a send has succeeded, and the bytes that have gone out. -/
structure Sent where
  ok : Bool
  bytes : List UInt8
  deriving DecidableEq

/-- `NET_DEFAULT_SEND_TIMEOUT`. -/
def netDefaultSendTimeout : Nat := 1000

/-- The loop of `net_tcp_noblock_send`, with the bytes that have gone out before. No value is
given where the events are not those of a call. -/
def sendLoop (out pbuf : List UInt8) (block : Nat) : List SendEvent → Option Sent
  | [] => if pbuf = [] then some ⟨true, out⟩ else none
  | e :: events =>
      if pbuf = [] then some ⟨true, out⟩
      else
        match e with
        | .failed => some ⟨false, out⟩
        | .again =>
            if block < netDefaultSendTimeout then sendLoop out pbuf (block + 1) events
            else some ⟨false, out⟩
        | .sent n =>
            if n = 0 ∨ pbuf.length < n then none
            else sendLoop (out ++ pbuf.take n) (pbuf.drop n) block events

/-- `net_tcp_noblock_send` of something. -/
def netTcpNoblockSend (pbuf : List UInt8) (events : List SendEvent) : Option Sent :=
  sendLoop [] pbuf 0 events

/-- A frame of the pool: `AV_FRAME_HEAD_S`, and what is behind it. Its length is an `int`. -/
structure PoolFrame where
  head : List UInt8
  payload : List UInt8
  length_head : head.length = avFrameHeadLen
  length_lt : avFrameHeadLen + payload.length < 2 ^ 31

def PoolFrame.bytes (f : PoolFrame) : List UInt8 := f.head ++ f.payload

/-- `AV_FRAME_HEAD_S.u64TimeStamp` of the bytes of a frame. -/
def u64TimeStampIn (buf : List UInt8) : UInt64 :=
  (wordIn buf 16).toUInt64 + (wordIn buf 20).toUInt64 * 4294967296

/-- `nvr_jxj_talk_send_data`. The header of the packet is written over the one of the frame, and
the payload is moved down behind it. -/
def nvrJxjTalkSendData (memcpy : Buffer.Memcpy UInt8) (pFrameBuf : List UInt8)
    (s32FrameLen : Nat) (events : List SendEvent) : Option Sent :=
  let s32DataLen := s32FrameLen - avFrameHeadLen
  let hdr : TalkHdr :=
    { u32Magic := jTalkMagic
      u32FrameNo := wordIn pFrameBuf 4
      u32Pts := (u64TimeStampIn pFrameBuf / 1000).toUInt32
      u32Len := UInt32.ofNat s32DataLen }
  let pFrameBuf := Buffer.put pFrameBuf 0 hdr.bytes
  let pFrameBuf := memcpy.copy pFrameBuf talkHdrLen avFrameHeadLen s32DataLen
  netTcpNoblockSend (pFrameBuf.take (talkHdrLen + s32DataLen)) events

end Nvr.Platform
