import Nvr.Lib.ByteFile

/-!
# Cutting decoded audio into chunks

`audio_rcv_nbytes` of `audio_play.c`. The decoder gives the audio in pieces of
any size and the sound device takes it in chunks of `CHUNK_BYTES`. The pieces
are copied one behind the other into `out_buf`; what is left of the piece that
fills it is kept in `remain_buf`, and the next call begins with it.

The audio thread passes the same two buffers to every call. A call returns what
it has copied where, beside what the function returns.
-/

namespace Nvr.Player

/-- `CHUNK_BYTES`. -/
def chunkBytes : UInt32 := 4096

/-- The buffers that are copied into. -/
inductive AudioBuf where
  | out
  | remain
  deriving DecidableEq

/-- A `memcpy` into one of them. -/
structure AudioCopy where
  dst : AudioBuf
  pos : Nat
  bytes : List UInt8

/-- The statics of `audio_rcv_nbytes`, and the contents of the buffers. The pointer
`buffer` is given by how far behind the start of `out_buf` it points. -/
structure AudioRcv where
  buffer : Nat
  remainLen : UInt32
  allLen : UInt32
  outBuf : ByteFile
  remainBuf : ByteFile

def AudioRcv.memcpy (s : AudioRcv) (c : AudioCopy) : AudioRcv :=
  match c.dst with
  | .out => { s with outBuf := s.outBuf.write c.pos c.bytes }
  | .remain => { s with remainBuf := s.remainBuf.write c.pos c.bytes }

/-- A call: what it returns, what it copies, and what it leaves. -/
structure AudioCall where
  nbytes : UInt32
  copies : List AudioCopy
  left : AudioRcv

/-- What the last piece left over comes first. -/
def putRemain (s : AudioRcv) : AudioRcv × List AudioCopy :=
  if s.remainLen ≠ 0 then
    let c : AudioCopy := ⟨.out, s.buffer, s.remainBuf.read 0 s.remainLen.toNat⟩
    ({ s.memcpy c with
        buffer := s.buffer + s.remainLen.toNat
        allLen := s.allLen - s.remainLen
        remainLen := 0 }, [c])
  else (s, [])

/-- As much of the piece as there is room for. -/
def putPiece (copyLen : UInt32) (data : List UInt8) (s : AudioRcv) : AudioRcv × List AudioCopy :=
  let c : AudioCopy := ⟨.out, s.buffer, data.take copyLen.toNat⟩
  ({ s.memcpy c with
      allLen := s.allLen - copyLen
      buffer := s.buffer + copyLen.toNat }, [c])

/-- A chunk that is full: the rest of the piece is kept and `out_buf` is begun anew. -/
def keepRemain (copyLen : UInt32) (data : List UInt8) (s : AudioRcv) :
    AudioRcv × List AudioCopy :=
  if s.allLen = 0 then
    let c : AudioCopy := ⟨.remain, 0, data.drop copyLen.toNat⟩
    ({ s.memcpy c with
        remainLen := UInt32.ofNat data.length - copyLen
        buffer := 0
        allLen := chunkBytes }, [c])
  else (s, [])

/-- `audio_rcv_nbytes`; `data_len` is the length of the piece. -/
def audioRcvNbytes (init : Bool) (data : List UInt8) (s : AudioRcv) : AudioCall :=
  if init then ⟨0, [], { s with buffer := 0, allLen := chunkBytes, remainLen := 0 }⟩
  else
    let dataLen := UInt32.ofNat data.length
    let front := putRemain s
    let copyLen := if dataLen ≤ front.1.allLen then dataLen else front.1.allLen
    let filled := putPiece copyLen data front.1
    let done := keepRemain copyLen data filled.1
    ⟨chunkBytes - filled.1.allLen, front.2 ++ filled.2 ++ done.2, done.1⟩

end Nvr.Player
