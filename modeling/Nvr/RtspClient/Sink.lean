import Nvr.Lib.ByteFile
import Nvr.Lib.EqualRuns

/-!
# The frames of an RTSP camera

`OurRTSPSink::afterGettingFrame` of `rtsp_client.cpp` for a video subsession that is H264.
It is called with one NAL unit at a time, and puts those with the same presentation time
together to a frame. What is kept besides the members of the class is what `frameCb` has
been called with and what has been copied to `frameBuffer`.
-/

namespace Nvr.RtspClient

def dummySinkReceiveBufferSize : Nat := 512 * 1024

/-- `struct timeval`. -/
structure TimeVal where
  tv_sec : Int
  tv_usec : Int
  deriving DecidableEq

/-- A NAL unit as it is delivered. -/
structure Nal where
  bytes : List UInt8
  presentationTime : TimeVal
  nonempty : bytes ≠ []
  length_le : bytes.length ≤ dummySinkReceiveBufferSize

/-- `fReceiveBuffer[0] & 0x1f`. -/
def Nal.type (n : Nal) : UInt8 := n.bytes.headD 0 &&& 0x1f

inductive RtspFrameType where
  | unknow
  | videoFrameI
  | videoFrameP
  deriving DecidableEq, Repr

/-- `RtspFrameInfo` of a video frame, with the bytes in place of pointer and size. -/
structure RtspFrameInfo where
  frame : List UInt8
  frameType : RtspFrameType
  frameNo : UInt32
  timestamp : Nat
  width : Int
  height : Int
  deriving DecidableEq

/-- A `memcpy` of `length` bytes to a buffer of `size` bytes. -/
structure BufferWrite where
  offset : Nat
  length : Nat
  size : Nat

structure OurRTSPSink where
  fWidth : Int
  fHeight : Int
  frameBuffer : ByteFile
  frameBufferSize : Nat
  frameOffset : Nat
  lastTimeVal : TimeVal
  frameType : RtspFrameType
  frameNo : UInt32
  frames : List RtspFrameInfo
  writes : List BufferWrite
  shutdown : Bool

/-- The constructor, with the size that `decodeSpsAndPps` finds. -/
def OurRTSPSink.new (width height : Int) (frameBuffer : ByteFile) : OurRTSPSink :=
  { fWidth := width
    fHeight := height
    frameBuffer := frameBuffer
    frameBufferSize := 256 * 1024
    frameOffset := 0
    lastTimeVal := ⟨0, 0⟩
    frameType := .unknow
    frameNo := 1
    frames := []
    writes := []
    shutdown := false }

def nalStartCode : List UInt8 := [0, 0, 0, 1]

/-- `(unsigned long long)tv_sec * 1000000 + tv_usec`. -/
def TimeVal.timestamp (t : TimeVal) : Nat := ((t.tv_sec * 1000000 + t.tv_usec) % 2 ^ 64).toNat

namespace OurRTSPSink

/-- A time of 0 is none. -/
def setTime (s : OurRTSPSink) (t : TimeVal) : OurRTSPSink :=
  if s.lastTimeVal.tv_sec = 0 ∧ s.lastTimeVal.tv_usec = 0 then { s with lastTimeVal := t } else s

/-- Whether the frame in the buffer is complete when a NAL unit of time `t` comes. -/
def Complete (s : OurRTSPSink) (t : TimeVal) : Prop :=
  s.frameOffset ≠ 0 ∧ s.lastTimeVal.tv_sec ≠ 0 ∧ s.lastTimeVal.tv_usec ≠ 0 ∧
    (t.tv_sec ≠ s.lastTimeVal.tv_sec ∨ t.tv_usec ≠ s.lastTimeVal.tv_usec)

instance (s : OurRTSPSink) (t : TimeVal) : Decidable (s.Complete t) :=
  inferInstanceAs (Decidable (_ ∧ _))

def frameInfo (s : OurRTSPSink) : RtspFrameInfo :=
  { frame := s.frameBuffer.read 0 s.frameOffset
    frameType := if s.frameType = .unknow then .videoFrameP else .videoFrameI
    frameNo := s.frameNo
    timestamp := s.lastTimeVal.timestamp
    width := s.fWidth
    height := s.fHeight }

/-- The call of `frameCb`. -/
def callBack (s : OurRTSPSink) : OurRTSPSink :=
  { s with frames := s.frames ++ [s.frameInfo], frameNo := s.frameNo + 1 }

/-- What follows a call that has succeeded. -/
def restart (s : OurRTSPSink) (t : TimeVal) : OurRTSPSink :=
  { s with frameOffset := 0, lastTimeVal := t, frameType := .unknow }

/-- The switch over the type. -/
def setType (s : OurRTSPSink) (n : Nal) : OurRTSPSink :=
  if n.type = 5 then { s with frameType := .videoFrameI } else s

/-- A larger buffer, if the NAL unit does not fit. The rest of it is what `new` gives. -/
def grow (s : OurRTSPSink) (frameSize : Nat) : OurRTSPSink :=
  let needed := (s.frameOffset + frameSize) % 2 ^ 32
  if s.frameBufferSize < needed then
    let size := (needed + 0xffff) % 2 ^ 32 / 0x10000 * 0x10000
    { s with
      frameBufferSize := size
      frameBuffer := ByteFile.write (fun _ => 0) 0 (s.frameBuffer.read 0 s.frameOffset)
      writes := s.writes ++ [⟨0, s.frameOffset, size⟩] }
  else s

/-- `memcpy(frameBuffer+frameOffset, ..)` and the offset behind it. -/
def copy (s : OurRTSPSink) (bytes : List UInt8) : OurRTSPSink :=
  { s with
    frameBuffer := s.frameBuffer.write s.frameOffset bytes
    frameOffset := (s.frameOffset + bytes.length) % 2 ^ 32
    writes := s.writes ++ [⟨s.frameOffset, bytes.length, s.frameBufferSize⟩] }

/-- A NAL unit goes to the end of the frame. -/
def receive (s : OurRTSPSink) (n : Nal) : OurRTSPSink :=
  (((s.setType n).grow n.bytes.length).copy nalStartCode).copy n.bytes

/-- `OurRTSPSink::afterGettingFrame`. After a shutdown nothing is delivered any more. -/
def afterGettingFrame (frameCb : RtspFrameInfo → Int) (s : OurRTSPSink) (n : Nal) :
    OurRTSPSink :=
  if s.shutdown then s
  else
    let s := s.setTime n.presentationTime
    if s.Complete n.presentationTime then
      if frameCb s.frameInfo < 0 then { s.callBack with shutdown := true }
      else (s.callBack.restart n.presentationTime).receive n
    else s.receive n

/-- A sequence of NAL units. -/
def run (frameCb : RtspFrameInfo → Int) (s : OurRTSPSink) (nals : List Nal) : OurRTSPSink :=
  nals.foldl (afterGettingFrame frameCb) s

end OurRTSPSink

/-! ## What the frames are for -/

/-- The NAL units of a frame, each behind a start code. -/
def assembled (nals : List Nal) : List UInt8 := nals.flatMap fun n => nalStartCode ++ n.bytes

/-- The frame that a run of NAL units makes. -/
def frameOf (width height : Int) (nals : List Nal) (frameNo : UInt32) : RtspFrameInfo :=
  { frame := assembled nals
    frameType := if ∃ n ∈ nals, n.type = 5 then .videoFrameI else .videoFrameP
    frameNo := frameNo
    timestamp := ((nals.head?.map Nal.presentationTime).getD ⟨0, 0⟩).timestamp
    width := width
    height := height }

/-- The frames of runs, numbered from 1 on. -/
def framesOf (width height : Int) (runs : List (List Nal)) : List RtspFrameInfo :=
  runs.zipIdx.map fun run => frameOf width height run.1 (.ofNat (run.2 + 1))

/-- The frames of a sequence of NAL units: its runs of equal times, without the last. -/
def framesOfNals (width height : Int) (nals : List Nal) : List RtspFrameInfo :=
  framesOf width height (EqualRuns.runs Nal.presentationTime nals).dropLast

end Nvr.RtspClient
