import Nvr.Lib.NalPayload

/-!
# Sending a video frame

`nvr_rtsp_h264.c`. A frame is cut at the start codes into its NAL units. A unit
that fits one packet is sent as it is, a longer one in fragments, and once a
second a unit with the time is put in front. Over TCP the packets go through
the connection of the requests, each behind four more bytes.

The headers are packed structures on a little-endian machine; they are written
here as the bytes that are sent. The buffer that a packet is put together in is
filled from its start each time, so a packet is the concatenation of its parts.
-/

namespace Nvr.Rtsp

open NalPayload

/-- `RTP_MAX_PACKET_BUFF`. -/
def rtpMaxPacketBuff : Nat := 1460

/-- `sizeof(RTP_HDR_S)` and `sizeof(FU_ADef)`. -/
def rtpHdrLen : Nat := 12

def fuHdrLen : Nat := 2

/-- `RTP_PT_H264`. -/
def rtpPtH264 : UInt8 := 96

inductive RtpTransportType where
  | udp
  | tcp
  | butt
  deriving DecidableEq

/-- `nRtpOverTcpLen`. -/
def RtpTransportType.rtpOverTcpLen : RtpTransportType → Nat
  | .tcp => 4
  | _ => 0

/-- `RTSP_SESSION_S`, what sending video reads and writes of it. -/
structure RtspSession where
  eTransType : RtpTransportType
  videoSsrc : UInt32
  lastSndSeq : UInt16
  lastSndPts : UInt32
  lastSndTs : UInt32
  preTime : Int

/-- A session, and the buffers that have been handed to `send_rtp_data`. -/
structure Sending where
  sess : RtspSession
  sent : List (List UInt8)

/-! ## Packets -/

def htons (w : UInt16) : List UInt8 := [UInt8.ofNat (w.toNat / 256), UInt8.ofNat w.toNat]

def htonl (w : UInt32) : List UInt8 :=
  [UInt8.ofNat (w.toNat / 16777216), UInt8.ofNat (w.toNat / 65536), UInt8.ofNat (w.toNat / 256),
    UInt8.ofNat w.toNat]

/-- `RTP_HDR_S`: version 2, and neither padding nor extension nor sources. -/
def rtpHdr (marker : Bool) (seqno : UInt16) (ts ssrc : UInt32) : List UInt8 :=
  [0x80, (if marker then 0x80 else 0) ||| rtpPtH264] ++ htons seqno ++ htonl ts ++ htonl ssrc

/-- `RTP_OVER_TCP_HEADER`: a dollar, the channel 0 and the length. -/
def rtpOverTcpHdr (packetSize : UInt16) : List UInt8 := [0x24, 0] ++ htons packetSize

/-- What is handed to `send_rtp_data` for one payload. -/
def packet (sess : RtspSession) (marker : Bool) (pts : UInt32) (payload : List UInt8) :
    List UInt8 :=
  (if sess.eTransType = .tcp then rtpOverTcpHdr (UInt16.ofNat (payload.length + rtpHdrLen))
    else []) ++ rtpHdr marker sess.lastSndSeq pts sess.videoSsrc ++ payload

/-- `send_rtp_data`; `net` says for which of the packets it succeeds. -/
def sendRtpData (net : Nat → Bool) (buf : List UInt8) (s : Sending) : Bool × Sending :=
  (net s.sent.length, { s with sent := s.sent ++ [buf] })

/-- One packet, under the next sequence number. -/
def sendPacket (net : Nat → Bool) (marker : Bool) (pts : UInt32) (payload : List UInt8)
    (s : Sending) : Bool × Sending :=
  let sess := { s.sess with lastSndSeq := s.sess.lastSndSeq + 1 }
  sendRtpData net (packet sess marker pts payload) { s with sess := sess }

/-! ## Units -/

/-- The loop over the fragments of the unit that starts with `head`: `data` is
what is left of it, and `first` is `nFuNum == 0`. -/
def sendFragments (net : Nat → Bool) (pts : UInt32) (head : UInt8) (first : Bool)
    (data : List UInt8) (s : Sending) : Int × Sending :=
  let overTcpLen := s.sess.eTransType.rtpOverTcpLen
  if hdata : data = [] then (0, s)
  else if data.length + overTcpLen + rtpHdrLen + fuHdrLen ≤ rtpMaxPacketBuff then
    -- the whole rest: the loop ends after this packet
    let r := sendPacket net true pts (fuIndicator head :: fuHeader head first true :: data) s
    if r.1 then (0, r.2) else (-1, r.2)
  else
    let playLoadLen := rtpMaxPacketBuff - overTcpLen - rtpHdrLen - fuHdrLen
    let r := sendPacket net false pts
      (fuIndicator head :: fuHeader head first false :: data.take playLoadLen) s
    if r.1 then sendFragments net pts head false (data.drop playLoadLen) r.2 else (-1, r.2)
termination_by data.length
decreasing_by
  have hpos : 0 < data.length := List.length_pos_iff.2 hdata
  rw [List.length_drop]
  cases s.sess.eTransType <;>
    simp only [RtpTransportType.rtpOverTcpLen, rtpMaxPacketBuff, rtpHdrLen, fuHdrLen] <;> omega

def rtspH264SendNal (net : Nat → Bool) (pts : UInt32) (nal : List UInt8) (s : Sending) :
    Int × Sending :=
  if nal.length + s.sess.eTransType.rtpOverTcpLen + rtpHdrLen ≤ rtpMaxPacketBuff then
    let r := sendPacket net true pts nal s
    if r.1 then (0, r.2) else (-1, r.2)
  else
    match nal with
    | [] => (0, s)
    | head :: data => sendFragments net pts head true data s

/-! ## Frames -/

/-- The position of the first start code with something behind it. -/
def rtspH264FindNal : List UInt8 → Option Nat
  | a :: b :: c :: d :: e :: rest =>
      if a = 0x00 ∧ b = 0x00 ∧ c = 0x00 ∧ d = 0x01 then some 0
      else (rtspH264FindNal (b :: c :: d :: e :: rest)).map (· + 1)
  | _ => none

/-- The unit with the time that is put in front. -/
def seiData (curTime : Int) : List UInt8 :=
  let byte (n : Nat) : UInt8 := UInt8.ofNat ((curTime / 256 ^ n) % 256).toNat
  [0x06, 0xf0, 0x10, 0x00, byte 0, byte 1, byte 2, byte 3, 0, 0, 0x03, 0, 0, 0x03, 0, 0, 0x03,
    0, 0, 0x03, 0, 0, 0x03, 0, 0x80]

theorem rtspH264FindNal_lt {data : List UInt8} {n : Nat} (h : rtspH264FindNal data = some n) :
    n + 4 < data.length := by
  fun_induction rtspH264FindNal data generalizing n with
  | case1 a b c d e rest hcode =>
      obtain rfl := Option.some.inj h
      simp
  | case2 a b c d e rest hcode ih =>
      obtain ⟨m, hm, rfl⟩ := Option.map_eq_some_iff.1 h
      have := ih hm
      simp at this ⊢
      omega
  | case3 => cases h

/-- The loop over the units of a frame: `data` is what is left of the frame, and
`nalUnitType` the type of the unit it starts with, 0 before the first one. -/
def sendNals (net : Nat → Bool) (pts : UInt32) (data : List UInt8) (nalUnitType : UInt8)
    (s : Sending) : Int × Sending :=
  if data = [] then (0, s)
  else
    match h : rtspH264FindNal data with
    | none =>
        let r := rtspH264SendNal net pts data s
        if r.1 < 0 then (-1, r.2) else (0, r.2)
    | some nalLen =>
        let r := if nalUnitType ≠ 0 then rtspH264SendNal net pts (data.take nalLen) s else (0, s)
        if r.1 < 0 then (-1, r.2)
        else
          let rest := data.drop (nalLen + 4)
          sendNals net pts rest (rest.headD 0 &&& 0x1f) r.2
termination_by data.length
decreasing_by
  have := rtspH264FindNal_lt h
  rw [List.length_drop]
  omega

/-- The presentation time of a frame, in ticks of 90 kHz. -/
def nextPts (sess : RtspSession) (timeStamp : UInt32) : UInt32 :=
  if sess.lastSndTs = 0 ∨ timeStamp < sess.lastSndTs then 3600
  else sess.lastSndPts + 90 * (timeStamp - sess.lastSndTs)

/-- `rtsp_h264_video_send`. The clock is read once for the frame and once more
for the unit in front of it. -/
def rtspH264VideoSend (net : Nat → Bool) (frame : List UInt8) (timeStamp : UInt32)
    (curTime seiTime : Int) (s : Sending) : Int × Sending :=
  let pts := nextPts s.sess timeStamp
  let s :=
    if 1 ≤ curTime - s.sess.preTime then
      (rtspH264SendNal net pts (seiData seiTime)
        { s with sess := { s.sess with preTime := curTime } }).2
    else s
  let r := sendNals net pts frame 0 s
  if r.1 < 0 then (-1, r.2)
  else (0, { r.2 with sess := { r.2.sess with lastSndTs := timeStamp, lastSndPts := pts } })

end Nvr.Rtsp
