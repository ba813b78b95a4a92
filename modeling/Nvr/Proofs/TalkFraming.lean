import Mathlib
import Nvr.Platform.Talk
import Nvr.Proofs.CommandAnswers

/-!
# The packets of the intercom

A call takes a header and then so many bytes as the header says. The receive helper gives up
when nothing comes, and returns what it has; it takes a length of nothing, and one above what
an `int` holds, for whatever there is, and cuts what does not fit. The caller only sees that
something has come. So a call takes one packet if its header comes whole, its length is neither
0 nor more than the buffer has room for, and its payload comes whole.

Where the time-out cuts a header, its length is read from what was in the buffer. That goes
well in one case: the length that was there is 0, as is the one still to come, and the receive
of the payload is given the rest of the header.

The payload of a packet that is sent is moved down by the 16 bytes that the header of a frame is
longer than the one of a packet. Up to so many bytes that is a copy that `memcpy` is promised to
make.
-/

namespace Nvr.Platform

open WordRecord Client

/-! ## The laws -/

/-- A packet of the stream: its header carries the magic number and the length of its payload. -/
structure TalkPacket where
  hdr : TalkHdr
  payload : List UInt8
  magic : hdr.u32Magic = jTalkMagic
  len : hdr.u32Len.toNat = payload.length

def TalkPacket.bytes (p : TalkPacket) : List UInt8 := p.hdr.bytes ++ p.payload

/-- The frames given to the pool are the payloads of packets, which are the stream up to what
is still to come; or up to somewhere, when the connection has been closed. -/
def FramingLaw (stream : List UInt8) (c : TalkClient) : Prop :=
  ∃ packets : List TalkPacket,
    c.frames.map (·.data) = packets.map (some ·.payload) ∧
      if c.connected then packets.flatMap TalkPacket.bytes ++ c.coming = stream
      else packets.flatMap TalkPacket.bytes <+: stream

/-- The header comes whole, and so does the payload, which the buffer has room for and which is
not empty; or the time-out has cut the header, the length that was in the buffer is 0, and what
is taken for the payload is the rest of a header without one. -/
def WholePacket (buff head data : List UInt8) : Prop :=
  let u32Len := (TalkHdr.ofBytes buff).u32Len.toNat
  (head.length = talkHdrLen ∧ u32Len ≠ 0 ∧ talkHdrLen + u32Len ≤ talkBuffLen ∧
      data.length = u32Len) ∨
    (head.length < talkHdrLen ∧ u32Len = 0 ∧
      ∃ hdr : TalkHdr, hdr.u32Magic = jTalkMagic ∧ hdr.u32Len = 0 ∧ head ++ data = hdr.bytes)

/-- Where the call takes something, it takes a whole packet. -/
def TakesWhole (c : TalkClient) (call : TalkCall) : Prop :=
  ∀ r, nvrJxjTalkRecvData call.buff c.coming call.events = some (some r) →
    WholePacket r.buff r.head r.data

/-- What has been sent is one packet, all of it where the call has succeeded. -/
def SendLaw (f : PoolFrame) (sent : Sent) : Prop :=
  ∃ p : TalkPacket, p.payload = f.payload ∧
    if sent.ok then sent.bytes = p.bytes else sent.bytes <+: p.bytes

/-! ## Headers -/

@[simp] theorem TalkHdr.length_bytes (hdr : TalkHdr) : hdr.bytes.length = talkHdrLen := rfl

theorem TalkPacket.length_bytes (p : TalkPacket) :
    p.bytes.length = talkHdrLen + p.payload.length := by
  rw [TalkPacket.bytes, List.length_append, TalkHdr.length_bytes]

theorem TalkHdr.ofBytes_bytes (hdr : TalkHdr) (rest : List UInt8) :
    TalkHdr.ofBytes (hdr.bytes ++ rest) = hdr := by
  have hmagic := bytesWord_wordBytes hdr.u32Magic
  have hno := bytesWord_wordBytes hdr.u32FrameNo
  have hpts := bytesWord_wordBytes hdr.u32Pts
  have hlen := bytesWord_wordBytes hdr.u32Len
  simp only [TalkHdr.ofBytes, wordIn, TalkHdr.bytes, wordBytes, List.cons_append, List.nil_append,
    List.getD_cons_zero, List.getD_cons_succ, hmagic, hno, hpts, hlen]

theorem TalkHdr.bytes_ofBytes {bytes : List UInt8} (h : bytes.length = talkHdrLen)
    (rest : List UInt8) : (TalkHdr.ofBytes (bytes ++ rest)).bytes = bytes := by
  match bytes, h with
  | [_, _, _, _, _, _, _, _, _, _, _, _, _, _, _, _], _ =>
      simp only [TalkHdr.ofBytes, wordIn, TalkHdr.bytes, List.cons_append, List.nil_append,
        List.getD_cons_zero, List.getD_cons_succ, wordBytes_bytesWord]

/-- The header is the first 16 bytes of a buffer. -/
theorem TalkHdr.ofBytes_congr {buf buf' : List UInt8}
    (h : buf.take talkHdrLen = buf'.take talkHdrLen) : ofBytes buf = ofBytes buf' := by
  have hget : ∀ i < talkHdrLen, buf.getD i 0 = buf'.getD i 0 := by
    intro i hi
    have hi' := congrArg (·[i]?) h
    simp only [List.getElem?_take_of_lt hi] at hi'
    rw [List.getD_eq_getElem?_getD, List.getD_eq_getElem?_getD, hi']
  have hword : ∀ off, off + 3 < talkHdrLen → wordIn buf off = wordIn buf' off := by
    intro off hoff
    rw [wordIn, wordIn, hget off (by omega), hget (off + 1) (by omega), hget (off + 2) (by omega),
      hget (off + 3) hoff]
  rw [ofBytes, ofBytes, hword 0 (by decide), hword 4 (by decide), hword 8 (by decide),
    hword 12 (by decide)]

/-! ## What a call receives -/

/-- The two receives of `nvr_jxj_talk_recv_data`, when it has succeeded. -/
structure Took (pBuf coming : List UInt8) (r : TalkRecv) : Prop where
  stream : r.head ++ r.data ++ r.coming = coming
  head_le : r.head.length ≤ talkHdrLen
  data_ne : r.data ≠ []
  data_le : r.data.length ≤ recvRoom 1008 (TalkHdr.ofBytes r.buff).u32Len.toInt32
  magic : (TalkHdr.ofBytes r.buff).u32Magic = jTalkMagic
  buff : ∃ old : List UInt8, old.length = talkBuffLen ∧
    r.buff = Buffer.put (Buffer.put old 0 r.head) talkHdrLen r.data

theorem ofBytes_put_data {buf : List UInt8} (h : talkHdrLen ≤ buf.length) (data : List UInt8) :
    TalkHdr.ofBytes (Buffer.put buf talkHdrLen data) = TalkHdr.ofBytes buf :=
  TalkHdr.ofBytes_congr (Buffer.take_put le_rfl h)

theorem took_of_some {pBuf coming : List UInt8} {events : List RecvEvent} {r : TalkRecv}
    (hlen : pBuf.length = talkBuffLen)
    (h : nvrJxjTalkRecvData pBuf coming events = some (some r)) : Took pBuf coming r := by
  have hcleared : (Buffer.put pBuf 0 [0, 0, 0, 0]).length = talkBuffLen := by
    rw [Buffer.length_put (by rw [hlen]; decide), hlen]
  generalize hold : Buffer.put pBuf 0 [0, 0, 0, 0] = old at hcleared
  simp only [nvrJxjTalkRecvData, hold, Option.bind_eq_some_iff] at h
  obtain ⟨r₁, hrecv₁, h⟩ := h
  split at h
  · cases h
  · cases h
  · next head _ hret₁ =>
      obtain ⟨hcat₁, hle₁⟩ := netTcpNoblockRecv_some hrecv₁ hret₁
      have hle₁ : head.length ≤ talkHdrLen := hle₁
      split at h
      · cases h
      · next hmagic =>
          have hfit : 0 + head.length ≤ old.length := by
            rw [hcleared, Nat.zero_add]
            exact hle₁.trans (by decide)
          have hroom : talkHdrLen ≤ (Buffer.put old 0 head).length := by
            rw [Buffer.length_put hfit, hcleared]
            decide
          simp only [talkRecvPayload, Option.map_eq_some_iff] at h
          obtain ⟨r₂, hrecv₂, h⟩ := h
          split at h
          · cases h
          · cases h
          · next data hne hret₂ =>
              obtain ⟨hcat₂, hle₂⟩ := netTcpNoblockRecv_some hrecv₂ hret₂
              obtain rfl := Option.some.inj h
              have hhdr := ofBytes_put_data hroom data
              refine ⟨?_, hle₁, fun hnil => hne hnil, ?_, ?_, old, hcleared, rfl⟩
              · rw [List.append_assoc, hcat₂, hcat₁]
              · rw [hhdr]
                exact hle₂
              · rw [hhdr]
                exact not_not.1 hmagic

/-- A length that the buffer has room for is what the receive of the payload is asked for. -/
theorem recvRoom_payload {len : UInt32} (hpos : len.toNat ≠ 0)
    (hfit : talkHdrLen + len.toNat ≤ talkBuffLen) : recvRoom 1008 len.toInt32 = len.toNat := by
  have hle : len.toNat ≤ 1008 := by
    unfold talkHdrLen talkBuffLen at hfit
    omega
  have hint : len.toInt32.toInt = len.toNat := UInt32.toInt_toInt32_of_lt (by omega)
  have hcut : ¬(len.toInt32 ≤ 0 ∨ 1008 < len.toInt32) := by
    have hbuf : (1008 : Int32).toInt = 1008 := rfl
    have hzero : (0 : Int32).toInt = 0 := rfl
    rw [Int32.le_iff_toInt_le, Int32.lt_iff_toInt_lt, hint, hbuf, hzero]
    omega
  rw [recvRoom, if_neg hcut, hint, Int.toNat_natCast]

/-- The frame is the payload of a packet that is what the call has taken. -/
def TakesPacket (r : TalkRecv) : Prop :=
  ∃ p : TalkPacket, p.bytes = r.head ++ r.data ∧ (talkFrame r.buff).data = some p.payload

section

variable {pBuf coming : List UInt8} {r : TalkRecv}

/-- What the buffer holds: a whole header is at its start, and the bytes of the second receive
are behind it. -/
theorem Took.hdr_of_whole (h : Took pBuf coming r) (hwhole : r.head.length = talkHdrLen) :
    (TalkHdr.ofBytes r.buff).bytes = r.head := by
  obtain ⟨old, hold, hbuff⟩ := h.buff
  have hroom : talkHdrLen ≤ (Buffer.put old 0 r.head).length := by
    rw [Buffer.length_put (by rw [hwhole, hold]; decide), hold]
    decide
  rw [hbuff, ofBytes_put_data hroom, Buffer.put_zero]
  exact TalkHdr.bytes_ofBytes hwhole _

theorem Took.slice_data (h : Took pBuf coming r) :
    Buffer.slice r.buff talkHdrLen r.data.length = r.data := by
  obtain ⟨old, hold, hbuff⟩ := h.buff
  have hroom : talkHdrLen ≤ (Buffer.put old 0 r.head).length := by
    have hle := h.head_le
    have hfit : 0 + r.head.length ≤ old.length := by
      rw [hold, Nat.zero_add]
      exact hle.trans (by decide)
    rw [Buffer.length_put hfit, hold]
    decide
  rw [hbuff]
  exact Buffer.slice_put_self hroom

theorem Took.packet (h : Took pBuf coming r) (hwhole : WholePacket r.buff r.head r.data) :
    TakesPacket r := by
  rcases hwhole with ⟨hhead, -, hfit, hdata⟩ | ⟨-, hzero, hdr, hmagic, hlen, hbytes⟩
  · refine ⟨⟨TalkHdr.ofBytes r.buff, r.data, h.magic, hdata.symm⟩, ?_, ?_⟩
    · rw [TalkPacket.bytes, h.hdr_of_whole hhead]
    · simp only [talkFrame, if_pos hfit]
      rw [← hdata, h.slice_data]
  · refine ⟨⟨hdr, [], hmagic, by rw [hlen]; rfl⟩, ?_, ?_⟩
    · rw [TalkPacket.bytes, List.append_nil, hbytes]
    · simp [talkFrame, hzero, Buffer.slice, talkHdrLen, talkBuffLen]

/-- By its length, what makes a packet is a header and a payload, unless the payload is empty. -/
theorem Took.whole (h : Took pBuf coming r) (hpacket : TakesPacket r) :
    WholePacket r.buff r.head r.data := by
  obtain ⟨p, hbytes, hframe⟩ := hpacket
  have hfit : talkHdrLen + (TalkHdr.ofBytes r.buff).u32Len.toNat ≤ talkBuffLen := by
    by_contra hover
    simp only [talkFrame, if_neg hover] at hframe
    cases hframe
  have hsize : p.payload.length = (TalkHdr.ofBytes r.buff).u32Len.toNat := by
    obtain ⟨old, hold, hbuff⟩ := h.buff
    have hle := h.head_le
    have hlen : talkBuffLen ≤ r.buff.length := by
      have hput : (Buffer.put old 0 r.head).length = talkBuffLen := by
        rw [Buffer.length_put (by rw [hold, Nat.zero_add]; exact hle.trans (by decide)), hold]
      simp only [hbuff, Buffer.put, List.length_append, List.length_take, List.length_drop] at hput ⊢
      omega
    simp only [talkFrame, if_pos hfit, Option.some.injEq] at hframe
    rw [← hframe, Buffer.length_slice (by omega)]
  have htotal : talkHdrLen + (TalkHdr.ofBytes r.buff).u32Len.toNat =
      r.head.length + r.data.length := by
    rw [← hsize, ← TalkPacket.length_bytes, hbytes, List.length_append]
  have hhead := h.head_le
  by_cases hzero : (TalkHdr.ofBytes r.buff).u32Len.toNat = 0
  · -- an empty payload: the second receive has taken something of the header
    right
    have hdata := List.length_pos_iff.2 h.data_ne
    have hnil : p.payload = [] := List.length_eq_zero_iff.1 (hsize.trans hzero)
    refine ⟨by omega, hzero, p.hdr, p.magic, ?_, ?_⟩
    · apply UInt32.toNat_inj.1
      rw [p.len, hnil]
      rfl
    · rw [← hbytes, TalkPacket.bytes, hnil, List.append_nil]
  · left
    have hdata := h.data_le
    rw [recvRoom_payload hzero hfit] at hdata
    exact ⟨by omega, hzero, hfit, by omega⟩

end

/-! ## Calls and runs -/

theorem framingLaw_start (stream : List UInt8) : FramingLaw stream ⟨true, stream, []⟩ :=
  ⟨[], rfl, rfl⟩

/-- A call ends the connection, or it takes something for a packet. -/
theorem recv_cases {c c' : TalkClient} {call : TalkCall}
    (h : nvrJxjTalkClientRecvFunc c call = some c') :
    c.connected = true ∧ (c' = { c with connected := false } ∨
      ∃ r, nvrJxjTalkRecvData call.buff c.coming call.events = some (some r) ∧
        c' = { c with coming := r.coming, frames := c.frames ++ [talkFrame r.buff] }) := by
  unfold nvrJxjTalkClientRecvFunc at h
  split at h
  · next hconn =>
      refine ⟨hconn, ?_⟩
      obtain ⟨r?, hrecv, rfl⟩ := Option.map_eq_some_iff.1 h
      cases r? with
      | none => exact .inl rfl
      | some r => exact .inr ⟨r, hrecv, rfl⟩
  · cases h

theorem framingLaw_recv {stream : List UInt8} {c c' : TalkClient} {call : TalkCall}
    (hlaw : FramingLaw stream c) (h : nvrJxjTalkClientRecvFunc c call = some c')
    (hok : TakesWhole c call) : FramingLaw stream c' := by
  obtain ⟨packets, hframes, hstream⟩ := hlaw
  obtain ⟨hconn, rfl | ⟨r, hrecv, rfl⟩⟩ := recv_cases h
  · rw [if_pos hconn] at hstream
    exact ⟨packets, hframes, ⟨c.coming, hstream⟩⟩
  · have htook := took_of_some call.length_buff hrecv
    obtain ⟨p, hbytes, hdata⟩ := htook.packet (hok r hrecv)
    rw [if_pos hconn] at hstream
    refine ⟨packets ++ [p], ?_, ?_⟩
    · simp [hframes, hdata]
    · dsimp only
      rw [if_pos hconn, List.flatMap_append, List.flatMap_singleton, hbytes, List.append_assoc,
        htook.stream, hstream]

/-- How long packets are is told by their payloads. -/
theorem length_packets (packets : List TalkPacket) :
    (packets.flatMap TalkPacket.bytes).length =
      ((packets.map (·.payload)).map fun payload => talkHdrLen + payload.length).sum := by
  rw [List.length_flatMap, List.map_map]
  congr 1
  exact List.map_congr_left fun p _ => p.length_bytes

theorem not_framingLaw_recv {stream : List UInt8} {c c' : TalkClient} {call : TalkCall}
    (hlaw : FramingLaw stream c) (h : nvrJxjTalkClientRecvFunc c call = some c')
    (hnot : ¬TakesWhole c call) : ¬FramingLaw stream c' := by
  obtain ⟨packets, hframes, hstream⟩ := hlaw
  obtain ⟨r, hr⟩ := Classical.not_forall.1 hnot
  obtain ⟨hrecv, hpart⟩ := Classical.not_imp.1 hr
  obtain ⟨hconn, rfl | ⟨r', hrecv', rfl⟩⟩ := recv_cases h
  · -- a call that takes something does not end the connection
    simp [nvrJxjTalkClientRecvFunc, hconn, hrecv] at h
  · obtain rfl : r' = r := Option.some.inj (Option.some.inj (hrecv'.symm.trans hrecv))
    have htook := took_of_some call.length_buff hrecv
    rw [if_pos hconn] at hstream
    rintro ⟨packets', hframes', hstream'⟩
    dsimp only at hframes' hstream'
    rw [if_pos hconn] at hstream'
    rw [List.map_append, hframes, List.map_singleton] at hframes'
    -- the last packet is what the call has taken
    obtain ⟨qs, lasts, rfl, hqs, hlasts⟩ := List.map_eq_append_iff.1 hframes'.symm
    obtain ⟨q, rfl, hq⟩ := List.map_eq_singleton_iff.1 hlasts
    refine hpart (htook.whole ⟨q, ?_, hq.symm⟩)
    have hpayloads : qs.map (·.payload) = packets.map (·.payload) := by
      have hinj := congrArg (List.map fun o : Option (List UInt8) => o.getD []) hqs
      simpa [List.map_map, Function.comp_def] using hinj
    have hlen : (qs.flatMap TalkPacket.bytes).length = (packets.flatMap TalkPacket.bytes).length := by
      rw [length_packets, length_packets, hpayloads]
    rw [← hstream, ← htook.stream, List.flatMap_append, List.flatMap_singleton,
      List.append_assoc] at hstream'
    obtain ⟨-, htail⟩ := List.append_inj hstream' hlen
    exact List.append_cancel_right htail

/-! ## Sending -/

/-- A send that succeeds has sent everything, and else a part from the start. -/
theorem sendLoop_spec {events : List SendEvent} : ∀ {out pbuf : List UInt8} {block : Nat} {r : Sent},
    sendLoop out pbuf block events = some r →
      if r.ok then r.bytes = out ++ pbuf else r.bytes <+: out ++ pbuf := by
  induction events with
  | nil =>
      intro out pbuf block r h
      unfold sendLoop at h
      split at h
      · next hnil =>
          obtain rfl := Option.some.inj h
          simp [hnil]
      · cases h
  | cons e events ih =>
      intro out pbuf block r h
      unfold sendLoop at h
      split at h
      · next hnil =>
          obtain rfl := Option.some.inj h
          simp [hnil]
      · cases e with
        | failed =>
            obtain rfl := Option.some.inj h
            exact List.prefix_append out pbuf
        | again =>
            simp only at h
            split at h
            · exact ih h
            · obtain rfl := Option.some.inj h
              exact List.prefix_append out pbuf
        | sent n =>
            simp only at h
            split at h
            · cases h
            · have hrest := ih h
              rwa [List.append_assoc, List.take_append_drop] at hrest

/-- The packet that a frame is sent as. -/
def PoolFrame.packet (f : PoolFrame) : TalkPacket where
  hdr :=
    { u32Magic := jTalkMagic
      u32FrameNo := wordIn f.bytes 4
      u32Pts := (u64TimeStampIn f.bytes / 1000).toUInt32
      u32Len := UInt32.ofNat f.payload.length }
  payload := f.payload
  magic := rfl
  len := UInt32.toNat_ofNat_of_lt' (by
    have hlt := f.length_lt
    unfold UInt32.size
    omega)

theorem PoolFrame.length_bytes (f : PoolFrame) :
    f.bytes.length = avFrameHeadLen + f.payload.length := by
  rw [PoolFrame.bytes, List.length_append, f.length_head]

/-- The bytes that are sent, by what the copy makes of the payload. -/
theorem nvrJxjTalkSendData_of_copy {memcpy : Buffer.Memcpy UInt8} {f : PoolFrame}
    {events : List SendEvent} (g : List UInt8 → List UInt8)
    (hg : (g f.payload).length = f.payload.length)
    (hcopy : ∀ buf : List UInt8, buf.length = f.bytes.length →
      memcpy.copy buf talkHdrLen avFrameHeadLen f.payload.length =
        Buffer.put buf talkHdrLen (g (Buffer.slice buf avFrameHeadLen f.payload.length))) :
    nvrJxjTalkSendData memcpy f.bytes f.bytes.length events =
      netTcpNoblockSend (f.packet.hdr.bytes ++ g f.payload) events := by
  have hlen := f.length_bytes
  have hdata : f.bytes.length - avFrameHeadLen = f.payload.length := by omega
  have hfit : 0 + f.packet.hdr.bytes.length ≤ f.bytes.length := by
    rw [TalkHdr.length_bytes, hlen]
    unfold talkHdrLen avFrameHeadLen
    omega
  have hput := Buffer.length_put hfit
  have hhead : (Buffer.put f.bytes 0 f.packet.hdr.bytes).take talkHdrLen = f.packet.hdr.bytes := by
    rw [Buffer.put_zero, List.take_left' f.packet.hdr.length_bytes]
  have hpayload : Buffer.slice (Buffer.put f.bytes 0 f.packet.hdr.bytes) avFrameHeadLen
      f.payload.length = f.payload := by
    rw [Buffer.slice, Buffer.drop_put (by rw [TalkHdr.length_bytes]; decide) (Nat.zero_le _),
      PoolFrame.bytes, List.drop_left' f.length_head, List.take_length]
  have hsent : (Buffer.put (Buffer.put f.bytes 0 f.packet.hdr.bytes) talkHdrLen
      (g f.payload)).take (talkHdrLen + f.payload.length) = f.packet.hdr.bytes ++ g f.payload := by
    have hfront : (f.packet.hdr.bytes ++ g f.payload).length = talkHdrLen + f.payload.length := by
      rw [List.length_append, TalkHdr.length_bytes, hg]
    rw [Buffer.put, hhead, List.take_left' hfront]
  calc nvrJxjTalkSendData memcpy f.bytes f.bytes.length events
      = netTcpNoblockSend ((memcpy.copy (Buffer.put f.bytes 0 f.packet.hdr.bytes) talkHdrLen
          avFrameHeadLen f.payload.length).take (talkHdrLen + f.payload.length)) events := by
        rw [nvrJxjTalkSendData, hdata]
        rfl
    _ = netTcpNoblockSend (f.packet.hdr.bytes ++ g f.payload) events := by
        rw [hcopy _ hput, hpayload, hsent]

theorem sendLaw_of_moved {memcpy : Buffer.Memcpy UInt8} {f : PoolFrame}
    {events : List SendEvent} {sent : Sent}
    (hmoved : ∀ buf : List UInt8, buf.length = f.bytes.length →
      memcpy.copy buf talkHdrLen avFrameHeadLen f.payload.length =
        Buffer.put buf talkHdrLen (Buffer.slice buf avFrameHeadLen f.payload.length))
    (h : nvrJxjTalkSendData memcpy f.bytes f.bytes.length events = some sent) :
    SendLaw f sent := by
  rw [nvrJxjTalkSendData_of_copy id rfl hmoved, netTcpNoblockSend] at h
  have hspec := sendLoop_spec h
  rw [List.nil_append] at hspec
  exact ⟨f.packet, rfl, hspec⟩

/-- A copy that keeps its promise, and makes other bytes of what overlaps. -/
def memcpyOther : Buffer.Memcpy UInt8 where
  copy buf dst src n :=
    if dst + n ≤ src ∨ src + n ≤ dst then Buffer.put buf dst (Buffer.slice buf src n)
    else Buffer.put buf dst ((Buffer.slice buf src n).map (· + 1))
  copies _ _ _ _ _ _ hapart := if_pos hapart

/-- Every `memcpy` moves the payload as long as it does not overlap with where it goes. -/
theorem sendLaw_iff (f : PoolFrame) :
    (∀ (memcpy : Buffer.Memcpy UInt8) (events : List SendEvent) (sent : Sent),
        nvrJxjTalkSendData memcpy f.bytes f.bytes.length events = some sent → SendLaw f sent) ↔
      f.payload.length ≤ avFrameHeadLen - talkHdrLen := by
  have hlen := f.length_bytes
  constructor
  · intro hall
    by_contra hlong
    have hpos : f.payload ≠ [] := fun hnil => hlong (by simp [hnil])
    have hother : (f.payload.map (· + 1)).length = f.payload.length := List.length_map _
    have hcopy : ∀ buf : List UInt8, buf.length = f.bytes.length →
        memcpyOther.copy buf talkHdrLen avFrameHeadLen f.payload.length =
          Buffer.put buf talkHdrLen
            ((Buffer.slice buf avFrameHeadLen f.payload.length).map (· + 1)) :=
      fun buf _ => if_neg (by unfold avFrameHeadLen talkHdrLen at hlong ⊢; omega)
    obtain ⟨p, hp, hbytes⟩ := hall memcpyOther
      [.sent (f.packet.hdr.bytes ++ f.payload.map (· + 1)).length]
      ⟨true, f.packet.hdr.bytes ++ f.payload.map (· + 1)⟩ (by
        rw [nvrJxjTalkSendData_of_copy (List.map (· + 1)) hother hcopy, netTcpNoblockSend]
        have hne : f.packet.hdr.bytes ++ f.payload.map (· + 1) ≠ [] := by simp [hpos]
        simp [sendLoop, hne, talkHdrLen])
    -- the payload would be its own successor
    rw [if_pos rfl, TalkPacket.bytes, hp] at hbytes
    obtain ⟨-, hsame⟩ := List.append_inj hbytes (by simp)
    obtain ⟨x, rest, hx⟩ := List.exists_cons_of_ne_nil hpos
    rw [hx, List.map_cons, List.cons.injEq] at hsame
    have hsucc := congrArg UInt8.toNat hsame.1
    rw [UInt8.toNat_add] at hsucc
    have hlt := x.toNat_lt
    have hone : (1 : UInt8).toNat = 1 := rfl
    omega
  · intro hshort memcpy events sent h
    unfold avFrameHeadLen talkHdrLen at hshort
    unfold avFrameHeadLen at hlen
    refine sendLaw_of_moved (fun buf hbuf => ?_) h
    unfold avFrameHeadLen talkHdrLen
    exact memcpy.copies buf 16 32 _ (by omega) (by omega) (by omega)

/-! ## The intercom -/

/-- On an accepted connection the frames are the payloads of the packets of the stream if and
only if every call that takes something takes a whole packet; and a frame of the pool is sent
as one packet by any `memcpy` if and only if its payload is not longer than the difference of
the two headers, and by one that copies from the lowest place on in any case. -/
theorem talk_framing_iff {stream : List UInt8} {calls : List TalkCall} {c : TalkClient}
    (hrun : calls.foldlM nvrJxjTalkClientRecvFunc ⟨true, stream, []⟩ = some c) :
    ((∀ pre c, pre <+: calls →
        pre.foldlM nvrJxjTalkClientRecvFunc ⟨true, stream, []⟩ = some c → FramingLaw stream c) ↔
      ∀ pre call c, pre ++ [call] <+: calls →
        pre.foldlM nvrJxjTalkClientRecvFunc ⟨true, stream, []⟩ = some c → TakesWhole c call) ∧
    ∀ f : PoolFrame,
      ((∀ (memcpy : Buffer.Memcpy UInt8) (events : List SendEvent) (sent : Sent),
          nvrJxjTalkSendData memcpy f.bytes f.bytes.length events = some sent → SendLaw f sent) ↔
        f.payload.length ≤ avFrameHeadLen - talkHdrLen) ∧
      ∀ (events : List SendEvent) (sent : Sent),
        nvrJxjTalkSendData .up f.bytes f.bytes.length events = some sent → SendLaw f sent := by
  refine ⟨Run.good_iff_meets id framingLaw_recv not_framingLaw_recv (framingLaw_start stream) hrun,
    fun f => ⟨sendLaw_iff f, fun events sent h => sendLaw_of_moved (fun buf hbuf => ?_) h⟩⟩
  have hlen := f.length_bytes
  unfold avFrameHeadLen at hlen
  exact Buffer.copyUp_eq (.inl (by decide)) (by unfold talkHdrLen; omega)
    (by unfold avFrameHeadLen; omega)

/-- A packet with a payload of three bytes. -/
def talkPacketBytes : List UInt8 :=
  (TalkHdr.mk jTalkMagic 1 40000 3).bytes ++ [5, 6, 7]

/-- It comes in two parts, and then the connection is closed. -/
def talkCalls : List TalkCall :=
  [⟨List.replicate 1024 0, List.length_replicate, [.got 10, .again, .got 6, .got 3]⟩,
    ⟨List.replicate 1024 0, List.length_replicate, [.closed]⟩]

theorem talkCalls_run :
    talkCalls.foldlM nvrJxjTalkClientRecvFunc ⟨true, talkPacketBytes, []⟩ =
      some ⟨false, [], [⟨1, 40, 3, 40000000, some [5, 6, 7]⟩]⟩ := by
  decide +kernel

theorem talk_framing_iff_packet :
    (∀ pre c, pre <+: talkCalls →
        pre.foldlM nvrJxjTalkClientRecvFunc ⟨true, talkPacketBytes, []⟩ = some c →
          FramingLaw talkPacketBytes c) ↔
      ∀ pre call c, pre ++ [call] <+: talkCalls →
        pre.foldlM nvrJxjTalkClientRecvFunc ⟨true, talkPacketBytes, []⟩ = some c →
          TakesWhole c call :=
  (talk_framing_iff talkCalls_run).1

/-- A packet without a payload takes the bytes behind it along. -/
theorem not_talk_framing : ¬∀ (stream : List UInt8) (calls : List TalkCall) (c : TalkClient),
    calls.foldlM nvrJxjTalkClientRecvFunc ⟨true, stream, []⟩ = some c → FramingLaw stream c := by
  intro hall
  have hrun : [(⟨List.replicate 1024 0, List.length_replicate, [.got 16, .got 3]⟩ :
      TalkCall)].foldlM nvrJxjTalkClientRecvFunc
        ⟨true, (TalkHdr.mk jTalkMagic 1 40000 0).bytes ++ [5, 6, 7], []⟩ =
      some ⟨true, [], [⟨1, 40, 0, 40000000, some []⟩]⟩ := by
    decide +kernel
  obtain ⟨packets, hframes, hstream⟩ := hall _ _ _ hrun
  rw [if_pos rfl, List.append_nil] at hstream
  have hlen := congrArg List.length hstream
  have hpayloads : packets.map (·.payload) = [[]] := by
    have hinj := congrArg (List.map fun o : Option (List UInt8) => o.getD []) hframes
    simpa [List.map_map, Function.comp_def] using hinj.symm
  rw [length_packets, hpayloads] at hlen
  exact absurd hlen (by decide)

end Nvr.Platform
