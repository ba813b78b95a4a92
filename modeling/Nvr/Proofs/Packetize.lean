import Nvr.Rtsp.H264
import Mathlib.Data.List.Forall2

/-!
# Sending a video frame loses nothing

Whatever the network does, the packets handed to it are numbered one after the
other and fit the buffer; that is proved for one packet and carried along the
list of packets. Which packets there are is said by a plan, the markers and
payloads in their order: `NalPlan` is what a plan has to be for one unit, and
`Emits` that a call has sent a plan, or a beginning of it and then failed.

A unit is found in the frame because no start code can end inside a start code:
the scan goes from one unit exactly to the next.
-/

namespace Nvr.Rtsp

open NalPayload

/-! ## One packet -/

/-- A buffer without the four bytes in front of it over TCP. -/
def RtpTransportType.rtp (t : RtpTransportType) (buf : List UInt8) : List UInt8 :=
  buf.drop t.rtpOverTcpLen

/-- A packet that fits the buffer, and over TCP is as long as it says. -/
def WellSized (t : RtpTransportType) (buf : List UInt8) : Prop :=
  buf.length ≤ rtpMaxPacketBuff ∧
    (t = .tcp → buf.getD 0 0 = 0x24 ∧
      256 * (buf.getD 2 0).toNat + (buf.getD 3 0).toNat + 4 = buf.length)

section

variable (sess : RtspSession) (marker : Bool) (pts : UInt32) (payload : List UInt8)

theorem rtp_packet :
    sess.eTransType.rtp (packet sess marker pts payload) =
      rtpHdr marker sess.lastSndSeq pts sess.videoSsrc ++ payload := by
  unfold packet RtpTransportType.rtp
  cases sess.eTransType <;> rfl

theorem length_packet :
    (packet sess marker pts payload).length =
      payload.length + sess.eTransType.rtpOverTcpLen + rtpHdrLen := by
  unfold packet
  cases sess.eTransType <;>
    simp [rtpOverTcpHdr, rtpHdr, htons, htonl, RtpTransportType.rtpOverTcpLen, rtpHdrLen]

theorem payload_packet :
    Rtp.payload (sess.eTransType.rtp (packet sess marker pts payload)) = payload := by
  rw [rtp_packet]
  rfl

theorem marker_packet :
    Rtp.marker (sess.eTransType.rtp (packet sess marker pts payload)) = marker := by
  rw [rtp_packet]
  show (((if marker then 0x80 else 0) ||| rtpPtH264) &&& 0x80 != 0) = marker
  cases marker <;> decide

theorem seqno_packet :
    Rtp.seqno (sess.eTransType.rtp (packet sess marker pts payload)) = sess.lastSndSeq := by
  have hlt := sess.lastSndSeq.toNat_lt
  rw [rtp_packet]
  show UInt16.ofNat (256 * (UInt8.ofNat (sess.lastSndSeq.toNat / 256)).toNat +
    (UInt8.ofNat sess.lastSndSeq.toNat).toNat) = sess.lastSndSeq
  apply UInt16.toNat_inj.1
  simp only [UInt8.toNat_ofNat', UInt16.toNat_ofNat']
  omega

variable {sess payload}

theorem wellSized_packet
    (h : payload.length + sess.eTransType.rtpOverTcpLen + rtpHdrLen ≤ rtpMaxPacketBuff) :
    WellSized sess.eTransType (packet sess marker pts payload) := by
  refine ⟨by rw [length_packet]; exact h, fun htcp => ?_⟩
  rw [length_packet]
  unfold packet
  rw [if_pos htcp]
  refine ⟨rfl, ?_⟩
  show 256 * (UInt8.ofNat ((UInt16.ofNat (payload.length + rtpHdrLen)).toNat / 256)).toNat +
    (UInt8.ofNat (UInt16.ofNat (payload.length + rtpHdrLen)).toNat).toNat + 4 = _
  rw [htcp] at h ⊢
  simp only [UInt8.toNat_ofNat', UInt16.toNat_ofNat', RtpTransportType.rtpOverTcpLen,
    rtpMaxPacketBuff, rtpHdrLen] at h ⊢
  omega

end

/-! ## Plans -/

/-- The markers and the payloads of some packets. -/
abbrev Plan := List (Bool × List UInt8)

/-- The state after the packets of a plan have been handed on. -/
def emit (pts : UInt32) (plan : Plan) (s : Sending) : Sending :=
  plan.foldl (fun s p => (sendPacket (fun _ => true) p.1 pts p.2 s).2) s

theorem emit_cons (pts : UInt32) (p : Bool × List UInt8) (plan : Plan) (s : Sending) :
    emit pts (p :: plan) s = emit pts plan (emit pts [p] s) := rfl

theorem emit_append (pts : UInt32) (a b : Plan) (s : Sending) :
    emit pts (a ++ b) s = emit pts b (emit pts a s) := List.foldl_append ..

/-- Every payload of the plan fits a packet. -/
def Plan.Fits (t : RtpTransportType) (plan : Plan) : Prop :=
  ∀ p ∈ plan, p.2.length + t.rtpOverTcpLen + rtpHdrLen ≤ rtpMaxPacketBuff

/-- The buffers `bufs` are the packets of a plan, numbered from `seq` on. -/
structure Packets (t : RtpTransportType) (seq : UInt16) (plan : Plan) (bufs : List (List UInt8)) :
    Prop where
  contents : (bufs.map t.rtp).map (fun p => (Rtp.marker p, Rtp.payload p)) = plan
  seqnos : (bufs.map t.rtp).map Rtp.seqno =
    (List.range plan.length).map fun i => seq + UInt16.ofNat i
  wellSized : plan.Fits t → ∀ buf ∈ bufs, WellSized t buf

/-- The packets of a plan are numbered from the next number on. -/
theorem emit_packets (pts : UInt32) : ∀ (plan : Plan) (s : Sending),
    (emit pts plan s).sess.eTransType = s.sess.eTransType ∧
      (emit pts plan s).sess.lastSndSeq = s.sess.lastSndSeq + UInt16.ofNat plan.length ∧
      ∃ bufs, (emit pts plan s).sent = s.sent ++ bufs ∧
        Packets s.sess.eTransType (s.sess.lastSndSeq + 1) plan bufs := by
  intro plan
  induction plan with
  | nil =>
      intro s
      exact ⟨rfl, by simp [emit], [], by simp [emit], rfl, rfl, by simp⟩
  | cons p plan ih =>
      intro s
      obtain ⟨htrans, hseq, bufs, hsent, hbufs⟩ := ih (emit pts [p] s)
      rw [emit_cons]
      refine ⟨htrans, ?_, packet { s.sess with lastSndSeq := s.sess.lastSndSeq + 1 } p.1 pts p.2 ::
        bufs, ?_, ?_⟩
      · rw [hseq]
        show s.sess.lastSndSeq + 1 + UInt16.ofNat plan.length = _
        rw [UInt16.add_assoc, List.length_cons, UInt16.ofNat_add, UInt16.add_comm 1]
        rfl
      · rw [hsent]
        exact List.append_assoc ..
      · have hp := payload_packet { s.sess with lastSndSeq := s.sess.lastSndSeq + 1 } p.1 pts p.2
        have hm := marker_packet { s.sess with lastSndSeq := s.sess.lastSndSeq + 1 } p.1 pts p.2
        have hq := seqno_packet { s.sess with lastSndSeq := s.sess.lastSndSeq + 1 } p.1 pts p.2
        refine ⟨?_, ?_, ?_⟩
        · rw [List.map_cons, List.map_cons, hm, hp]
          exact congrArg _ hbufs.contents
        · rw [List.map_cons, List.map_cons, hq, List.length_cons, List.range_succ_eq_map,
            List.map_cons]
          refine congrArg₂ _ (by simp) (hbufs.seqnos.trans ?_)
          rw [List.map_map]
          refine List.map_congr_left fun i _ => ?_
          show s.sess.lastSndSeq + 1 + 1 + UInt16.ofNat i =
            s.sess.lastSndSeq + 1 + UInt16.ofNat (i + 1)
          rw [UInt16.ofNat_add, UInt16.add_assoc _ 1, UInt16.add_comm 1]
          rfl
        · intro hfits buf hbuf
          obtain rfl | hbuf := List.mem_cons.1 hbuf
          · exact @wellSized_packet { s.sess with lastSndSeq := s.sess.lastSndSeq + 1 } p.1 pts _
              (hfits p (List.mem_cons_self ..))
          · exact hbufs.wellSized (fun q hq => hfits q (List.mem_cons_of_mem _ hq)) buf hbuf

/-! ## What a call sends -/

/-- A call has sent the plan and returned 0, or some send has failed after a
beginning of it. -/
def Emits (net : Nat → Bool) (pts : UInt32) (plan : Plan) (s : Sending) (r : Int × Sending) :
    Prop :=
  (r.1 = 0 ∧ r.2 = emit pts plan s) ∨
    (r.1 = -1 ∧ (∃ n, net n = false) ∧ ∃ sent, sent <+: plan ∧ r.2 = emit pts sent s)

theorem Emits.nil (net : Nat → Bool) (pts : UInt32) (s : Sending) : Emits net pts [] s (0, s) :=
  .inl ⟨rfl, rfl⟩

theorem Emits.fail {net : Nat → Bool} {pts : UInt32} {a b : Plan} {s : Sending}
    {r : Int × Sending} (h : Emits net pts a s r) (hr : r.1 < 0) :
    Emits net pts (a ++ b) s (-1, r.2) := by
  obtain ⟨h0, -⟩ | ⟨-, hnet, sent, hpre, hs⟩ := h
  · omega
  · exact .inr ⟨rfl, hnet, sent, hpre.trans (List.prefix_append a b), hs⟩

theorem Emits.append {net : Nat → Bool} {pts : UInt32} {a b : Plan} {s : Sending}
    {r r' : Int × Sending} (h : Emits net pts a s r) (hr : ¬ r.1 < 0)
    (h' : Emits net pts b r.2 r') : Emits net pts (a ++ b) s r' := by
  obtain ⟨-, hs⟩ | ⟨h1, -⟩ := h
  · rw [hs] at h'
    obtain ⟨h0, hs'⟩ | ⟨h1, hnet, sent, hpre, hs'⟩ := h'
    · exact .inl ⟨h0, by rw [hs', emit_append]⟩
    · exact .inr ⟨h1, hnet, a ++ sent, (List.prefix_append_right_inj a).2 hpre,
        by rw [hs', emit_append]⟩
  · omega

theorem Emits.eTransType {net : Nat → Bool} {pts : UInt32} {plan : Plan} {s : Sending}
    {r : Int × Sending} (h : Emits net pts plan s r) :
    r.2.sess.eTransType = s.sess.eTransType := by
  obtain ⟨-, hs⟩ | ⟨-, -, sent, -, hs⟩ := h
  · rw [hs]
    exact (emit_packets pts plan s).1
  · rw [hs]
    exact (emit_packets pts sent s).1

/-- A packet that is sent, and what a caller makes of it. -/
theorem emits_sendPacket (net : Nat → Bool) (marker : Bool) (pts : UInt32)
    (payload : List UInt8) (s : Sending) :
    Emits net pts [(marker, payload)] s
      (if (sendPacket net marker pts payload s).1 then
        (0, (sendPacket net marker pts payload s).2)
      else (-1, (sendPacket net marker pts payload s).2)) := by
  split
  next => exact .inl ⟨rfl, rfl⟩
  next hr =>
    exact .inr ⟨rfl, ⟨s.sent.length, Bool.eq_false_iff.2 hr⟩, _, List.prefix_rfl, rfl⟩

/-- The fragments of a unit, from some fragment on. -/
structure FragmentPlan (t : RtpTransportType) (head : UInt8) (first : Bool) (data : List UInt8)
    (plan : Plan) : Prop where
  fragments : Fragments head first data (plan.map Prod.snd)
  markers : plan.map Prod.fst = (plan.map Prod.snd).map isLast
  fits : plan.Fits t

theorem RtpTransportType.rtpOverTcpLen_le (t : RtpTransportType) : t.rtpOverTcpLen ≤ 4 := by
  cases t <;> decide

theorem FragmentPlan.ne_nil {t : RtpTransportType} {head : UInt8} {first : Bool}
    {data : List UInt8} {plan : Plan} (h : FragmentPlan t head first data plan) : plan ≠ [] := by
  rintro rfl
  exact nomatch h.fragments

/-- The loop over the fragments. The induction is on what is left of the unit. -/
theorem emits_sendFragments (net : Nat → Bool) (pts : UInt32) (head : UInt8) :
    ∀ (n : Nat) (first : Bool) (data : List UInt8) (s : Sending), data.length = n → data ≠ [] →
      ∃ plan, FragmentPlan s.sess.eTransType head first data plan ∧
        (rtpMaxPacketBuff < data.length + s.sess.eTransType.rtpOverTcpLen + rtpHdrLen + fuHdrLen →
          2 ≤ plan.length) ∧
        Emits net pts plan s (sendFragments net pts head first data s) := by
  intro n
  induction n using Nat.strongRecOn with
  | ind n ih =>
      intro first data s hn hdata
      have htcp := s.sess.eTransType.rtpOverTcpLen_le
      rw [sendFragments]
      simp only [dif_neg hdata]
      split
      next hlast =>
        refine ⟨[(true, fuIndicator head :: fuHeader head first true :: data)],
          ⟨.last first data, by simp, ?_⟩, fun h => by omega, emits_sendPacket ..⟩
        intro p hp
        obtain rfl := List.mem_singleton.1 hp
        simp only [List.length_cons, fuHdrLen] at hlast ⊢
        omega
      next hmore =>
        let len := rtpMaxPacketBuff - s.sess.eTransType.rtpOverTcpLen - rtpHdrLen - fuHdrLen
        have hlen : 0 < len ∧ len < data.length := by
          simp only [len, rtpMaxPacketBuff, rtpHdrLen, fuHdrLen] at hmore ⊢
          omega
        have hdrop : data.drop len ≠ [] := by
          rw [Ne, List.drop_eq_nil_iff]
          omega
        have hpacket := emits_sendPacket net false pts
          (fuIndicator head :: fuHeader head first false :: data.take len) s
        generalize hr : sendPacket net false pts
          (fuIndicator head :: fuHeader head first false :: data.take len) s = r at hpacket ⊢
        have hsess : r.2.sess.eTransType = s.sess.eTransType := by rw [← hr]; rfl
        obtain ⟨plan, hplan, -, hemits⟩ := ih (data.drop len).length
          (by rw [List.length_drop]; omega) false (data.drop len) r.2 rfl hdrop
        rw [hsess] at hplan
        refine ⟨(false, fuIndicator head :: fuHeader head first false :: data.take len) :: plan,
          ⟨?_, ?_, ?_⟩, fun _ => ?_, ?_⟩
        · have := Fragments.more first (data.take len) hplan.fragments
          rwa [List.take_append_drop] at this
        · simp [hplan.markers]
        · intro p hp
          obtain rfl | hp := List.mem_cons.1 hp
          · simp only [List.length_cons, List.length_take, len, rtpMaxPacketBuff, rtpHdrLen,
              fuHdrLen]
            omega
          · exact hplan.fits p hp
        · have := List.length_pos_iff.2 hplan.ne_nil
          rw [List.length_cons]
          omega
        · by_cases hok : r.1
          · rw [if_pos hok] at hpacket ⊢
            exact hpacket.append (by simp) hemits
          · rw [if_neg hok] at hpacket ⊢
            exact hpacket.fail (by simp)

/-! ## Units -/

/-- The packets for one unit: it goes whole, or in fragments. -/
structure NalPlan (t : RtpTransportType) (nal : List UInt8) (plan : Plan) : Prop where
  fits : plan.Fits t
  markers : plan.map Prod.fst = List.replicate (plan.length - 1) false ++ [true]
  payloads : plan.map Prod.snd = [nal] ∨
    (rtpMaxPacketBuff < nal.length + t.rtpOverTcpLen + rtpHdrLen ∧ 2 ≤ plan.length ∧
      ∃ head data, nal = head :: data ∧ Fragments head true data (plan.map Prod.snd))

theorem emits_rtspH264SendNal (net : Nat → Bool) (pts : UInt32) (nal : List UInt8) (s : Sending) :
    ∃ plan, NalPlan s.sess.eTransType nal plan ∧
      Emits net pts plan s (rtspH264SendNal net pts nal s) := by
  rw [rtspH264SendNal.eq_def]
  split
  next hfits =>
    refine ⟨[(true, nal)], ⟨fun p hp => ?_, rfl, .inl rfl⟩, emits_sendPacket ..⟩
    obtain rfl := List.mem_singleton.1 hp
    exact hfits
  next hlong =>
    have htcp := s.sess.eTransType.rtpOverTcpLen_le
    cases nal with
    | nil =>
        simp only [List.length_nil, rtpMaxPacketBuff, rtpHdrLen] at hlong
        omega
    | cons head data =>
        rw [List.length_cons] at hlong
        have hdata : data ≠ [] := by
          rintro rfl
          simp only [List.length_nil, rtpMaxPacketBuff, rtpHdrLen] at hlong
          omega
        obtain ⟨plan, hplan, hmany, hemits⟩ :=
          emits_sendFragments net pts head _ true data s rfl hdata
        have hmany := hmany (by rw [fuHdrLen]; omega)
        refine ⟨plan, ⟨hplan.fits, ?_, .inr ⟨?_, hmany, head, data, rfl, hplan.fragments⟩⟩, hemits⟩
        · rw [hplan.markers, hplan.fragments.map_isLast, List.length_map]
        · rw [List.length_cons]
          omega

/-- A unit that a receiver knows: if it goes whole, its type is that of a unit. -/
def Receivable (t : RtpTransportType) (nal : List UInt8) : Prop :=
  ∃ head data, nal = head :: data ∧ 1 ≤ nalType head ∧
    (nal.length + t.rtpOverTcpLen + rtpHdrLen ≤ rtpMaxPacketBuff → nalType head ≤ 23)

theorem NalPlan.receive {t : RtpTransportType} {nal : List UInt8} {plan : Plan}
    (h : NalPlan t nal plan) (hnal : Receivable t nal) (done : List (List UInt8)) :
    (plan.map Prod.snd).foldl receive ⟨done, none⟩ = ⟨done ++ [nal], none⟩ := by
  obtain ⟨head, data, rfl, hone, hmax⟩ := hnal
  obtain hwhole | ⟨-, -, head', data', heq, hfragments⟩ := h.payloads
  · have hfits : (head :: data).length + t.rtpOverTcpLen + rtpHdrLen ≤ rtpMaxPacketBuff := by
      obtain ⟨p, hp, hsnd⟩ := List.mem_map.1 (hwhole ▸ List.mem_singleton.2 rfl :
        head :: data ∈ plan.map Prod.snd)
      rw [← hsnd]
      exact h.fits p hp
    rw [hwhole, List.foldl_cons, receive_single _ ⟨hone, hmax hfits⟩, List.foldl_nil]
  · rw [receive_fragments hfragments ⟨done, none⟩ [head'] rfl, heq]
    rfl

/-- The packets of some units are received as these units. -/
theorem receive_plans {t : RtpTransportType} {nals : List (List UInt8)} {plans : List Plan}
    (h : List.Forall₂ (NalPlan t) nals plans) :
    (∀ nal ∈ nals, Receivable t nal) → ∀ done,
      (plans.flatten.map Prod.snd).foldl receive ⟨done, none⟩ = ⟨done ++ nals, none⟩ := by
  induction h with
  | nil =>
      intro _ done
      simp
  | cons hplan _ ih =>
      intro hnals done
      rw [List.flatten_cons, List.map_append, List.foldl_append,
        hplan.receive (hnals _ (List.mem_cons_self ..)),
        ih fun nal h => hnals nal (List.mem_cons_of_mem _ h), List.append_assoc]
      rfl

/-! ## Finding the units -/

def startCode : List UInt8 := [0x00, 0x00, 0x00, 0x01]

/-- A frame: each unit behind a start code. -/
def byteStream (nals : List (List UInt8)) : List UInt8 :=
  nals.flatMap fun nal => startCode ++ nal

theorem rtspH264FindNal_eq_none {data : List UInt8} (h : ¬ startCode <:+: data) :
    rtspH264FindNal data = none := by
  fun_induction rtspH264FindNal data with
  | case1 a b c d e rest hcode =>
      obtain ⟨rfl, rfl, rfl, rfl⟩ := hcode
      exact absurd ⟨[], e :: rest, rfl⟩ h
  | case2 a b c d e rest hcode ih =>
      rw [ih fun hcode => h (hcode.trans (List.infix_cons List.infix_rfl)), Option.map_none]
  | case3 => rfl

theorem rtspH264FindNal_cons {a : UInt8} {data : List UInt8}
    (hlen : 4 ≤ data.length) (h : ¬ startCode <+: a :: data) :
    rtspH264FindNal (a :: data) = (rtspH264FindNal data).map (· + 1) := by
  obtain - | ⟨b, - | ⟨c, - | ⟨d, - | ⟨e, rest⟩⟩⟩⟩ := data
  · simp at hlen
  · simp at hlen
  · simp at hlen
  · simp at hlen
  · rw [rtspH264FindNal, if_neg]
    rintro ⟨rfl, rfl, rfl, rfl⟩
    exact h ⟨e :: rest, rfl⟩

/-- The scan goes to the start code behind a unit: none begins in the unit, not
even one that goes on in that start code. -/
theorem rtspH264FindNal_append {nal rest : List UInt8} (h : ¬ startCode <:+: nal)
    (hrest : rest ≠ []) :
    rtspH264FindNal (nal ++ (startCode ++ rest)) = some nal.length := by
  induction nal with
  | nil =>
      obtain - | ⟨e, rest⟩ := rest
      · exact absurd rfl hrest
      · rfl
  | cons a nal ih =>
      have hnal : ¬ startCode <:+: nal := fun hcode =>
        h (hcode.trans (List.infix_cons List.infix_rfl))
      rw [List.cons_append, rtspH264FindNal_cons, ih hnal]
      · rfl
      · simp [startCode]
        omega
      · -- the fourth byte is in the unit, or a zero of the start code
        obtain - | ⟨b, - | ⟨c, - | ⟨d, nal⟩⟩⟩ := nal
        · simp [startCode]
        · simp [startCode]
        · simp [startCode]
        · rintro ⟨t, ht⟩
          simp only [startCode, List.cons_append, List.cons.injEq, List.nil_append] at ht
          obtain ⟨rfl, rfl, rfl, rfl, -⟩ := ht
          exact h ⟨[], nal, rfl⟩

/-- A unit that the frame's loop finds and sends. -/
def Framed (nal : List UInt8) : Prop :=
  ∃ head data, nal = head :: data ∧ head &&& 0x1f ≠ 0 ∧ ¬ startCode <:+: nal

theorem byteStream_cons (nal : List UInt8) (nals : List (List UInt8)) :
    byteStream (nal :: nals) = startCode ++ (nal ++ byteStream nals) := by
  rw [byteStream, List.flatMap_cons, List.append_assoc]
  rfl

/-- The loop from the start of a unit on. -/
theorem emits_sendNals (net : Nat → Bool) (pts : UInt32) (nals : List (List UInt8)) :
    ∀ (nal : List UInt8) (s : Sending), Framed nal → (∀ nal ∈ nals, Framed nal) →
      ∃ plans, List.Forall₂ (NalPlan s.sess.eTransType) (nal :: nals) plans ∧
        Emits net pts plans.flatten s (sendNals net pts (nal ++ byteStream nals)
          ((nal ++ byteStream nals).headD 0 &&& 0x1f) s) := by
  induction nals with
  | nil =>
      rintro nal s ⟨head, data, rfl, -, hcode⟩ -
      obtain ⟨plan, hplan, hemits⟩ := emits_rtspH264SendNal net pts (head :: data) s
      refine ⟨[plan], .cons hplan .nil, ?_⟩
      have hnone := rtspH264FindNal_eq_none hcode
      rw [byteStream, List.flatMap_nil, List.append_nil, sendNals.eq_def,
        if_neg (List.cons_ne_nil _ _)]
      split
      next =>
        simp only [List.flatten_cons, List.flatten_nil]
        split
        next hr => exact hemits.fail hr
        next hr => exact hemits.append hr (.nil net pts _)
      next n hsome => rw [hnone] at hsome; cases hsome
  | cons next nals ih =>
      rintro nal s ⟨head, data, rfl, htype, hcode⟩ hnals
      obtain ⟨plan, hplan, hemits⟩ := emits_rtspH264SendNal net pts (head :: data) s
      have hnext := hnals next (List.mem_cons_self ..)
      have hrest : next ++ byteStream nals ≠ [] := by
        obtain ⟨h, d, rfl, -⟩ := hnext
        exact List.cons_ne_nil _ _
      have htrans := hemits.eTransType
      have hfind := rtspH264FindNal_append hcode hrest
      obtain ⟨plans, hplans, hloop⟩ := ih next (rtspH264SendNal net pts (head :: data) s).2 hnext
        fun nal h => hnals nal (List.mem_cons_of_mem _ h)
      rw [htrans] at hplans
      refine ⟨plan :: plans, .cons hplan hplans, ?_⟩
      rw [byteStream_cons, sendNals.eq_def, if_neg (by simp [startCode])]
      split
      next hnone => rw [hfind] at hnone; cases hnone
      next n hsome =>
        obtain rfl := Option.some.inj (hsome.symm.trans hfind)
        have hdrop : (head :: data ++ (startCode ++ (next ++ byteStream nals))).drop
            ((head :: data).length + 4) = next ++ byteStream nals := by
          rw [← List.append_assoc]
          exact List.drop_left' (by simp [startCode])
        have hhead : (head :: data ++ (startCode ++ (next ++ byteStream nals))).headD 0 &&& 0x1f ≠
            0 := htype
        simp only [hdrop, if_pos hhead, List.take_left', List.flatten_cons]
        split
        next hr => exact hemits.fail hr
        next hr => exact hemits.append hr hloop

/-- The loop over a whole frame. -/
theorem emits_sendNals_byteStream (net : Nat → Bool) (pts : UInt32) (nals : List (List UInt8))
    (s : Sending) (hnals : ∀ nal ∈ nals, Framed nal) :
    ∃ plans, List.Forall₂ (NalPlan s.sess.eTransType) nals plans ∧
      Emits net pts plans.flatten s (sendNals net pts (byteStream nals) 0 s) := by
  cases nals with
  | nil =>
      refine ⟨[], .nil, ?_⟩
      rw [sendNals.eq_def, byteStream, List.flatMap_nil, if_pos rfl]
      exact .nil net pts s
  | cons nal nals =>
      obtain ⟨plans, hplans, hloop⟩ := emits_sendNals net pts nals nal s
        (hnals nal (List.mem_cons_self ..)) fun nal h => hnals nal (List.mem_cons_of_mem _ h)
      refine ⟨plans, hplans, ?_⟩
      have hrest : nal ++ byteStream nals ≠ [] := by
        obtain ⟨h, d, rfl, -⟩ := hnals nal (List.mem_cons_self ..)
        exact List.cons_ne_nil _ _
      -- the first start code: nothing is in front of it
      have hfind : rtspH264FindNal (startCode ++ (nal ++ byteStream nals)) = some 0 :=
        @rtspH264FindNal_append [] _ (by decide) hrest
      rw [byteStream_cons, sendNals.eq_def, if_neg (by simp [startCode])]
      split
      next hnone => rw [hfind] at hnone; cases hnone
      next n hsome =>
        obtain rfl := Option.some.inj (hsome.symm.trans hfind)
        have hdrop : (startCode ++ (nal ++ byteStream nals)).drop (0 + 4) =
            nal ++ byteStream nals := rfl
        simp only [hdrop]
        exact hloop

/-! ## A frame -/

/-- The packets that carry one unit: the marker is on the last of them, and they
are the unit itself or its fragments, with the first-bit on the first and the
last-bit on the last. -/
structure Carries (nal : List UInt8) (group : List (List UInt8)) : Prop where
  markers : group.map Rtp.marker = List.replicate (group.length - 1) false ++ [true]
  payloads : group.map Rtp.payload = [nal] ∨
    (2 ≤ group.length ∧
      (∃ head data, nal = head :: data ∧ Fragments head true data (group.map Rtp.payload)) ∧
      (group.map Rtp.payload).map isFirst = true :: List.replicate (group.length - 1) false ∧
      (group.map Rtp.payload).map isLast = List.replicate (group.length - 1) false ++ [true])

theorem NalPlan.carries {t : RtpTransportType} {nal : List UInt8} {plan : Plan}
    {group : List (List UInt8)} (h : NalPlan t nal plan)
    (hgroup : group.map (fun p => (Rtp.marker p, Rtp.payload p)) = plan) : Carries nal group := by
  subst hgroup
  have hmarkers := h.markers
  have hpayloads := h.payloads
  rw [List.map_map, List.length_map] at hmarkers
  rw [List.map_map, List.length_map] at hpayloads
  refine ⟨hmarkers, hpayloads.imp_right fun ⟨_, hmany, head, data, hnal, hfragments⟩ => ?_⟩
  have hfirst := hfragments.map_isFirst
  have hlast := hfragments.map_isLast
  rw [List.length_map] at hfirst hlast
  exact ⟨hmany, ⟨head, data, hnal, hfragments⟩, hfirst, hlast⟩

/-- Packets that follow the plans of some units fall into the groups that carry
them. -/
theorem carries_groups {t : RtpTransportType} {nals : List (List UInt8)} {plans : List Plan}
    (h : List.Forall₂ (NalPlan t) nals plans) : ∀ {rtp : List (List UInt8)},
      rtp.map (fun p => (Rtp.marker p, Rtp.payload p)) = plans.flatten →
        ∃ groups, rtp = groups.flatten ∧ List.Forall₂ Carries nals groups := by
  induction h with
  | nil =>
      intro rtp hrtp
      exact ⟨[], List.map_eq_nil_iff.1 hrtp, .nil⟩
  | cons hplan _ ih =>
      intro rtp hrtp
      obtain ⟨group, rest, rfl, hgroup, hrest⟩ := List.map_eq_append_iff.1 hrtp
      obtain ⟨groups, rfl, hgroups⟩ := ih hrest
      exact ⟨group :: groups, rfl, .cons (hplan.carries hgroup) hgroups⟩

theorem fits_flatten {t : RtpTransportType} {nals : List (List UInt8)} {plans : List Plan}
    (h : List.Forall₂ (NalPlan t) nals plans) : Plan.Fits t plans.flatten := by
  induction h with
  | nil => exact fun p hp => nomatch hp
  | cons hplan _ ih =>
      intro p hp
      obtain hp | hp := List.mem_append.1 hp
      · exact hplan.fits p hp
      · exact ih p hp

theorem length_seiData (curTime : Int) : (seiData curTime).length = 25 := rfl

/-- The unit with the time goes whole. -/
theorem nalPlan_seiData (t : RtpTransportType) (curTime : Int) :
    NalPlan t (seiData curTime) [(true, seiData curTime)] := by
  refine ⟨fun p hp => ?_, rfl, .inl rfl⟩
  obtain rfl := List.mem_singleton.1 hp
  rw [length_seiData]
  cases t <;> decide

theorem rtspH264SendNal_seiData (net : Nat → Bool) (pts : UInt32) (curTime : Int) (s : Sending) :
    (rtspH264SendNal net pts (seiData curTime) s).2 = emit pts [(true, seiData curTime)] s := by
  have hfits : (seiData curTime).length + s.sess.eTransType.rtpOverTcpLen + rtpHdrLen ≤
      rtpMaxPacketBuff :=
    (nalPlan_seiData s.sess.eTransType curTime).fits _ (List.mem_singleton.2 rfl)
  rw [rtspH264SendNal.eq_def, if_pos hfits]
  dsimp only
  split <;> rfl

theorem receivable_seiData (t : RtpTransportType) (curTime : Int) :
    Receivable t (seiData curTime) := ⟨0x06, _, rfl, by decide, fun _ => by decide⟩

/-- The units that a frame is sent as. -/
def sentNals (sess : RtspSession) (curTime seiTime : Int) (nals : List (List UInt8)) :
    List (List UInt8) :=
  if 1 ≤ curTime - sess.preTime then seiData seiTime :: nals else nals

/-- What is done around the loop over the units sends the unit with the time and
nothing else. -/
theorem rtspH264VideoSend_loop (net : Nat → Bool) (frame : List UInt8) (timeStamp : UInt32)
    (curTime seiTime : Int) (s : Sending) :
    let pts := nextPts s.sess timeStamp
    let r := sendNals net pts frame 0
      (if 1 ≤ curTime - s.sess.preTime then
        (rtspH264SendNal net pts (seiData seiTime)
          { s with sess := { s.sess with preTime := curTime } }).2
      else s)
    let r' := rtspH264VideoSend net frame timeStamp curTime seiTime s
    r'.2.sent = r.2.sent ∧ (r.1 = 0 → r'.1 = 0) := by
  intro pts r r'
  have hr' : r' = if r.1 < 0 then (-1, r.2)
      else (0, { r.2 with sess := { r.2.sess with lastSndTs := timeStamp, lastSndPts := pts } }) :=
    rfl
  rw [hr']
  by_cases hneg : r.1 < 0
  · rw [if_pos hneg]
    exact ⟨rfl, fun h0 => by omega⟩
  · rw [if_neg hneg]
    exact ⟨rfl, fun _ => rfl⟩

/-- The packets of a frame are those of the plans of its units, or the first of
them if the network fails. -/
theorem packets_rtspH264VideoSend (net : Nat → Bool) (sess : RtspSession) (timeStamp : UInt32)
    (curTime seiTime : Int) {nals : List (List UInt8)} (hnals : ∀ nal ∈ nals, Framed nal) :
    ∃ plans sent,
      List.Forall₂ (NalPlan sess.eTransType) (sentNals sess curTime seiTime nals) plans ∧
      sent <+: plans.flatten ∧
      let r := rtspH264VideoSend net (byteStream nals) timeStamp curTime seiTime ⟨sess, []⟩
      Packets sess.eTransType (sess.lastSndSeq + 1) sent r.2.sent ∧
        ((∀ n, net n) → r.1 = 0 ∧ sent = plans.flatten) := by
  let pts := nextPts sess timeStamp
  -- the unit in front has been sent when the loop starts, whatever became of it
  obtain ⟨sei, seiPlans, s, htrans, hseq, hsent, hnals', hplans, hs⟩ : ∃ (sei : List (List UInt8))
      (seiPlans : List Plan) (s : Sending), s.sess.eTransType = sess.eTransType ∧
        s.sess.lastSndSeq = sess.lastSndSeq ∧ s.sent = [] ∧
        sentNals sess curTime seiTime nals = sei ++ nals ∧
        List.Forall₂ (NalPlan sess.eTransType) sei seiPlans ∧
        (if 1 ≤ curTime - sess.preTime then (rtspH264SendNal net pts (seiData seiTime)
          ⟨{ sess with preTime := curTime }, []⟩).2 else ⟨sess, []⟩) =
        emit pts seiPlans.flatten s := by
    by_cases hsei : 1 ≤ curTime - sess.preTime
    · refine ⟨[seiData seiTime], [[(true, seiData seiTime)]],
        ⟨{ sess with preTime := curTime }, []⟩, rfl, rfl, rfl, if_pos hsei,
        .cons (nalPlan_seiData _ _) .nil, ?_⟩
      rw [if_pos hsei, rtspH264SendNal_seiData]
      rfl
    · exact ⟨[], [], ⟨sess, []⟩, rfl, rfl, rfl, if_neg hsei, .nil, if_neg hsei⟩
  obtain ⟨plans, hloop, hemits⟩ := emits_sendNals_byteStream net pts nals
    (emit pts seiPlans.flatten s) hnals
  rw [(emit_packets pts _ s).1, htrans] at hloop
  have hr := rtspH264VideoSend_loop net (byteStream nals) timeStamp curTime seiTime ⟨sess, []⟩
  dsimp only at hr
  rw [hs] at hr
  have hall : List.Forall₂ (NalPlan sess.eTransType) (sentNals sess curTime seiTime nals)
      (seiPlans ++ plans) := by
    rw [hnals']
    exact List.rel_append hplans hloop
  have hpackets : ∀ sent, Packets sess.eTransType (sess.lastSndSeq + 1) sent
      (emit pts sent s).sent := by
    intro sent
    obtain ⟨-, -, bufs, hbufs, hp⟩ := emit_packets pts sent s
    rw [hsent, List.nil_append] at hbufs
    rw [htrans, hseq] at hp
    rw [hbufs]
    exact hp
  obtain ⟨h0, hend⟩ | ⟨hneg, ⟨n, hn⟩, sent, hpre, hend⟩ := hemits
  · refine ⟨seiPlans ++ plans, seiPlans.flatten ++ plans.flatten, hall, ?_, ?_, fun _ =>
      ⟨hr.2 h0, ?_⟩⟩
    · exact (List.flatten_append ..).symm ▸ List.prefix_rfl
    · rw [hr.1, hend, ← emit_append]
      exact hpackets _
    · rw [List.flatten_append]
  · refine ⟨seiPlans ++ plans, seiPlans.flatten ++ sent, hall, ?_, ?_, fun hnet => ?_⟩
    · rw [List.flatten_append]
      exact (List.prefix_append_right_inj _).2 hpre
    · rw [hr.1, hend, ← emit_append]
      exact hpackets _
    · rw [hnet n] at hn
      cases hn

/-- A frame of units, each behind a start code, of a type other than 0, without
a start code in it and, if it fits one packet, of the type of a unit: whatever
the network does, every packet fits the buffer and is as long as it says, and
the packets are numbered one after the other. If nothing fails, the packets are
received as the units of the frame, with the unit of the time in front when it
is due, and each unit is carried by packets of its own. -/
theorem rtspH264VideoSend_lossless (net : Nat → Bool) (sess : RtspSession) (timeStamp : UInt32)
    (curTime seiTime : Int) {nals : List (List UInt8)} (hframed : ∀ nal ∈ nals, Framed nal)
    (htype : ∀ nal ∈ nals,
      nal.length + sess.eTransType.rtpOverTcpLen + rtpHdrLen ≤ rtpMaxPacketBuff →
        nalType (nal.headD 0) ≤ 23) :
    let r := rtspH264VideoSend net (byteStream nals) timeStamp curTime seiTime ⟨sess, []⟩
    let rtp := r.2.sent.map sess.eTransType.rtp
    (∀ buf ∈ r.2.sent, WellSized sess.eTransType buf) ∧
    rtp.map Rtp.seqno =
      (List.range rtp.length).map (fun i => sess.lastSndSeq + 1 + UInt16.ofNat i) ∧
    ((∀ n, net n) → r.1 = 0 ∧
      depacketize (rtp.map Rtp.payload) = sentNals sess curTime seiTime nals ∧
      ∃ groups, rtp = groups.flatten ∧
        List.Forall₂ Carries (sentNals sess curTime seiTime nals) groups) := by
  intro r rtp
  obtain ⟨plans, sent, hplans, hpre, hpackets, hok⟩ :=
    packets_rtspH264VideoSend net sess timeStamp curTime seiTime hframed
  have hlen : rtp.length = sent.length := by
    have := congrArg List.length hpackets.contents
    rwa [List.length_map] at this
  have hfits : Plan.Fits sess.eTransType sent := fun p hp => fits_flatten hplans p (hpre.subset hp)
  refine ⟨hpackets.wellSized hfits, ?_, fun hnet => ?_⟩
  · rw [hlen]
    exact hpackets.seqnos
  · obtain ⟨h0, rfl⟩ := hok hnet
    refine ⟨h0, ?_, carries_groups hplans hpackets.contents⟩
    have hpayloads : rtp.map Rtp.payload = plans.flatten.map Prod.snd := by
      rw [← hpackets.contents, List.map_map (g := Prod.snd)]
      rfl
    have hrecv : ∀ nal ∈ sentNals sess curTime seiTime nals, Receivable sess.eTransType nal := by
      have hnals : ∀ nal ∈ nals, Receivable sess.eTransType nal := by
        intro nal hnal
        obtain ⟨head, data, rfl, hzero, -⟩ := hframed nal hnal
        refine ⟨head, data, rfl, ?_, htype _ hnal⟩
        have hpos : (nalType head).toNat ≠ 0 := fun h => hzero (UInt8.toNat_inj.1 h)
        exact UInt8.le_iff_toNat_le.2 (Nat.one_le_iff_ne_zero.2 hpos)
      intro nal hnal
      unfold sentNals at hnal
      split at hnal
      · obtain rfl | hnal := List.mem_cons.1 hnal
        · exact receivable_seiData _ _
        · exact hnals nal hnal
      · exact hnals nal hnal
    rw [depacketize, hpayloads, receive_plans hplans hrecv, List.nil_append]

/-- A session of no particular history. -/
def freshSession (t : RtpTransportType) : RtspSession := ⟨t, 14080, 0xfffe, 0, 0, 0⟩

/-- A parameter set and a picture of two packets. -/
def twoUnits : List (List UInt8) := [[0x67, 0x42], 0x65 :: List.replicate 1500 0x80]

theorem rtspH264VideoSend_lossless_twoUnits :
    let r := rtspH264VideoSend (fun _ => true) (byteStream twoUnits) 40 1 1 ⟨freshSession .tcp, []⟩
    depacketize ((r.2.sent.map RtpTransportType.tcp.rtp).map Rtp.payload) =
      seiData 1 :: twoUnits := by
  refine ((rtspH264VideoSend_lossless (fun _ => true) (freshSession .tcp) 40 1 1 (show ∀ nal ∈ twoUnits, _ from ?_) ?_).2.2 fun _ => rfl).2.1
  · intro nal hnal
    obtain rfl | hnal := List.mem_cons.1 hnal
    · exact ⟨_, _, rfl, by decide, by decide⟩
    · obtain rfl := List.mem_singleton.1 hnal
      refine ⟨_, _, rfl, by decide, fun h => ?_⟩
      have hmem : (0x01 : UInt8) ∈ 0x65 :: List.replicate 1500 0x80 := h.subset (by decide)
      obtain hhead | htail := List.mem_cons.1 hmem
      · cases hhead
      · cases List.eq_of_mem_replicate htail
  · intro nal hnal _
    obtain rfl | hnal := List.mem_cons.1 hnal
    · decide
    · obtain rfl := List.mem_singleton.1 hnal
      show nalType 0x65 ≤ 23
      decide

/-- A unit of the type of a fragment that fits one packet is not received. -/
theorem not_rtspH264VideoSend_lossless :
    ¬ ∀ (sess : RtspSession) (timeStamp : UInt32) (curTime seiTime : Int)
      (nals : List (List UInt8)), (∀ nal ∈ nals, Framed nal) →
      let r := rtspH264VideoSend (fun _ => true) (byteStream nals) timeStamp curTime seiTime
        ⟨sess, []⟩
      depacketize ((r.2.sent.map sess.eTransType.rtp).map Rtp.payload) =
        sentNals sess curTime seiTime nals := by
  intro h
  have hframed : ∀ nal ∈ [[0x1c, 0x00]], Framed nal := by
    intro nal hnal
    obtain rfl := List.mem_singleton.1 hnal
    exact ⟨_, _, rfl, by decide, by decide⟩
  have hsame := h (freshSession .udp) 40 0 0 [[0x1c, 0x00]] hframed
  revert hsame
  decide +kernel

end Nvr.Rtsp
