import Mathlib.Data.List.Infix
import Nvr.Lib.FixedWidth
import Nvr.Lib.Run
import Nvr.Server.LibCommon

/-!
# What a client receives is the answer to its command

A receive that does not give up returns as much as was asked of it, from the
start of what is on the connection, or it fails. So a call that does not fail
takes one response from the connection, and if there was nothing on it before,
the response is the one to the command and nothing is left. A receive that gives
up is not told from one that has succeeded, and the response it has not waited
for is there for the next call.
-/

namespace Nvr.Client

open WordRecord RecvEvent

/-! ## Headers -/

@[simp] theorem NetHdr.length_bytes (hdr : NetHdr) : hdr.bytes.length = netHdrLen := rfl

theorem NetHdr.ofBytes_bytes (hdr : NetHdr) : NetHdr.ofBytes hdr.bytes = hdr := by
  have hmagic := bytesWord_wordBytes hdr.u32MagicFlag
  have hsize := bytesWord_wordBytes hdr.u32PacketSize
  have hcmd : UInt16.ofNat ((UInt8.ofNat hdr.u16CmdType.toNat).toNat +
      256 * (UInt8.ofNat (hdr.u16CmdType.toNat / 256)).toNat) = hdr.u16CmdType := by
    have hlt := hdr.u16CmdType.toNat_lt
    apply UInt16.toNat_inj.mp
    simp only [UInt8.toNat_ofNat', UInt16.toNat_ofNat']
    omega
  calc NetHdr.ofBytes hdr.bytes
      = ⟨_, _, _, hdr.s8Chn.toUInt8.toInt8, hdr.s8ErrNo.toUInt8.toInt8⟩ := rfl
    _ = hdr := by
      simp only [NetHdr.bytes, wordBytes, List.cons_append, List.nil_append, List.getD_cons_zero,
        List.getD_cons_succ, hmagic, hsize, hcmd, Int8.toInt8_toUInt8]

theorem Response.length_lt (r : Response) : r.payload.length < 2 ^ 31 :=
  lt_of_le_of_lt r.length_le (by decide)

/-! ## A receive that does not give up -/

/-- The events that a receive leaves are the last of those it had. -/
theorem recvLoop_events {nSize : Nat} {once : Bool} {events : List RecvEvent} :
    ∀ {recved coming : List UInt8} {tries : Nat} {r : Received},
      recvLoop nSize once recved tries coming events = some r → r.events <:+ events := by
  induction events with
  | nil =>
      intro recved coming tries r h
      unfold recvLoop at h
      split at h
      · obtain rfl := Option.some.inj h
        exact List.suffix_rfl
      · cases h
  | cons e rest ih =>
      intro recved coming tries r h
      unfold recvLoop at h
      split at h
      · obtain rfl := Option.some.inj h
        exact List.suffix_rfl
      have hrest : rest <:+ e :: rest := List.suffix_cons e rest
      cases e with
      | closed =>
          obtain rfl := Option.some.inj h
          exact hrest
      | error =>
          obtain rfl := Option.some.inj h
          exact hrest
      | again =>
          simp only at h
          split at h
          · exact (ih h).trans hrest
          · obtain rfl := Option.some.inj h
            exact hrest
      | got n =>
          simp only at h
          split at h
          · cases h
          split at h
          · obtain rfl := Option.some.inj h
            exact hrest
          · exact (ih h).trans hrest

/-- What a receive returns has come first, and it is no more than was asked for. -/
theorem recvLoop_some {nSize : Nat} {once : Bool} {events : List RecvEvent} :
    ∀ {recved coming : List UInt8} {tries : Nat} {r : Received} {bytes : List UInt8},
      recved.length ≤ nSize → recvLoop nSize once recved tries coming events = some r →
      r.ret = some bytes → bytes ++ r.coming = recved ++ coming ∧ bytes.length ≤ nSize := by
  induction events with
  | nil =>
      intro recved coming tries r bytes hle h hbytes
      unfold recvLoop at h
      split at h
      · obtain rfl := Option.some.inj h
        obtain rfl := Option.some.inj hbytes
        exact ⟨rfl, hle⟩
      · cases h
  | cons e rest ih =>
      intro recved coming tries r bytes hle h hbytes
      unfold recvLoop at h
      split at h
      · obtain rfl := Option.some.inj h
        obtain rfl := Option.some.inj hbytes
        exact ⟨rfl, hle⟩
      cases e with
      | closed =>
          obtain rfl := Option.some.inj h
          cases hbytes
      | error =>
          obtain rfl := Option.some.inj h
          cases hbytes
      | again =>
          simp only at h
          split at h
          · exact ih hle h hbytes
          · obtain rfl := Option.some.inj h
            obtain rfl := Option.some.inj hbytes
            exact ⟨rfl, hle⟩
      | got n =>
          simp only at h
          split at h
          · cases h
          next hn =>
            have htake : (coming.take n).length = n := List.length_take_of_le (by omega)
            have hroom : (recved ++ coming.take n).length ≤ nSize := by
              rw [List.length_append, htake]
              omega
            split at h
            · obtain rfl := Option.some.inj h
              obtain rfl := Option.some.inj hbytes
              exact ⟨by rw [List.append_assoc, List.take_append_drop], hroom⟩
            · obtain ⟨hcat, hlen⟩ := ih hroom h hbytes
              exact ⟨by rw [hcat, List.append_assoc, List.take_append_drop], hlen⟩

/-- Nothing has come so many times in a row among the events, the tries before
them counted. -/
def TooMany (tries : Nat) (events : List RecvEvent) : Prop :=
  List.replicate (netDefaultRecvTimeout + 1) again <:+:
    List.replicate tries again ++ events

theorem tooMany_again (tries : Nat) (rest : List RecvEvent) :
    TooMany tries (again :: rest) ↔ TooMany (tries + 1) rest := by
  have hmove : List.replicate tries again ++ again :: rest =
      List.replicate (tries + 1) again ++ rest := by
    rw [List.replicate_succ', List.append_assoc, List.singleton_append]
  unfold TooMany
  rw [hmove]

theorem TooMany.later {rest events : List RecvEvent} (h : TooMany 0 rest)
    (hsuffix : rest <:+ events) (tries : Nat) : TooMany tries events := by
  unfold TooMany at h ⊢
  exact h.trans (hsuffix.isInfix.trans (List.suffix_append _ _).isInfix)

/-- A receive of `nSize` bytes that does not give up returns so many, or fails. -/
theorem recvLoop_all {nSize : Nat} {events : List RecvEvent} :
    ∀ {recved coming : List UInt8} {tries : Nat} {r : Received} {bytes : List UInt8},
      recved.length ≤ nSize → ¬ TooMany tries events →
      recvLoop nSize false recved tries coming events = some r → r.ret = some bytes →
      bytes ++ r.coming = recved ++ coming ∧ bytes.length = nSize := by
  induction events with
  | nil =>
      intro recved coming tries r bytes hle _ h hbytes
      unfold recvLoop at h
      split at h
      next hfull =>
        obtain rfl := Option.some.inj h
        obtain rfl := Option.some.inj hbytes
        exact ⟨rfl, le_antisymm hle hfull⟩
      next => cases h
  | cons e rest ih =>
      intro recved coming tries r bytes hle hmany h hbytes
      unfold recvLoop at h
      split at h
      next hfull =>
        obtain rfl := Option.some.inj h
        obtain rfl := Option.some.inj hbytes
        exact ⟨rfl, le_antisymm hle hfull⟩
      next =>
        cases e with
        | closed =>
            obtain rfl := Option.some.inj h
            cases hbytes
        | error =>
            obtain rfl := Option.some.inj h
            cases hbytes
        | again =>
            rw [tooMany_again] at hmany
            have htries : tries < netDefaultRecvTimeout := by
              by_contra hge
              have hrep : List.replicate (netDefaultRecvTimeout + 1) again <+:
                  List.replicate (tries + 1) again :=
                (List.prefix_replicate_iff.2 ⟨by
                  rw [List.length_replicate]
                  omega, by rw [List.length_replicate]⟩)
              exact hmany (hrep.isInfix.trans (List.prefix_append _ _).isInfix)
            simp only [if_pos htries] at h
            exact ih hle hmany h hbytes
        | got n =>
            simp only [Bool.false_eq_true, if_false] at h
            split at h
            · cases h
            next hn =>
              have htake : (coming.take n).length = n :=
                List.length_take_of_le (by omega)
              have hlater : ¬ TooMany 0 rest :=
                fun hlate => hmany (hlate.later (List.suffix_cons _ _) tries)
              obtain ⟨hcat, hlen⟩ := ih (by
                rw [List.length_append, htake]
                omega) hlater h hbytes
              refine ⟨?_, hlen⟩
              rw [hcat, List.append_assoc, List.take_append_drop]

/-- How much `net_tcp_noblock_recv` may receive: what is asked for, or what there is room for
where that is less or nothing is asked for. -/
def recvRoom (bufSize rcvSize : Int32) : Nat :=
  if rcvSize ≤ 0 ∨ bufSize < rcvSize then bufSize.toInt.toNat else rcvSize.toInt.toNat

theorem netTcpNoblockRecv_some {bufSize rcvSize : Int32} {coming bytes : List UInt8}
    {events : List RecvEvent} {r : Received}
    (h : netTcpNoblockRecv bufSize rcvSize coming events = some r)
    (hbytes : r.ret = some bytes) :
    bytes ++ r.coming = coming ∧ bytes.length ≤ recvRoom bufSize rcvSize := by
  unfold netTcpNoblockRecv at h
  split at h
  · obtain rfl := Option.some.inj h
    cases hbytes
  · obtain ⟨hcat, hlen⟩ := recvLoop_some (Nat.zero_le _) h hbytes
    refine ⟨hcat, hlen.trans (le_of_eq ?_)⟩
    unfold recvRoom
    split <;> rfl

/-- `net_tcp_noblock_recv` of some bytes that the buffer has room for. -/
theorem netTcpNoblockRecv_all {bufSize rcvSize : Int32} {coming : List UInt8}
    {events : List RecvEvent} {r : Received} {bytes : List UInt8}
    (hpos : 0 < rcvSize) (hle : rcvSize ≤ bufSize) (hmany : ¬ TooMany 0 events)
    (h : netTcpNoblockRecv bufSize rcvSize coming events = some r)
    (hbytes : r.ret = some bytes) :
    bytes ++ r.coming = coming ∧ bytes.length = rcvSize.toInt.toNat ∧
      ¬ TooMany 0 r.events := by
  rw [Int32.lt_iff_toInt_lt] at hpos
  rw [Int32.le_iff_toInt_le] at hle
  have hzero : (0 : Int32).toInt = 0 := rfl
  have hbuf : ¬ bufSize ≤ 0 := by
    rw [Int32.le_iff_toInt_le]
    omega
  have honce : ¬ rcvSize ≤ 0 := by
    rw [Int32.le_iff_toInt_le]
    omega
  have hroom : ¬ bufSize < rcvSize := by
    rw [Int32.lt_iff_toInt_lt]
    omega
  simp only [netTcpNoblockRecv, if_neg hbuf, honce, hroom, or_self, if_false,
    decide_false] at h
  obtain ⟨hcat, hlen⟩ := recvLoop_all (Nat.zero_le _) hmany h hbytes
  exact ⟨hcat, hlen, fun hlate => hmany (hlate.later (recvLoop_events h) 0)⟩

/-! ## The answer to a command -/

/-- What a call leaves when it has not failed: it has received the response to
its command, and nothing is left on the connection. -/
structure Answered (recvBuf : Option Int32) (r : Response) (d : Done) : Prop where
  sock : d.sock = some []
  received : d.received = r.bytes
  ret : d.ret = Int32.ofNat r.payload.length
  copied : recvBuf.isSome → d.copied = r.payload

/-- What a call leaves when it closes the connection. -/
structure Failed (d : Done) : Prop where
  sock : d.sock = none
  ret : d.ret < 0

theorem failed_closed (received : List UInt8) (events : List RecvEvent) :
    Failed (closed received events) where
  sock := rfl
  ret := by
    show (-1 : Int32) < 0
    decide

theorem Response.toNat_size (r : Response) :
    r.hdr.u32PacketSize.toNat = r.payload.length := by
  have hlt := r.length_lt
  show (UInt32.ofNat r.payload.length).toNat = _
  rw [UInt32.toNat_ofNat']
  omega

theorem Response.toInt_size (r : Response) :
    r.hdr.u32PacketSize.toInt32.toInt = r.payload.length := by
  have hlt := r.length_lt
  have hsize := r.toNat_size
  rw [UInt32.toInt_toInt32_of_lt (by omega), hsize]

/-- After a header, the payload is received, or the connection is closed. -/
theorem recvPayload_answered {recvBuf : Option Int32} {resp : Response}
    {events : List RecvEvent} {d : Done} (hpos : 0 < resp.payload.length)
    (hmany : ¬ TooMany 0 events)
    (h : recvPayload recvBuf resp.hdr resp.hdr.bytes resp.payload events = some d) :
    Answered recvBuf resp d ∨ Failed d := by
  obtain ⟨r, hrecv, hd⟩ := Option.map_eq_some_iff.1 h
  cases hret : r.ret with
  | none =>
      right
      simp only [hret] at hd
      rw [← hd]
      exact failed_closed _ _
  | some recved =>
      have hsize := resp.toInt_size
      have hle := resp.length_le
      have hbuf : (Int32.ofNat recvBuffSize).toInt = recvBuffSize := by decide
      obtain ⟨hcat, hlen, -⟩ := netTcpNoblockRecv_all
        (Int32.lt_iff_toInt_lt.2 (by
          rw [hsize]
          exact Int.ofNat_lt.2 hpos))
        (Int32.le_iff_toInt_le.2 (by
          rw [hsize, hbuf]
          exact Int.ofNat_le.2 hle)) hmany hrecv hret
      rw [hsize, Int.toNat_natCast] at hlen
      obtain ⟨hrecved, hrest⟩ := List.append_inj (hcat.trans (List.append_nil _).symm) hlen
      have htake : (recved ++ List.replicate (recvBuffSize - recved.length) 0).take
          resp.hdr.u32PacketSize.toNat = resp.payload := by
        rw [resp.toNat_size, ← hlen, List.take_left, hrecved]
      have hbytes : resp.hdr.bytes ++ recved = resp.bytes := by
        rw [hrecved]
        rfl
      cases recvBuf with
      | none =>
          left
          simp only [hret] at hd
          rw [← hd]
          exact ⟨congrArg some hrest, hbytes, rfl, fun hsome => by cases hsome⟩
      | some recvBufSize =>
          simp only [hret] at hd
          split at hd
          · right
            rw [← hd]
            exact failed_closed _ _
          · left
            rw [← hd]
            exact ⟨congrArg some hrest, hbytes, rfl, fun _ => htake⟩

/-- On a connection with nothing before the response, the response is received
or the connection is closed. -/
theorem recvAnswer_answered {recvBuf : Option Int32} {answer : Option Response}
    {events : List RecvEvent} {d : Done} (hmany : ¬ TooMany 0 events)
    (h : recvAnswer recvBuf (answer.elim [] Response.bytes) events = some d) :
    (∃ resp, answer = some resp ∧ Answered recvBuf resp d) ∨ Failed d := by
  obtain ⟨r, hrecv, hd⟩ := Option.bind_eq_some_iff.1 h
  cases hret : r.ret with
  | none =>
      right
      simp only [hret, Option.some.injEq] at hd
      rw [← hd]
      exact failed_closed _ _
  | some head =>
      obtain ⟨hcat, hlen, hlater⟩ := netTcpNoblockRecv_all (by decide) (by decide) hmany hrecv hret
      have hhead : head.length = netHdrLen := hlen
      cases answer with
      | none =>
          have hnil : head ++ r.coming = [] := hcat
          rw [(List.append_eq_nil_iff.1 hnil).1] at hhead
          cases hhead
      | some resp =>
          have hsplit : head ++ r.coming = resp.hdr.bytes ++ resp.payload := hcat
          obtain ⟨rfl, hrest⟩ := List.append_inj hsplit hhead
          rw [hrest] at hd
          simp only [hret, NetHdr.ofBytes_bytes] at hd
          split at hd
          · right
            obtain rfl := Option.some.inj hd
            exact failed_closed _ _
          split at hd
          next hpos =>
            rw [UInt32.lt_iff_toNat_lt, resp.toNat_size] at hpos
            exact (recvPayload_answered hpos hlater hd).imp (fun ha => ⟨resp, rfl, ha⟩) id
          next hpos =>
            rw [UInt32.lt_iff_toNat_lt, resp.toNat_size] at hpos
            have hnil : resp.payload = [] :=
              List.eq_nil_of_length_eq_zero (Nat.eq_zero_of_not_pos hpos)
            left
            obtain rfl := Option.some.inj hd
            refine ⟨resp, rfl, congrArg some hnil, ?_, rfl, fun _ => hnil.symm⟩
            show resp.hdr.bytes = resp.hdr.bytes ++ resp.payload
            rw [hnil, List.append_nil]

/-! ## A process -/

/-- A connection on which there is nothing. -/
def Quiet (sock : Option (List UInt8)) : Prop := ∀ coming, sock = some coming → coming = []

theorem Quiet.getD {sock : Option (List UInt8)} (h : Quiet sock) : sock.getD [] = [] := by
  cases sock with
  | none => rfl
  | some coming => exact h coming rfl

theorem Failed.quiet {d : Done} (h : Failed d) : Quiet d.sock := by
  intro coming hsock
  rw [h.sock] at hsock
  cases hsock

theorem Answered.quiet {recvBuf : Option Int32} {r : Response} {d : Done}
    (h : Answered recvBuf r d) : Quiet d.sock := by
  intro coming hsock
  rw [h.sock] at hsock
  exact (Option.some.inj hsock).symm

/-- A call that finds nothing on the connection fails or is answered. -/
theorem nvrSendCmd_answered {sock : Option (List UInt8)} {call : Call} {d : Done}
    (hquiet : Quiet sock) (hmany : ¬ GivesUp call) (h : nvrSendCmd sock call = some d) :
    Quiet d.sock ∧
      (0 ≤ d.ret → ∃ r, call.answer = some r ∧ Answered call.recvBuf r d) := by
  have hfailed : ∀ {d' : Done}, Failed d' → Quiet d'.sock ∧
      (0 ≤ d'.ret → ∃ r, call.answer = some r ∧ Answered call.recvBuf r d') := by
    intro d' hf
    refine ⟨hf.quiet, fun hret => ?_⟩
    have hneg := hf.ret
    rw [Int32.lt_iff_toInt_lt] at hneg
    rw [Int32.le_iff_toInt_le] at hret
    omega
  have hrefused : Quiet (Done.mk sock (-1) [] [] call.events).sock ∧
      ((0 : Int32) ≤ -1 → ∃ r, call.answer = some r ∧
        Answered call.recvBuf r ⟨sock, -1, [], [], call.events⟩) :=
    ⟨hquiet, fun hret => absurd hret (by decide)⟩
  unfold nvrSendCmd at h
  cases hbuf : call.sendBuf with
  | none =>
      simp only [hbuf, Option.some.injEq] at h
      rw [← h]
      exact hrefused
  | some sendBuf =>
      simp only [hbuf] at h
      split at h
      · obtain rfl := Option.some.inj h
        exact hrefused
      split at h
      · obtain rfl := Option.some.inj h
        exact hfailed (failed_closed _ _)
      split at h
      · obtain rfl := Option.some.inj h
        exact hfailed ⟨rfl, by
          show netErrSendFail < 0
          decide⟩
      rw [hquiet.getD, List.nil_append] at h
      obtain ⟨r, hr, ha⟩ | hf := recvAnswer_answered hmany h
      · exact ⟨ha.quiet, fun _ => ⟨r, hr, ha⟩⟩
      · exact hfailed hf

theorem CommandsMatched.send {p p' : Process} {call : Call} (h : CommandsMatched p)
    (hstep : Sends p call p') (hmany : ¬ GivesUp call) : CommandsMatched p' := by
  obtain ⟨d, hcall, hd⟩ := Option.bind_eq_some_iff.1 hstep
  obtain ⟨hquiet, hanswer⟩ := nvrSendCmd_answered h.quiet hmany hcall
  split at hd
  next _ =>
    obtain rfl := Option.some.inj hd
    refine ⟨fun c hc => ?_, hquiet⟩
    rcases List.mem_append.1 hc with hold | hnew
    · exact h.matched c hold
    · obtain rfl := List.mem_singleton.1 hnew
      intro hret
      obtain ⟨r, hr, ha⟩ := hanswer hret
      exact ⟨Quiet.getD h.quiet, r, hr, ha.received, ha.ret, ha.copied⟩
  next _ => cases hd

theorem commandsMatched_init (connects : Bool) : CommandsMatched (nvrLibInit connects) := by
  refine ⟨fun c hc => (List.not_mem_nil hc).elim, fun coming hsock => ?_⟩
  cases connects with
  | true => exact (Option.some.inj hsock).symm
  | false => cases hsock

/-- In a process in which no receive gives up, every call that does not fail has
received the response to its command, and the connection has nothing on it. -/
theorem commandsMatched_of_waits {connects : Bool} {calls : List Call} {p : Process}
    (h : Run (Restrict Sends fun _ call => ¬ GivesUp call) (nvrLibInit connects) calls p) :
    CommandsMatched p :=
  h.invariant (fun hm hstep => hm.send hstep.1 hstep.2) (commandsMatched_init connects)

/-! ## Two commands -/

instance (call : Call) : Decidable (GivesUp call) :=
  inferInstanceAs (Decidable (List.replicate (netDefaultRecvTimeout + 1) again <:+: call.events))

/-- Two commands and their responses, the first in pieces with pauses. -/
def getDevInfo : Call where
  sendBuf := some (NetHdr.mk 0x30404891 0 0x2000 0 0).bytes
  recvBuf := some 4
  connects := true
  sends := true
  answer := some ⟨0x30404891, 0x2000, 0, 0, [1, 2, 3, 4], by decide⟩
  events := [again, got 5, again, got 7, got 3, got 1]

def getNetCfg : Call where
  sendBuf := some (NetHdr.mk 0x30404891 0 0x2006 0 0).bytes
  recvBuf := some 4
  connects := true
  sends := true
  answer := some ⟨0x30404891, 0x2006, 0, 0, [5, 6, 7, 8], by decide⟩
  events := [got 12, again, got 4]

theorem commandsMatched_of_waits_two :
    ∃ p, Run (Restrict Sends fun _ call => ¬ GivesUp call) (nvrLibInit true)
      [getDevInfo, getNetCfg] p ∧ p.sock = some [] ∧ CommandsMatched p := by
  have hfirst : ¬ GivesUp getDevInfo := by decide
  have hsecond : ¬ GivesUp getNetCfg := by decide
  obtain ⟨p₁, h₁⟩ : ∃ p, (nvrLibInit true).send getDevInfo = some p :=
    Option.isSome_iff_exists.1 rfl
  obtain ⟨p₂, h₂⟩ : ∃ p, ((nvrLibInit true).send getDevInfo).bind (Process.send · getNetCfg) =
      some p := Option.isSome_iff_exists.1 rfl
  have hsock : (((nvrLibInit true).send getDevInfo).bind (Process.send · getNetCfg)).map
      Process.sock = some (some []) := rfl
  rw [h₂] at hsock
  rw [h₁] at h₂
  have hrun : Run (Restrict Sends fun _ call => ¬ GivesUp call) (nvrLibInit true)
      [getDevInfo, getNetCfg] p₂ :=
    (Run.single ⟨h₁, hfirst⟩).append (Run.single ⟨h₂, hsecond⟩)
  exact ⟨p₂, hrun, Option.some.inj hsock, commandsMatched_of_waits hrun⟩

/-- A receive that gives up is not told from one that succeeds: the first call
returns 0 without a byte, and its response is what the second one receives. -/
theorem not_commandsMatched :
    ∃ p, Run Sends (nvrLibInit true)
        [{ getDevInfo with events := List.replicate 501 again }, getNetCfg] p ∧
      p.past.map (fun c => (c.done.ret, c.done.copied)) = [(0, []), (4, [1, 2, 3, 4])] ∧
      ¬ CommandsMatched p := by
  obtain ⟨p, hp⟩ : ∃ p, [{ getDevInfo with events := List.replicate 501 again },
      getNetCfg].foldlM Process.send (nvrLibInit true) = some p :=
    Option.isSome_iff_exists.1 (by decide +kernel)
  have hpast : ([{ getDevInfo with events := List.replicate 501 again },
      getNetCfg].foldlM Process.send (nvrLibInit true)).map (fun p =>
        (p.past.map (fun c => (c.done.ret, c.done.copied)), p.sock.map List.length)) =
        some ([(0, []), (4, [1, 2, 3, 4])], some 16) := by decide +kernel
  rw [hp, Option.map_some, Option.some.injEq, Prod.mk.injEq] at hpast
  refine ⟨p, Run.of_foldlM (fun h => h) hp, hpast.1, fun hm => ?_⟩
  obtain ⟨coming, hsock, hlen⟩ := Option.map_eq_some_iff.1 hpast.2
  rw [hm.quiet coming hsock] at hlen
  cases hlen

end Nvr.Client
