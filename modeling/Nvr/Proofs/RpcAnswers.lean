import Nvr.Lib.Run
import Nvr.Ipnc.Rpc
import Nvr.Proofs.CommandAnswers

/-!
# Answers of a camera process

On a connection with nothing unread, the server reads the whole request or closes. What it sends
then is the header of the answer and what the callback gave out, up to where it closes. What
remains is the client, whose receive takes three turns at most and ends where the server has
closed, in both cases without failing.

So a call goes well if the header comes whole, and what is announced comes whole behind it. Where
less comes of a header and the server has closed, the call fails if its magic number is not made up
for by what was on the stack. One callback's result is put to 0 where it is positive.
-/

namespace Nvr.Ipnc

open WordRecord Client

/-! ## The law -/

/-- What the callback behind a call produces for its arguments. -/
def ClientCall.produced (CT : IpncProtocolCbTable) : ClientCall → Option (Int32 × Output)
  | .connectIpnc cmd => CT.connectCb.map fun cb => ((cb cmd.val 0).1, .handle (cb cmd.val 0).2)
  | .disconnectIpnc ipncHandle => CT.disconnectCb.map fun cb => (cb ipncHandle, .none)
  | .logonIpnc ipncHandle =>
      CT.logonCb.map fun cb => ((cb ipncHandle 0).1, .handle (cb ipncHandle 0).2)
  | .logoutIpnc logonHandle => CT.logoutCb.map fun cb => (cb logonHandle, .none)
  | .getParam logonHandle paramCmd _ =>
      CT.getParamCb.map fun cb =>
        let r := cb logonHandle paramCmd
        (r.len, .data (if 0 < r.len then r.data else []))
  | .setParam logonHandle paramCmd pParam =>
      CT.setParamCb.map fun cb =>
        (cb logonHandle paramCmd (if 0 < pParam.size then pParam.data.getD [] else []) pParam.size,
          .none)
  | .sendPtzCmd logonHandle ptzPack =>
      CT.ptzControl.map fun cb =>
        (cb logonHandle (if 0 < ptzPack.size then ptzPack.data.getD [] else []), .none)
  | .setSearchCfg pSearCfg => CT.searchCfgCb.map fun cb => (cb pSearCfg.val, .none)
  | .startSearch handle => CT.startSearchCb.map fun cb => (cb handle, .none)
  | .stopSearch handle => CT.stopSearchCb.map fun cb => (cb handle, .none)
  | .getSearch handle =>
      CT.getSearchCb.map fun cb =>
        ((cb handle).1, .data (if 0 < (cb handle).1 then (cb handle).2.val else []))
  | .testAlive cmd => CT.testIpcStatus.map fun cb => (cb cmd.val, .none)
  | .startGetStream ipncHandle chn streamNo =>
      CT.startGetStreamCb.map fun cb =>
        ((cb ipncHandle chn streamNo).1, .handle (cb ipncHandle chn streamNo).2)
  | .stopGetStream ipncHandle streamHandle =>
      CT.stopGetStreamCb.map fun cb => (cb ipncHandle streamHandle, .none)
  | .requestIframe ipncHandle streamHandle =>
      CT.requestIFrameCb.map fun cb => (cb ipncHandle streamHandle, .none)

/-- A call that has returned. -/
structure Returned where
  call : ClientCall
  cbTable : IpncProtocolCbTable
  ret : Int32
  out : Output

/-- A client: its connection, and the call that has returned last. -/
structure Client where
  conn : Conn
  last : Option Returned

/-- `ipnc_client_init`. -/
def ipncClientInit : Client := ⟨⟨false, [], []⟩, none⟩

def Client.step (c : Client) (call : ClientCall × CallEnv) : Option Client :=
  (call.1.run c.conn call.2).map fun r => ⟨r.1, some ⟨call.1, call.2.cbTable, r.2.1, r.2.2⟩⟩

/-- Nothing of a request or an answer is unread, unless the connection is closed. -/
def Conn.Clean (conn : Conn) : Prop :=
  conn.gone = true ∨ (conn.requests = [] ∧ conn.coming = [])

/-- The call has failed, or returned what the callback produced for it. -/
def Returned.Transparent (r : Returned) : Prop :=
  r.ret < 0 ∨ r.call.produced r.cbTable = some (r.ret, r.out)

def RpcLaw (c : Client) : Prop := c.conn.Clean ∧ ∀ r ∈ c.last, r.Transparent

/-! ## The condition -/

/-- How a receive goes in so many turns: the count of the bytes that it takes, or none where it
fails, and the events behind it. -/
def taken : Nat → Nat → List RecvEvent → Option Nat × List RecvEvent
  | 0, _, events => (some 0, events)
  | tries + 1, nleft, events =>
      if nleft = 0 then (some 0, events)
      else
        match events with
        | [] => (some 0, [])
        | .error :: rest => (none, rest)
        | .closed :: rest => (some 0, rest)
        | .again :: rest => taken tries nleft rest
        | .got n :: rest =>
            ((taken tries (nleft - n) rest).1.map (n + ·), (taken tries (nleft - n) rest).2)

/-- How much the callback gives out behind the header of the answer. -/
def ClientCall.outLen (CT : IpncProtocolCbTable) : ClientCall → Nat
  | .getParam logonHandle paramCmd _ =>
      CT.getParamCb.elim 0 fun cb => (cb logonHandle paramCmd).len.toInt.toNat
  | .getSearch handle =>
      CT.getSearchCb.elim 0 fun cb => if 0 < (cb handle).1 then ipncNetSearchResLen else 0
  | .startGetStream ipncHandle chn streamNo =>
      CT.startGetStreamCb.elim 0 fun cb => if 0 ≤ (cb ipncHandle chn streamNo).1 then 4 else 0
  | _ => 0

/-- A stream is started with nothing above 0. -/
def ClientCall.PlainResult (CT : IpncProtocolCbTable) : ClientCall → Prop
  | .startGetStream ipncHandle chn streamNo =>
      ∀ cb ∈ CT.startGetStreamCb, (cb ipncHandle chn streamNo).1 ≤ 0
  | _ => True

/-- What is announced behind the header, if anything, comes whole, or is seen to fail; what there
is no room for needs the memory to be drained to, unless the server has closed. -/
def DataComes (gone malloc : Bool) (dataLen : Int32) (len : Nat) (events : List RecvEvent) :
    Prop :=
  len = 0 ∨
    if dataLen < Int32.ofNat len then
      gone = true ∨ malloc = true ∧ (taken netMaxBlockRecvTime len events).1 = some len
    else
      (taken netMaxBlockRecvTime len events).1 = none ∨
        (taken netMaxBlockRecvTime len events).1 = some len

/-- What a call receives makes it go well, where the server has closed, or has not. -/
def ClientCall.Receives (call : ClientCall) (gone : Bool) (env : CallEnv) : Prop :=
  ∀ n events, taken netMaxBlockRecvTime cmdHeadLen env.clientEvents = (some n, events) →
    if n = cmdHeadLen then
      call.PlainResult env.cbTable ∧
        DataComes gone env.malloc call.request.dataLen (call.outLen env.cbTable) events
    else
      gone = true ∧ (env.stale.take 4).drop n ≠ (wordBytes protocolResponseMagic).drop n

/-- The call is not made on a connection that takes it, or goes well. -/
def Client.Meets (c : Client) (call : ClientCall × CallEnv) : Prop :=
  c.conn.gone = true ∨ call.2.sendsHead = false ∨ call.2.sendsData = false ∨
    ∀ conn, c.conn.answer (call.1.request.head.bytes ++ call.1.request.sentData) call.2 = some conn →
      call.1.Receives conn.gone call.2

/-! ## Headers -/

@[simp] theorem CmdHead.length_bytes (hdr : CmdHead) : hdr.bytes.length = cmdHeadLen := rfl

theorem CmdHead.ofBytes_bytes (hdr : CmdHead) (rest : List UInt8) :
    CmdHead.ofBytes (hdr.bytes ++ rest) = hdr := by
  have hword : ∀ w : UInt32, bytesWord (UInt8.ofNat w.toNat) (UInt8.ofNat (w.toNat / 256))
      (UInt8.ofNat (w.toNat / 65536)) (UInt8.ofNat (w.toNat / 16777216)) = w := bytesWord_wordBytes
  simp only [CmdHead.ofBytes, wordIn, CmdHead.bytes, wordBytes, List.cons_append, List.nil_append,
    List.getD_cons_zero, List.getD_cons_succ, hword]
  rfl

theorem wordIn_zero (w : UInt32) (rest : List UInt8) : wordIn (wordBytes w ++ rest) 0 = w :=
  wordIn_wordBytes [] w rest

theorem wordIn_wordBytes_zero (w : UInt32) : wordIn (wordBytes w) 0 = w := by
  simpa using wordIn_zero w []

/-- A header that is put over another one has the magic number of an answer only if what is
missing of it was there before. -/
theorem magic_put {stale head : List UInt8} (hstale : stale.length = cmdHeadLen)
    (hhead : head.length ≤ cmdHeadLen)
    (hmissing : (stale.take 4).drop head.length ≠
      (wordBytes protocolResponseMagic).drop head.length) :
    (CmdHead.ofBytes (Buffer.put stale 0 head)).magic ≠ protocolResponseMagic := by
  intro hmagic
  have hlen : (Buffer.put stale 0 head).length = cmdHeadLen := by
    rw [Buffer.length_put (by omega), hstale]
  have hbytes : (Buffer.put stale 0 head).take 4 = wordBytes protocolResponseMagic := by
    rw [← hmagic, CmdHead.ofBytes, wordBytes_wordIn (by rw [hlen]; decide), List.drop_zero]
  apply hmissing
  rw [← hbytes, Buffer.put_zero, List.drop_take, List.drop_take, List.drop_left]

/-! ## Receiving -/

/-- What a receive in turns takes, by its events. -/
structure Takes (gone : Bool) (nleft : Nat) (recved coming : List UInt8)
    (t : Option Nat × List RecvEvent) (r : Received) : Prop where
  events : r.events = t.2
  fails : t.1 = none → r.ret = none ∧ gone = true
  takes : ∀ n, t.1 = some n → n ≤ nleft ∧ n ≤ coming.length ∧ r.ret = some (recved ++ coming.take n) ∧
    r.coming = coming.drop n

theorem blockRecvLoop_takes {gone : Bool} : ∀ {tries nleft : Nat} {recved coming : List UInt8}
    {events : List RecvEvent} {r : Received},
    blockRecvLoop gone nleft recved coming tries events = some r →
      Takes gone nleft recved coming (taken tries nleft events) r := by
  have hnone : ∀ {nleft : Nat} {recved coming : List UInt8} {events : List RecvEvent},
      Takes gone nleft recved coming (some 0, events) ⟨some recved, coming, events⟩ :=
    fun {nleft recved coming events} =>
      { events := rfl
        fails := fun h => by cases h
        takes := fun n h => by
          obtain rfl := Option.some.inj h
          exact ⟨Nat.zero_le _, Nat.zero_le _, by simp, rfl⟩ }
  intro tries
  induction tries with
  | zero =>
      intro nleft recved coming events r h
      rw [blockRecvLoop] at h
      obtain rfl := Option.some.inj h
      unfold taken
      exact hnone
  | succ tries ih =>
      intro nleft recved coming events r h
      unfold blockRecvLoop at h
      unfold taken
      split at h
      next hzero =>
        obtain rfl := Option.some.inj h
        rw [if_pos hzero]
        exact hnone
      next hzero =>
        rw [if_neg hzero]
        match events with
        | [] => cases h
        | .error :: rest =>
            simp only at h
            split at h
            next hgone =>
              obtain rfl := Option.some.inj h
              exact ⟨rfl, fun _ => ⟨rfl, hgone⟩, fun n hn => by cases hn⟩
            next => cases h
        | .closed :: rest =>
            simp only at h
            split at h
            next =>
              obtain rfl := Option.some.inj h
              exact hnone
            next => cases h
        | .again :: rest => exact ih h
        | .got n :: rest =>
            simp only at h
            split at h
            next => cases h
            next hfits =>
              have htakes := ih h
              refine ⟨htakes.events, fun hnone => ?_, fun m hm => ?_⟩
              · exact htakes.fails (Option.map_eq_none_iff.1 hnone)
              · obtain ⟨k, hk, rfl⟩ := Option.map_eq_some_iff.1 hm
                obtain ⟨hleft, hle, hret, hcoming⟩ := htakes.takes k hk
                rw [List.length_drop] at hle
                refine ⟨by omega, by omega, ?_, ?_⟩
                · rw [hret, List.append_assoc, List.take_add]
                · rw [hcoming, List.drop_drop]

theorem netTcpBlockRecv_takes {gone : Bool} {rcvSize : Nat} {coming : List UInt8}
    {events : List RecvEvent} {r : Received}
    (h : netTcpBlockRecv gone rcvSize coming events = some r) :
    Takes gone rcvSize [] coming (taken netMaxBlockRecvTime rcvSize events) r :=
  blockRecvLoop_takes h

theorem toInt_ofNat_len {n : Nat} (h : n ≤ recvBuffSize) : (Int32.ofNat n).toInt = n :=
  Int32.toInt_ofNat_of_lt (h.trans_lt (by decide))

theorem ofNat_len_pos {n : Nat} (h : n ≤ recvBuffSize) : Int32.ofNat n > 0 ↔ 0 < n := by
  rw [gt_iff_lt, Int32.lt_iff_toInt_lt, toInt_ofNat_len h, show (0 : Int32).toInt = 0 from rfl]
  omega

theorem neg_one_lt : (-1 : Int32) < 0 := by decide

/-- What `recv_cmd_response` leaves of an answer, where the call has gone well. -/
structure Got (gone : Bool) (sent : CmdHead) (out : List UInt8) (r : Responded) : Prop where
  clean : gone = true ∨ r.coming = []
  ret : r.ret < 0 ∨ (r.ret = sent.result ∧ r.cmdHdr = sent ∧ r.cmdData = out)

/-- A prefix of an answer that is as long as the answer. -/
theorem take_whole {coming out : List UInt8} (hcoming : coming <+: out)
    (hle : out.length ≤ coming.length) :
    coming.take out.length = out ∧ coming.drop out.length = [] := by
  obtain rfl := hcoming.eq_of_length_le hle
  exact ⟨List.take_length, List.drop_length⟩

theorem recvCmdData_got {gone malloc : Bool} {dataLen : Int32} {sent : CmdHead}
    {out coming : List UInt8} {events : List RecvEvent} {r : Responded}
    (hmagic : sent.magic = protocolResponseMagic)
    (hlen : sent.cmdDataLen = Int32.ofNat out.length) (hle : out.length ≤ recvBuffSize)
    (hcoming : coming <+: out) (hwhole : gone = true ∨ coming = out)
    (hdata : DataComes gone malloc dataLen out.length events)
    (h : recvCmdData gone malloc sent dataLen coming events = some r) : Got gone sent out r := by
  have hint : sent.cmdDataLen.toInt.toNat = out.length := by
    rw [hlen, toInt_ofNat_len hle, Int.toNat_natCast]
  rw [recvCmdData, if_neg (not_not.2 hmagic)] at h
  split at h
  next hroom =>
    have hpos := (ofNat_len_pos hle).1 (hlen ▸ hroom.2)
    have hfits : ¬ dataLen < Int32.ofNat out.length := by
      rw [← hlen, Int32.not_lt]
      exact hroom.1
    replace hdata := hdata.resolve_left (by omega)
    rw [if_neg hfits] at hdata
    obtain ⟨s, hrecv, rfl⟩ := Option.map_eq_some_iff.1 h
    rw [hint] at hrecv
    have htakes := netTcpBlockRecv_takes hrecv
    cases hdata with
    | inl hfails =>
        obtain ⟨hret, hgone⟩ := htakes.fails hfails
        rw [hret]
        exact ⟨.inl hgone, .inl neg_one_lt⟩
    | inr hall =>
        obtain ⟨-, hlong, hret, hrest⟩ := htakes.takes _ hall
        obtain ⟨htake, hdrop⟩ := take_whole hcoming hlong
        rw [List.nil_append, htake] at hret
        rw [hret]
        exact ⟨.inr (hrest.trans hdrop), .inr ⟨rfl, rfl, rfl⟩⟩
  next hroom =>
    split at h
    next hlong =>
      have hpos := (ofNat_len_pos hle).1 (hlen ▸ hlong)
      have hover : dataLen < Int32.ofNat out.length := by
        rw [← hlen, ← Int32.not_le]
        exact fun hfits => hroom ⟨hfits, hlong⟩
      replace hdata := hdata.resolve_left (by omega)
      rw [if_pos hover] at hdata
      have hfail : ∀ rest : List UInt8, (gone = true ∨ rest = []) →
          Got gone sent out ⟨-1, sent, [], rest⟩ := fun rest hrest =>
        ⟨hrest, .inl neg_one_lt⟩
      split at h
      next =>
        obtain ⟨s, hrecv, rfl⟩ := Option.map_eq_some_iff.1 h
        rw [hint] at hrecv
        refine hfail _ (hdata.imp_right fun hdrained => ?_)
        obtain ⟨-, hall, -, hrest⟩ := (netTcpBlockRecv_takes hrecv).takes _ hdrained.2
        exact hrest.trans (take_whole hcoming hall).2
      next hmalloc =>
        obtain rfl := Option.some.inj h
        exact hfail _ (hdata.imp_right fun hdrained => absurd hdrained.1 hmalloc)
    next hempty =>
      obtain rfl := Option.some.inj h
      obtain rfl : out = [] := by
        rw [hlen, ofNat_len_pos hle] at hempty
        exact List.length_eq_zero_iff.1 (by omega)
      exact ⟨.inr (List.prefix_nil.1 hcoming), .inr ⟨rfl, rfl, rfl⟩⟩

/-- The answer with its header. -/
theorem recvCmdResponse_got {call : ClientCall} {env : CallEnv} {gone : Bool} {sent : CmdHead}
    {out coming : List UInt8} {r : Responded}
    (hmagic : sent.magic = protocolResponseMagic)
    (hlen : sent.cmdDataLen = Int32.ofNat out.length) (hle : out.length ≤ recvBuffSize)
    (hout : out.length = call.outLen env.cbTable)
    (hcoming : coming <+: sent.bytes ++ out) (hwhole : gone = true ∨ coming = sent.bytes ++ out)
    (hreceives : call.Receives gone env)
    (h : recvCmdResponse gone env.malloc env.stale call.request.dataLen coming env.clientEvents =
      some r) :
    Got gone sent out r ∧ (r.ret < 0 ∨ call.PlainResult env.cbTable) := by
  obtain ⟨s, hrecv, h⟩ := Option.bind_eq_some_iff.1 h
  have htakes := netTcpBlockRecv_takes hrecv
  match htaken : taken netMaxBlockRecvTime cmdHeadLen env.clientEvents with
  | (none, events) =>
      obtain ⟨hret, hgone⟩ := htakes.fails (by rw [htaken])
      rw [hret] at h
      obtain rfl := Option.some.inj h
      exact ⟨⟨.inl hgone, .inl neg_one_lt⟩, .inl neg_one_lt⟩
  | (some n, events) =>
      have hevents := htakes.events
      rw [htaken] at hevents
      obtain ⟨hn, hlong, hret, hrest⟩ := htakes.takes n (by rw [htaken])
      rw [hret, List.nil_append] at h
      replace hreceives := hreceives n events htaken
      split at hreceives
      next hhead =>
        -- the header has come whole, whatever was on the stack
        obtain ⟨hplain, hdata⟩ := hreceives
        have hput : CmdHead.ofBytes (Buffer.put env.stale 0 sent.bytes) = sent := by
          rw [Buffer.put_zero]
          exact CmdHead.ofBytes_bytes sent _
        obtain ⟨rest, hrestEq⟩ := hcoming
        have hsent : coming.take n = sent.bytes := by
          have htake := congrArg (List.take n) hrestEq
          rw [List.take_append_of_le_length hlong, hhead, ← CmdHead.length_bytes sent,
            List.take_left] at htake
          rw [hhead, ← CmdHead.length_bytes sent, htake]
        have hbehind : coming.drop n ++ rest = out := by
          have hdrop := congrArg (List.drop n) hrestEq
          rw [List.drop_append_of_le_length hlong, hhead, ← CmdHead.length_bytes sent,
            List.drop_left] at hdrop
          rw [hhead, ← CmdHead.length_bytes sent, hdrop]
        simp only [hsent, hput, hrest, hevents] at h
        refine ⟨recvCmdData_got hmagic hlen hle ⟨rest, hbehind⟩ (hwhole.imp_right fun hall => ?_)
          (hout ▸ hdata) h, .inr hplain⟩
        rw [hall, hhead, ← CmdHead.length_bytes sent, List.drop_left]
      next =>
        -- less has come, which is seen by the magic number
        obtain ⟨hgone, hmissing⟩ := hreceives
        have hshort : (coming.take n).length = n := by
          rw [List.length_take]
          omega
        have hbad := magic_put env.length_stale (hshort.trans_le hn) (by rwa [hshort])
        simp only [recvCmdData, if_pos hbad] at h
        obtain rfl := Option.some.inj h
        exact ⟨⟨.inl hgone, .inl neg_one_lt⟩, .inl neg_one_lt⟩

/-! ## The server's part -/

/-- What a call sends behind its header is what the header announces, at most. -/
theorem ClientCall.length_sentData (call : ClientCall) :
    call.request.sentData.length ≤ call.request.cmdDataLen.toInt.toNat := by
  have hdata : ∀ q : Request,
      (∀ d, q.cmdData = some d → d.length ≤ q.cmdDataLen.toInt.toNat) →
        q.sentData.length ≤ q.cmdDataLen.toInt.toNat := by
    intro q hq
    unfold Request.sentData
    split
    next =>
      match hd : q.cmdData with
      | none => exact Nat.zero_le _
      | some d => exact hq d hd
    next => exact Nat.zero_le _
  refine hdata _ fun d hd => ?_
  cases call with
  | disconnectIpnc _ | logonIpnc _ | logoutIpnc _ | getParam _ _ _ => cases hd
  | setParam _ _ pParam => exact (pParam.fits d hd).le
  | sendPtzCmd _ ptzPack => exact (ptzPack.fits d hd).le
  | connectIpnc cmd | testAlive cmd | setSearchCfg cmd =>
      obtain rfl := Option.some.inj hd
      exact cmd.property.le
  | startSearch handle | stopSearch handle | getSearch handle | stopGetStream _ handle
  | requestIframe _ handle =>
      obtain rfl := Option.some.inj hd
      exact (length_wordBytes handle).le
  | startGetStream _ chn streamNo =>
      obtain rfl := Option.some.inj hd
      exact le_rfl

theorem ClientCall.sentData_nil {call : ClientCall} (h : ¬ 0 < call.request.cmdDataLen) :
    call.request.sentData = [] := by
  rw [Request.sentData, if_neg h]

/-- Where the server answers, it has read the whole request. -/
theorem readPackage_answer {CT : IpncProtocolCbTable} {call : ClientCall}
    {events : List RecvEvent} {r : ServerRead} {answer : List UInt8}
    (h : ipncServerReadPackage CT (call.request.head.bytes ++ call.request.sentData) events = some r)
    (hanswer : r.answer = some answer) :
    r.unread = [] ∧ answer = serverAnswer CT call.request.head call.request.sentData := by
  obtain ⟨s, hrecv, h⟩ := Option.bind_eq_some_iff.1 h
  match hret : s.ret with
  | none =>
      rw [hret] at h
      obtain rfl := Option.some.inj h
      cases hanswer
  | some head =>
      obtain ⟨hcat, -⟩ := netTcpNoblockRecv_some hrecv hret
      simp only [hret] at h
      split at h
      next =>
        obtain rfl := Option.some.inj h
        cases hanswer
      next hwhole =>
        obtain ⟨rfl, hrest⟩ := List.append_inj hcat (not_not.1 hwhole)
        have hofBytes : CmdHead.ofBytes call.request.head.bytes = call.request.head := by
          simpa using CmdHead.ofBytes_bytes call.request.head []
        have hmagic : call.request.head.magic = procotolRequestMagic := rfl
        have hlen : call.request.head.cmdDataLen = call.request.cmdDataLen := rfl
        rw [hofBytes, if_neg (not_not.2 hmagic), hlen, hrest] at h
        split at h
        next hpos =>
          obtain ⟨t, hrecvData, rfl⟩ := Option.map_eq_some_iff.1 h
          match hdata : t.ret with
          | none => simp [hdata] at hanswer
          | some arg =>
              obtain ⟨hcatData, -⟩ := netTcpNoblockRecv_some hrecvData hdata
              simp only [hdata] at hanswer ⊢
              split at hanswer
              next => cases hanswer
              next hall =>
                have hlenArg := not_not.1 hall
                have hlong := call.length_sentData
                rw [← hcatData, List.length_append] at hlong
                have hnil : t.coming = [] := List.length_eq_zero_iff.1 (by omega)
                rw [hnil, List.append_nil] at hcatData
                rw [if_neg hall, ← hcatData]
                exact ⟨hnil, (Option.some.inj hanswer).symm⟩
        next hnone =>
          obtain rfl := Option.some.inj h
          have hnil := ClientCall.sentData_nil hnone
          rw [hnil]
          exact ⟨rfl, (Option.some.inj hanswer).symm⟩

/-- What the server leaves of a call. -/
structure Served (answer : List UInt8) (conn : Conn) : Prop where
  begins : conn.coming <+: answer
  whole : conn.gone = true ∨ (conn.requests = [] ∧ conn.coming = answer)

theorem answer_served {call : ClientCall} {env : CallEnv} {conn conn' : Conn}
    (hrequests : conn.requests = []) (hcoming : conn.coming = [])
    (h : conn.answer (call.request.head.bytes ++ call.request.sentData) env = some conn') :
    Served (serverAnswer env.cbTable call.request.head call.request.sentData) conn' := by
  rw [Conn.answer, hrequests, hcoming, List.nil_append] at h
  obtain ⟨r, hread, rfl⟩ := Option.map_eq_some_iff.1 h
  match hanswer : r.answer, hcut : env.cut with
  | none, _ => exact ⟨List.nil_prefix, .inl rfl⟩
  | some answer, none =>
      obtain ⟨hunread, rfl⟩ := readPackage_answer hread hanswer
      exact ⟨List.prefix_rfl, .inr ⟨hunread, rfl⟩⟩
  | some answer, some k =>
      obtain ⟨-, rfl⟩ := readPackage_answer hread hanswer
      exact ⟨List.take_prefix _ _, .inl rfl⟩

/-! ## What the callback produces -/

/-- `ipnc_server_control` of a call whose request has been read. -/
def ClientCall.controlled (CT : IpncProtocolCbTable) (call : ClientCall) : Controlled :=
  ipncServerControl CT call.request.head call.request.sentData call.request.cmdDataLen

/-- The header of the answer. -/
def Controlled.sent (done : Controlled) : CmdHead :=
  { done.cmdHdr with
    result := done.ret
    magic := protocolResponseMagic
    response := 0
    cmdDataLen := Int32.ofNat done.outArg.length }

theorem serverAnswer_eq (CT : IpncProtocolCbTable) (call : ClientCall) :
    serverAnswer CT call.request.head call.request.sentData =
      (call.controlled CT).sent.bytes ++ (call.controlled CT).outArg := by
  have hresponse : call.request.head.response ≠ 0 := show (1 : UInt32) ≠ 0 by decide
  rw [serverAnswer, if_pos hresponse]
  rfl

/-- What the server does for a call: it gives out as much as the callback does, and an answer
without an error makes the call return what the callback has produced. -/
structure Controls (CT : IpncProtocolCbTable) (call : ClientCall) : Prop where
  length : (call.controlled CT).outArg.length = call.outLen CT
  length_le : (call.controlled CT).outArg.length ≤ recvBuffSize
  returns : ¬ (call.controlled CT).ret < 0 → call.PlainResult CT →
    ∀ r : Responded, r.cmdHdr = (call.controlled CT).sent →
      r.cmdData = (call.controlled CT).outArg →
        call.produced CT = some (call.returns r) ∧ ¬ (call.returns r).1 < 0

theorem controls_none {CT : IpncProtocolCbTable} {call : ClientCall}
    (hdone : call.controlled CT = notControlled call.request.head) (hlen : call.outLen CT = 0) :
    Controls CT call := by
  refine ⟨by rw [hdone, hlen]; rfl, by rw [hdone]; exact Nat.zero_le _, fun hret => ?_⟩
  rw [hdone] at hret
  exact absurd neg_one_lt hret

/-- A callback that only returns a result. -/
theorem controls_result {CT : IpncProtocolCbTable} {call : ClientCall} {α : Type}
    {cb : Option (α → Int32)} {a : α}
    (hdone : call.controlled CT = controlResult call.request.head cb a)
    (hproduced : call.produced CT = cb.map fun cb => (cb a, .none))
    (hlen : call.outLen CT = 0)
    (hreturns : ∀ r, call.returns r = (r.cmdHdr.result, .none)) : Controls CT call := by
  cases cb with
  | none => exact controls_none hdone hlen
  | some cb =>
      rw [controlResult] at hdone
      refine ⟨by rw [hdone, hlen]; rfl, by rw [hdone]; exact Nat.zero_le _, ?_⟩
      intro hret _ r hhdr _
      rw [hdone] at hret hhdr
      rw [hreturns, hhdr, hproduced]
      exact ⟨rfl, hret⟩

/-- A callback that gives a handle, which is put in the header. -/
theorem controls_handle {CT : IpncProtocolCbTable} {call : ClientCall} {α : Type}
    {cb : Option α} {res : α → Int32 × UInt32} {put : UInt32 → CmdHead}
    {handle : CmdHead → UInt32}
    (hdone : call.controlled CT =
      cb.elim (notControlled call.request.head) fun cb => ⟨put (res cb).2, (res cb).1, []⟩)
    (hproduced : call.produced CT = cb.map fun cb => ((res cb).1, .handle (res cb).2))
    (hlen : call.outLen CT = 0)
    (hreturns : ∀ r, call.returns r = (r.cmdHdr.result, .handle (handle r.cmdHdr)))
    (hput : ∀ h ret, handle (Controlled.sent ⟨put h, ret, []⟩) = h) : Controls CT call := by
  cases cb with
  | none => exact controls_none hdone hlen
  | some cb =>
      rw [Option.elim_some] at hdone
      refine ⟨by rw [hdone, hlen]; rfl, by rw [hdone]; exact Nat.zero_le _, ?_⟩
      intro hret _ s hhdr _
      rw [hdone] at hret hhdr
      rw [hreturns, hhdr, hput, hproduced]
      exact ⟨rfl, hret⟩

/-- What `getParamCb` gives out is as long as it returns, if that is a length. -/
theorem ParamAnswer.length_out (answer : ParamAnswer) :
    (if 0 < answer.len then answer.data else []).length = answer.len.toInt.toNat := by
  split
  next hpos => exact answer.length_data hpos
  next hnone =>
    rw [Int32.lt_iff_toInt_lt, show (0 : Int32).toInt = 0 from rfl] at hnone
    rw [List.length_nil]
    omega

theorem ParamAnswer.len_le (answer : ParamAnswer) : answer.len.toInt.toNat ≤ recvBuffSize := by
  rw [← answer.length_out]
  split
  · exact answer.length_le
  · exact Nat.zero_le _

/-- A callback that gives out data. -/
theorem controls_data {CT : IpncProtocolCbTable} {call : ClientCall} {α : Type}
    {cb : Option α} {ret : α → Int32} {data : α → List UInt8}
    (hdone : call.controlled CT =
      cb.elim (notControlled call.request.head) fun cb =>
        ⟨call.request.head, ret cb, data cb⟩)
    (hproduced : call.produced CT = cb.map fun cb => (ret cb, .data (data cb)))
    (hlen : call.outLen CT = cb.elim 0 fun cb => (data cb).length)
    (hle : ∀ f ∈ cb, (data f).length ≤ recvBuffSize)
    (hreturns : ∀ r, call.returns r = (r.cmdHdr.result, .data r.cmdData)) : Controls CT call := by
  cases cb with
  | none => exact controls_none hdone hlen
  | some cb =>
      rw [Option.elim_some] at hdone hlen
      refine ⟨by rw [hdone, hlen], by rw [hdone]; exact hle cb rfl, fun hret _ r hhdr hdata => ?_⟩
      rw [hdone] at hret hhdr hdata
      rw [hreturns, hhdr, hdata, hproduced]
      exact ⟨rfl, hret⟩

/-- A handle is sent as the arguments of a call, and read where they begin. -/
theorem controlResult_handle (hdr : CmdHead) (cb : Option (UInt32 → Int32)) (handle : UInt32) :
    controlResult hdr cb (wordIn (wordBytes handle) 0) = controlResult hdr cb handle := by
  rw [wordIn_wordBytes_zero]

/-- A stream is started with a handle that comes behind the header. -/
theorem controls_startGetStream (CT : IpncProtocolCbTable) (ipncHandle chn streamNo : UInt32) :
    Controls CT (.startGetStream ipncHandle chn streamNo) := by
  have hchn : wordIn (ClientCall.startGetStream ipncHandle chn streamNo).request.sentData 0 =
      chn := wordIn_zero chn _
  have hstream : wordIn (ClientCall.startGetStream ipncHandle chn streamNo).request.sentData 4 =
      streamNo := wordIn_wordBytes (wordBytes chn) streamNo _
  have hdone : (ClientCall.startGetStream ipncHandle chn streamNo).controlled CT =
      CT.startGetStreamCb.elim
        (notControlled (ClientCall.startGetStream ipncHandle chn streamNo).request.head) fun cb =>
          let r := cb ipncHandle
            (wordIn (ClientCall.startGetStream ipncHandle chn streamNo).request.sentData 0)
            (wordIn (ClientCall.startGetStream ipncHandle chn streamNo).request.sentData 4)
          if 0 ≤ r.1 then
            ⟨(ClientCall.startGetStream ipncHandle chn streamNo).request.head, 0, wordBytes r.2⟩
          else notControlled (ClientCall.startGetStream ipncHandle chn streamNo).request.head := by
    obtain ⟨_, _, _, _, _, _, _, _, startGetStreamCb, _, _, _, _, _, _⟩ := CT
    cases startGetStreamCb with
    | none => rfl
    | some cb => rfl
  rw [hchn, hstream] at hdone
  cases hcb : CT.startGetStreamCb with
  | none =>
      rw [hcb, Option.elim_none] at hdone
      exact controls_none hdone (by rw [ClientCall.outLen, hcb, Option.elim_none])
  | some cb =>
      have hlen : (ClientCall.startGetStream ipncHandle chn streamNo).outLen CT =
          if 0 ≤ (cb ipncHandle chn streamNo).1 then 4 else 0 := by
        rw [ClientCall.outLen, hcb, Option.elim_some]
      simp only [hcb, Option.elim_some] at hdone
      split at hdone
      next hgood =>
        rw [if_pos hgood] at hlen
        refine ⟨by rw [hdone, hlen]; rfl, by rw [hdone]; exact show 4 ≤ recvBuffSize by decide, ?_⟩
        intro _ hplain r _ hdata
        have hzero : (cb ipncHandle chn streamNo).1 = 0 :=
          Int32.le_antisymm (hplain cb hcb) hgood
        rw [hdone] at hdata
        have hword : wordIn r.cmdData 0 = (cb ipncHandle chn streamNo).2 := by
          rw [hdata, wordIn_wordBytes_zero]
        rw [ClientCall.produced, hcb, Option.map_some, hzero, ClientCall.returns, hword]
        exact ⟨rfl, show ¬ (0 : Int32) < 0 by decide⟩
      next hbad =>
        rw [if_neg hbad] at hlen
        exact controls_none hdone hlen

/-- The arguments that are sent are those that the callback is given. -/
theorem controls_arg {CT : IpncProtocolCbTable} {call : ClientCall} {α : Type} {cb : Option α}
    {ret : α → Int32}
    (hdone : call.controlled CT =
      cb.elim (notControlled call.request.head) fun cb => ⟨call.request.head, ret cb, []⟩)
    (hproduced : call.produced CT = cb.map fun cb => (ret cb, .none))
    (hlen : call.outLen CT = 0)
    (hreturns : ∀ r, call.returns r = (r.cmdHdr.result, .none)) : Controls CT call := by
  refine @controls_result CT call Unit (cb.map fun cb _ => ret cb) () ?_ ?_ hlen hreturns
  · rw [hdone]
    cases cb <;> rfl
  · rw [hproduced, Option.map_map]
    rfl

theorem controls (CT : IpncProtocolCbTable) (call : ClientCall) : Controls CT call := by
  cases call with
  | connectIpnc cmd =>
      refine @controls_handle CT _ _ CT.connectCb (fun cb => cb cmd.val 0)
        (fun h => { (ClientCall.connectIpnc cmd).request.head with ipncHandle := h })
        CmdHead.ipncHandle ?_ rfl rfl (fun _ => rfl) fun _ _ => rfl
      obtain ⟨_ | _, _, _, _, _, _, _, _, _, _, _, _, _, _, _⟩ := CT <;> rfl
  | disconnectIpnc ipncHandle => exact controls_result rfl rfl rfl fun _ => rfl
  | logonIpnc ipncHandle =>
      refine @controls_handle CT _ _ CT.logonCb (fun cb => cb ipncHandle 0)
        (fun h => { (ClientCall.logonIpnc ipncHandle).request.head with logonHandle := h })
        CmdHead.logonHandle ?_ rfl rfl (fun _ => rfl) fun _ _ => rfl
      obtain ⟨_, _, _, _, _, _, _ | _, _, _, _, _, _, _, _, _⟩ := CT <;> rfl
  | logoutIpnc logonHandle => exact controls_result rfl rfl rfl fun _ => rfl
  | getParam logonHandle paramCmd dataSize =>
      refine @controls_data CT _ _ CT.getParamCb (fun cb => (cb logonHandle paramCmd).len)
        (fun cb => if 0 < (cb logonHandle paramCmd).len then (cb logonHandle paramCmd).data else [])
        ?_ rfl ?_ (fun cb _ => ?_) fun _ => rfl
      · obtain ⟨_, _, _, _, _, _, _, _, _, _, _, _ | _, _, _, _⟩ := CT <;> rfl
      · rw [ClientCall.outLen]
        congr 1
        funext cb
        rw [ParamAnswer.length_out]
      · rw [ParamAnswer.length_out]
        exact (cb logonHandle paramCmd).len_le
  | setParam logonHandle paramCmd pParam =>
      refine @controls_arg CT _ _ CT.setParamCb (fun cb => cb logonHandle paramCmd
        (ClientCall.setParam logonHandle paramCmd pParam).request.sentData pParam.size)
        ?_ rfl rfl fun _ => rfl
      obtain ⟨_, _, _, _, _, _, _, _, _, _, _, _, _ | _, _, _⟩ := CT <;> rfl
  | sendPtzCmd logonHandle ptzPack =>
      refine @controls_arg CT _ _ CT.ptzControl (fun cb => cb logonHandle
        (ClientCall.sendPtzCmd logonHandle ptzPack).request.sentData) ?_ rfl rfl fun _ => rfl
      obtain ⟨_, _, _, _, _, _, _, _, _, _, _, _, _, _ | _, _⟩ := CT <;> rfl
  | setSearchCfg pSearCfg => exact controls_result rfl rfl rfl fun _ => rfl
  | startSearch handle | stopSearch handle =>
      exact controls_result (controlResult_handle _ _ handle) rfl rfl fun _ => rfl
  | getSearch handle =>
      refine @controls_data CT _ _ CT.getSearchCb (fun cb => (cb handle).1)
        (fun cb => if 0 < (cb handle).1 then (cb handle).2.val else []) ?_ rfl ?_ (fun cb _ => ?_)
        fun _ => rfl
      · have hdone : (ClientCall.getSearch handle).controlled CT =
            CT.getSearchCb.elim (notControlled (ClientCall.getSearch handle).request.head)
              fun cb =>
                let r := cb (wordIn (wordBytes handle) 0)
                ⟨(ClientCall.getSearch handle).request.head, r.1,
                  if r.1 ≤ 0 then [] else r.2.val⟩ := by
          obtain ⟨_, _, _, _, _, _ | _, _, _, _, _, _, _, _, _, _⟩ := CT <;> rfl
        simp only [hdone, wordIn_wordBytes_zero, ← Int32.not_lt, ite_not]
      · rw [ClientCall.outLen]
        congr 1
        funext cb
        split
        next => exact (cb handle).2.property.symm
        next => rfl
      · split
        next => rw [(cb handle).2.property]; decide
        next => exact Nat.zero_le _
  | testAlive cmd => exact controls_result rfl rfl rfl fun _ => rfl
  | startGetStream ipncHandle chn streamNo => exact controls_startGetStream CT _ _ _
  | stopGetStream ipncHandle streamHandle | requestIframe ipncHandle streamHandle =>
      refine controls_result (controlResult_handle _ _ streamHandle) ?_ rfl fun _ => rfl
      rw [Option.map_map]
      rfl

/-! ## Every call -/

/-- A call that goes well leaves nothing unread, and has failed or returned what the callback
produced for it. -/
theorem Client.step_law {c c' : Client} {call : ClientCall × CallEnv} (hclean : c.conn.Clean)
    (hmeets : c.Meets call) (h : c.step call = some c') : RpcLaw c' := by
  obtain ⟨call, env⟩ := call
  obtain ⟨⟨conn', ret, out⟩, hrun, rfl⟩ := Option.map_eq_some_iff.1 h
  have hfailed : ∀ conn : Conn, conn.Clean → ∀ out,
      RpcLaw ⟨conn, some ⟨call, env.cbTable, -1, out⟩⟩ := fun conn hconn out =>
    ⟨hconn, fun r hr => by
      obtain rfl := Option.some.inj hr
      exact .inl neg_one_lt⟩
  rw [ClientCall.run] at hrun
  split at hrun
  next hgone =>
    obtain ⟨rfl, rfl, rfl⟩ := Option.some.inj hrun
    exact hfailed _ hclean _
  next hopen =>
    split at hrun
    next =>
      obtain ⟨rfl, rfl, rfl⟩ := Option.some.inj hrun
      exact hfailed _ (.inl rfl) _
    next hhead =>
      split at hrun
      next =>
        obtain ⟨rfl, rfl, rfl⟩ := Option.some.inj hrun
        exact hfailed _ (.inl rfl) _
      next hdata =>
        obtain ⟨conn, hanswer, hrun⟩ := Option.bind_eq_some_iff.1 hrun
        obtain ⟨r, hrecv, hret⟩ := Option.map_eq_some_iff.1 hrun
        have hreceives : call.Receives conn.gone env := by
          rcases hmeets with hgone | hno | hno | hreceives
          · exact absurd hgone hopen
          · exact absurd (by rw [hno]; rfl) hhead
          · exact absurd (by rw [hno]; rfl) hdata
          · exact hreceives conn hanswer
        obtain ⟨hrequests, hcoming⟩ := hclean.resolve_left hopen
        have hserved := answer_served hrequests hcoming hanswer
        have hcontrols := controls env.cbTable call
        rw [serverAnswer_eq] at hserved
        obtain ⟨hgot, hplain⟩ := recvCmdResponse_got rfl rfl hcontrols.length_le
          hcontrols.length hserved.begins (hserved.whole.imp_right And.right) hreceives hrecv
        have hconn : ({ conn with coming := r.coming } : Conn).Clean := by
          rcases hserved.whole with hgone | ⟨hrequests, -⟩
          · exact .inl hgone
          · exact hgot.clean.imp_right fun hnil => ⟨hrequests, hnil⟩
        split at hret
        next =>
          obtain ⟨rfl, rfl, rfl⟩ := hret
          exact hfailed _ hconn _
        next hnonneg =>
          obtain ⟨hresult, hhdr, hdata⟩ := hgot.ret.resolve_left hnonneg
          rw [hresult] at hnonneg
          obtain ⟨hproduced, hreturns⟩ := hcontrols.returns hnonneg
            (hplain.resolve_left (hresult ▸ hnonneg)) r hhdr hdata
          simp only [if_neg hreturns] at hret
          obtain ⟨rfl, rfl, rfl⟩ := hret
          refine ⟨hconn, fun s hs => ?_⟩
          obtain rfl := Option.some.inj hs
          exact .inr hproduced

/-- Calls of a client on one connection that all go well: after each of them nothing is unread
unless the connection is closed, and the call has failed or returned what the callback produced
for it. -/
theorem rpc_law (calls : List (ClientCall × CallEnv))
    (hmeets : ∀ pre call c, pre ++ [call] <+: calls →
      pre.foldlM Client.step ipncClientInit = some c → c.Meets call) :
    ∀ pre c, pre <+: calls → pre.foldlM Client.step ipncClientInit = some c → RpcLaw c :=
  Run.good_of_meets (fun hlaw hstep hok => Client.step_law hlaw.1 hok hstep)
    ⟨.inr ⟨rfl, rfl⟩, fun _ hr => by cases hr⟩ hmeets

/-- A camera process whose callback for a disconnect returns 5. -/
def disconnecting : IpncProtocolCbTable where
  connectCb := none
  disconnectCb := some fun _ => 5
  searchCfgCb := none
  startSearchCb := none
  stopSearchCb := none
  getSearchCb := none
  logonCb := none
  logoutCb := none
  startGetStreamCb := none
  stopGetStreamCb := none
  requestIFrameCb := none
  getParamCb := none
  setParamCb := none
  ptzControl := none
  testIpcStatus := none

/-- On the stack is the header of an answer before, with the result 7. -/
def answeredBefore (clientEvents : List RecvEvent) : CallEnv where
  sendsHead := true
  sendsData := true
  cbTable := disconnecting
  serverEvents := [.got 32]
  cut := none
  clientEvents := clientEvents
  stale := CmdHead.bytes ⟨protocolResponseMagic, 1, 0, ipncLogon, 0, 0, 7, 0⟩
  length_stale := rfl
  malloc := true

theorem rpc_law_disconnect :
    ∃ c, [(ClientCall.disconnectIpnc 1, answeredBefore [.got 32])].foldlM Client.step
      ipncClientInit = some c ∧ RpcLaw c := by
  refine ⟨_, rfl, rpc_law [(.disconnectIpnc 1, answeredBefore [.got 32])]
    (fun pre call c hpre _ => ?_) _ _ (List.prefix_refl _) rfl⟩
  have hlen := hpre.length_le
  rw [List.length_append, List.length_singleton, List.length_singleton] at hlen
  obtain rfl : pre = [] := List.length_eq_zero_iff.1 (by omega)
  obtain rfl := (List.cons_prefix_cons.1 hpre).1
  refine .inr (.inr (.inr fun conn _ n events htaken => ?_))
  have hall : taken netMaxBlockRecvTime cmdHeadLen [.got 32] = (some 32, []) := rfl
  obtain ⟨hn, -⟩ := Prod.mk.inj (hall.symm.trans htaken)
  obtain rfl := Option.some.inj hn
  exact ⟨trivial, .inl rfl⟩

/-- The header comes in four parts: the client takes three, which the rest of the header on its
stack makes up for. -/
theorem not_rpc_law :
    ∃ (calls : List (ClientCall × CallEnv)) (c : Client),
      calls.foldlM Client.step ipncClientInit = some c ∧ ¬ RpcLaw c := by
  refine ⟨[(.disconnectIpnc 1, answeredBefore [.got 1, .got 1, .got 1])], _, rfl, fun hlaw => ?_⟩
  have htransparent := hlaw.2 _ rfl
  have hlast : ∀ r : Returned, r.ret = 7 →
      r.call.produced r.cbTable = some (5, .none) → ¬ r.Transparent := by
    rintro r hret hproduced (hneg | heq)
    · rw [hret] at hneg
      exact absurd hneg (by decide)
    · rw [hproduced, hret] at heq
      exact absurd (Prod.mk.inj (Option.some.inj heq)).1 (by decide)
  exact hlast _ rfl rfl htransparent

end Nvr.Ipnc
