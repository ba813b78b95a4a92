import Nvr.Lib.WordRecord

/-!
# The client's side of the command server

`nvr_lib_common.c`: one connection to the server is kept from call to call. A
command is sent on it and its answer received, with the receive helper of
`net_api.c`. What the system and the server do during a call comes with the
call.
-/

namespace Nvr.Client

open WordRecord

/-- `NVR_NET_HDR_S`. -/
structure NetHdr where
  u32MagicFlag : UInt32
  u32PacketSize : UInt32
  u16CmdType : UInt16
  s8Chn : Int8
  s8ErrNo : Int8
  deriving DecidableEq, Repr

/-- `sizeof(NVR_NET_HDR_S)`. -/
def netHdrLen : Nat := 12

/-- `RECV_BUFF_SIZE`. -/
def recvBuffSize : Nat := 4096 * 2

def NetHdr.bytes (hdr : NetHdr) : List UInt8 :=
  wordBytes hdr.u32MagicFlag ++ wordBytes hdr.u32PacketSize ++
    [UInt8.ofNat hdr.u16CmdType.toNat, UInt8.ofNat (hdr.u16CmdType.toNat / 256),
      hdr.s8Chn.toUInt8, hdr.s8ErrNo.toUInt8]

/-- A header received over zeros, however much of it has come. -/
def NetHdr.ofBytes (bytes : List UInt8) : NetHdr where
  u32MagicFlag := bytesWord (bytes.getD 0 0) (bytes.getD 1 0) (bytes.getD 2 0) (bytes.getD 3 0)
  u32PacketSize := bytesWord (bytes.getD 4 0) (bytes.getD 5 0) (bytes.getD 6 0) (bytes.getD 7 0)
  u16CmdType := UInt16.ofNat ((bytes.getD 8 0).toNat + 256 * (bytes.getD 9 0).toNat)
  s8Chn := (bytes.getD 10 0).toInt8
  s8ErrNo := (bytes.getD 11 0).toInt8

/-- A response of the server. -/
structure Response where
  u32MagicFlag : UInt32
  u16CmdType : UInt16
  s8Chn : Int8
  s8ErrNo : Int8
  payload : List UInt8
  length_le : payload.length ≤ recvBuffSize

def Response.hdr (r : Response) : NetHdr :=
  ⟨r.u32MagicFlag, UInt32.ofNat r.payload.length, r.u16CmdType, r.s8Chn, r.s8ErrNo⟩

def Response.bytes (r : Response) : List UInt8 := r.hdr.bytes ++ r.payload

/-! ## Receiving -/

/-- What one `recv` does: it returns some bytes, nothing for now (`EINTR`, or
`EAGAIN` where the socket would not wait), the end of the connection, or
another error. -/
inductive RecvEvent where
  | got (n : Nat)
  | again
  | closed
  | error
  deriving DecidableEq, Repr

/-- What a receive returns, the bytes that it leaves unread or still to come on
the connection, and the events that it leaves. -/
structure Received where
  ret : Option (List UInt8)
  coming : List UInt8
  events : List RecvEvent
  deriving DecidableEq, Repr

/-- `NET_DEFAULT_RECV_TIMEOUT`: so many times in a row nothing may have come. -/
def netDefaultRecvTimeout : Nat := 500

/-- The loop of `net_tcp_noblock_recv`, with what it has received and the count
of its tries. No value is given where the events are not those of a call. -/
def recvLoop (nSize : Nat) (once : Bool) (recved : List UInt8) (nTryTime : Nat)
    (coming : List UInt8) (events : List RecvEvent) : Option Received :=
  if nSize ≤ recved.length then some ⟨some recved, coming, events⟩
  else
    match events with
    | [] => none
    | .closed :: rest => some ⟨none, coming, rest⟩
    | .error :: rest => some ⟨none, coming, rest⟩
    | .again :: rest =>
        if nTryTime < netDefaultRecvTimeout then
          recvLoop nSize once recved (nTryTime + 1) coming rest
        else some ⟨some recved, coming, rest⟩
    | .got n :: rest =>
        if n = 0 ∨ nSize - recved.length < n ∨ coming.length < n then none
        else if once then some ⟨some (recved ++ coming.take n), coming.drop n, rest⟩
        else recvLoop nSize once (recved ++ coming.take n) 0 (coming.drop n) rest

/-- `net_tcp_noblock_recv` on an open socket; `none` as what is returned stands
for -1. -/
def netTcpNoblockRecv (bufSize rcvSize : Int32) (coming : List UInt8)
    (events : List RecvEvent) : Option Received :=
  if bufSize ≤ 0 then some ⟨none, coming, events⟩
  else
    let nSize := if rcvSize ≤ 0 ∨ bufSize < rcvSize then bufSize else rcvSize
    recvLoop nSize.toInt.toNat (rcvSize ≤ 0) [] 0 coming events

/-! ## A command -/

/-- A call of `nvr_send_cmd`, with what happens during it: whether a connection
is made if there is none, whether the whole command is sent, the response that
the server gives to it sooner or later, and the events at its receives. -/
structure Call where
  sendBuf : Option (List UInt8)
  /-- The size of the receive buffer, if one is given. -/
  recvBuf : Option Int32
  connects : Bool
  sends : Bool
  answer : Option Response
  events : List RecvEvent

/-- What a call leaves: the connection with what is unread or still to come on
it, what the call returns, what it has received and what it has copied to the
receive buffer. -/
structure Done where
  sock : Option (List UInt8)
  ret : Int32
  received : List UInt8
  copied : List UInt8
  events : List RecvEvent
  deriving DecidableEq, Repr

/-- `NVR_NET_ERR_SEND_FAIL`. -/
def netErrSendFail : Int32 := -13

/-- `net_close_socket` and then the failure. -/
def closed (received : List UInt8) (events : List RecvEvent) : Done :=
  ⟨none, -1, received, [], events⟩

/-- `nvr_send_cmd` after a header without an error that announces a payload. -/
def recvPayload (recvBuf : Option Int32) (netHdr : NetHdr) (head coming : List UInt8)
    (events : List RecvEvent) : Option Done :=
  (netTcpNoblockRecv (Int32.ofNat recvBuffSize) netHdr.u32PacketSize.toInt32 coming events).map
    fun r =>
      match r.ret with
      | none => closed head r.events
      | some recved =>
          let recvBufTmp := recved ++ List.replicate (recvBuffSize - recved.length) 0
          match recvBuf with
          | none =>
              ⟨some r.coming, netHdr.u32PacketSize.toInt32, head ++ recved, [], r.events⟩
          | some recvBufSize =>
              if recvBufSize.toUInt32 < netHdr.u32PacketSize then
                closed (head ++ recved) r.events
              else
                ⟨some r.coming, netHdr.u32PacketSize.toInt32, head ++ recved,
                  recvBufTmp.take netHdr.u32PacketSize.toNat, r.events⟩

/-- `nvr_send_cmd` after the command has been sent. -/
def recvAnswer (recvBuf : Option Int32) (coming : List UInt8) (events : List RecvEvent) :
    Option Done :=
  (netTcpNoblockRecv (Int32.ofNat netHdrLen) (Int32.ofNat netHdrLen) coming events).bind fun r =>
    match r.ret with
    | none => some (closed [] r.events)
    | some head =>
        let netHdr := NetHdr.ofBytes head
        if netHdr.s8ErrNo < 0 then some (closed head r.events)
        else if 0 < netHdr.u32PacketSize then
          recvPayload recvBuf netHdr head r.coming r.events
        else some ⟨some r.coming, netHdr.u32PacketSize.toInt32, head, [], r.events⟩

/-- `nvr_send_cmd`, with the connection that `g_nvrsock` is. -/
def nvrSendCmd (sock : Option (List UInt8)) (call : Call) : Option Done :=
  match call.sendBuf with
  | none => some ⟨sock, -1, [], [], call.events⟩
  | some sendBuf =>
      if sendBuf.length < netHdrLen then some ⟨sock, -1, [], [], call.events⟩
      else if sock = none ∧ !call.connects then some (closed [] call.events)
      else if !call.sends then some { closed [] call.events with ret := netErrSendFail }
      else
        recvAnswer call.recvBuf (sock.getD [] ++ (call.answer.elim [] Response.bytes)) call.events

/-! ## A client process -/

/-- A call that has returned, with what was on the connection before it. -/
structure Past where
  stale : List UInt8
  call : Call
  done : Done

/-- A client process: its connection, and its calls so far. -/
structure Process where
  sock : Option (List UInt8)
  past : List Past

/-- A process after `nvr_lib_init`, which may have failed to connect. -/
def nvrLibInit (connects : Bool) : Process := ⟨if connects then some [] else none, []⟩

/-- One call. Its events are those that it meets, no more and no less. -/
def Process.send (p : Process) (call : Call) : Option Process :=
  (nvrSendCmd p.sock call).bind fun done =>
    if done.events = [] then some ⟨done.sock, p.past ++ [⟨p.sock.getD [], call, done⟩]⟩ else none

def Sends (p : Process) (call : Call) (p' : Process) : Prop := p.send call = some p'

/-- The call has failed, or it has received the response to its command, with
nothing before it, and the payload is in the receive buffer if there is one. -/
def Past.Matched (c : Past) : Prop :=
  0 ≤ c.done.ret → c.stale = [] ∧ ∃ r, c.call.answer = some r ∧ c.done.received = r.bytes ∧
    c.done.ret = Int32.ofNat r.payload.length ∧
    (c.call.recvBuf.isSome → c.done.copied = r.payload)

/-- Every call is matched, and there is nothing unread and nothing to come on a
connection that is open. -/
structure CommandsMatched (p : Process) : Prop where
  matched : ∀ c ∈ p.past, c.Matched
  quiet : ∀ coming, p.sock = some coming → coming = []

/-- Nothing has come often enough in a row for a receive to give up. -/
def GivesUp (call : Call) : Prop :=
  List.replicate (netDefaultRecvTimeout + 1) RecvEvent.again <:+: call.events

end Nvr.Client
