import Nvr.Lib.Buffer
import Nvr.Server.LibCommon

/-!
# Calls to a camera process

The client of `ipnc_lib_client.c` and the server of `ipnc_lib_server.c`, on one local
connection. A call sends a header and its arguments, the server receives them, calls back what is
behind the command, and answers with a header and what came out; the client receives that.

A send on the client's blocking socket takes all its bytes, or fails where the server has closed.
The server may close at any point, its answers then stopping short. What the callbacks produce, how
the sockets cut the bytes, and what the header on the client's stack holds at first, come with the
call.
-/

namespace Nvr.Ipnc

open WordRecord Client

/-! ## The format -/

/-- `PROCOTOL_REQUEST_MAGIC`. -/
def procotolRequestMagic : UInt32 := 0x34ab12cd

/-- `PROTOCOL_RESPONSE_MAGIC`. -/
def protocolResponseMagic : UInt32 := 0xab34cd12

/-- `CmdHead`. -/
structure CmdHead where
  magic : UInt32
  ipncHandle : UInt32
  logonHandle : UInt32
  cmd : UInt32
  paramCmd : UInt32
  response : UInt32
  result : Int32
  cmdDataLen : Int32
  deriving DecidableEq

/-- `sizeof(CmdHead)`. -/
def cmdHeadLen : Nat := 32

def CmdHead.bytes (hdr : CmdHead) : List UInt8 :=
  wordBytes hdr.magic ++ wordBytes hdr.ipncHandle ++ wordBytes hdr.logonHandle ++
    wordBytes hdr.cmd ++ wordBytes hdr.paramCmd ++ wordBytes hdr.response ++
    wordBytes hdr.result.toUInt32 ++ wordBytes hdr.cmdDataLen.toUInt32

def CmdHead.ofBytes (buf : List UInt8) : CmdHead where
  magic := wordIn buf 0
  ipncHandle := wordIn buf 4
  logonHandle := wordIn buf 8
  cmd := wordIn buf 12
  paramCmd := wordIn buf 16
  response := wordIn buf 20
  result := (wordIn buf 24).toInt32
  cmdDataLen := (wordIn buf 28).toInt32

/-- `IPNC_CONNECT` and so on. -/
def ipncConnect : UInt32 := 0
def ipncDisconnect : UInt32 := 1
def ipncStartSearch : UInt32 := 2
def ipncStopSearch : UInt32 := 3
def ipncGetSearch : UInt32 := 4
def ipncSearchCfg : UInt32 := 5
def ipncLogon : UInt32 := 6
def ipncLogout : UInt32 := 7
def ipncGetParam : UInt32 := 8
def ipncSetParam : UInt32 := 9
def ipncStartGetStream : UInt32 := 10
def ipncStopGetStream : UInt32 := 11
def ipncRequestIframe : UInt32 := 12
def ipncPtzCtrl : UInt32 := 0x1002
def ipncTestIpcStatus : UInt32 := 0x1003

/-- `sizeof(IpncConnect)`. -/
def ipncConnectLen : Nat := 88

/-- `sizeof(IpncChannel)`. -/
def ipncChannelLen : Nat := 16

/-- `sizeof(IPNC_NET_SEARCH_RES_S)`. -/
def ipncNetSearchResLen : Nat := 1124

/-- `sizeof(IPNC_NET_SEARCH_CFG_REQ_S)`. -/
def ipncNetSearchCfgReqLen : Nat := 1172

/-- The bytes of a record of a fixed size. -/
abbrev Bytes (n : Nat) : Type := { bytes : List UInt8 // bytes.length = n }

/-! ## The server -/

/-- What `getParamCb` returns, and what it has written if that is a length. -/
structure ParamAnswer where
  len : Int32
  data : List UInt8
  length_data : 0 < len → data.length = len.toInt.toNat
  length_le : data.length ≤ recvBuffSize

/-- `IpncProtocolCbTable`. What a callback writes through a pointer is a result of it; a handle
is given its old value. -/
structure IpncProtocolCbTable where
  connectCb : Option (List UInt8 → UInt32 → Int32 × UInt32)
  disconnectCb : Option (UInt32 → Int32)
  searchCfgCb : Option (List UInt8 → Int32)
  startSearchCb : Option (UInt32 → Int32)
  stopSearchCb : Option (UInt32 → Int32)
  getSearchCb : Option (UInt32 → Int32 × Bytes ipncNetSearchResLen)
  logonCb : Option (UInt32 → UInt32 → Int32 × UInt32)
  logoutCb : Option (UInt32 → Int32)
  startGetStreamCb : Option (UInt32 → UInt32 → UInt32 → Int32 × UInt32)
  stopGetStreamCb : Option (UInt32 → UInt32 → Int32)
  requestIFrameCb : Option (UInt32 → UInt32 → Int32)
  getParamCb : Option (UInt32 → UInt32 → ParamAnswer)
  setParamCb : Option (UInt32 → UInt32 → List UInt8 → Int32 → Int32)
  ptzControl : Option (UInt32 → List UInt8 → Int32)
  testIpcStatus : Option (List UInt8 → Int32)

/-- What `ipnc_server_control` returns, the header that it may have put a handle in, and the
`outArgLen` bytes of `outArg`. -/
structure Controlled where
  cmdHdr : CmdHead
  ret : Int32
  outArg : List UInt8

/-- `-EINVAL`. -/
def einval : Int32 := -22

section

variable (CT : IpncProtocolCbTable) (cmdHdr : CmdHead) (arg : List UInt8)

/-- The end of `ipnc_server_control`, where nothing is called back. -/
def notControlled : Controlled := ⟨cmdHdr, -1, []⟩

/-- A command whose callback is given something and only returns a result. -/
def controlResult {α : Type} (cb : Option (α → Int32)) (a : α) : Controlled :=
  match cb with
  | some cb => ⟨cmdHdr, cb a, []⟩
  | none => notControlled cmdHdr

/-- `ipnc_server_control`. The buffer is zero behind what has been received. -/
def ipncServerControl (argLen : Int32) : Controlled :=
  if cmdHdr.cmd = ipncConnect then
    if argLen ≠ Int32.ofNat ipncConnectLen then ⟨cmdHdr, einval, []⟩
    else
      match CT.connectCb with
      | some cb =>
          let r := cb arg cmdHdr.ipncHandle
          ⟨{ cmdHdr with ipncHandle := r.2 }, r.1, []⟩
      | none => notControlled cmdHdr
  else if cmdHdr.cmd = ipncDisconnect then controlResult cmdHdr CT.disconnectCb cmdHdr.ipncHandle
  else if cmdHdr.cmd = ipncStartSearch then controlResult cmdHdr CT.startSearchCb (wordIn arg 0)
  else if cmdHdr.cmd = ipncStopSearch then controlResult cmdHdr CT.stopSearchCb (wordIn arg 0)
  else if cmdHdr.cmd = ipncGetSearch then
    match CT.getSearchCb with
    | some cb =>
        let r := cb (wordIn arg 0)
        ⟨cmdHdr, r.1, if r.1 ≤ 0 then [] else r.2.val⟩
    | none => notControlled cmdHdr
  else if cmdHdr.cmd = ipncSearchCfg then controlResult cmdHdr CT.searchCfgCb arg
  else if cmdHdr.cmd = ipncLogon then
    match CT.logonCb with
    | some cb =>
        let r := cb cmdHdr.ipncHandle cmdHdr.logonHandle
        ⟨{ cmdHdr with logonHandle := r.2 }, r.1, []⟩
    | none => notControlled cmdHdr
  else if cmdHdr.cmd = ipncLogout then controlResult cmdHdr CT.logoutCb cmdHdr.logonHandle
  else if cmdHdr.cmd = ipncGetParam then
    match CT.getParamCb with
    | some cb =>
        let r := cb cmdHdr.logonHandle cmdHdr.paramCmd
        ⟨cmdHdr, r.len, if 0 < r.len then r.data else []⟩
    | none => notControlled cmdHdr
  else if cmdHdr.cmd = ipncSetParam then
    match CT.setParamCb with
    | some cb => ⟨cmdHdr, cb cmdHdr.logonHandle cmdHdr.paramCmd arg argLen, []⟩
    | none => notControlled cmdHdr
  else if cmdHdr.cmd = ipncStartGetStream then
    if argLen ≠ Int32.ofNat ipncChannelLen then ⟨cmdHdr, einval, []⟩
    else
      match CT.startGetStreamCb with
      | some cb =>
          let r := cb cmdHdr.ipncHandle (wordIn arg 0) (wordIn arg 4)
          if 0 ≤ r.1 then ⟨cmdHdr, 0, wordBytes r.2⟩ else notControlled cmdHdr
      | none => notControlled cmdHdr
  else if cmdHdr.cmd = ipncStopGetStream then
    if argLen ≠ 4 then ⟨cmdHdr, einval, []⟩
    else controlResult cmdHdr (CT.stopGetStreamCb.map (· cmdHdr.ipncHandle)) (wordIn arg 0)
  else if cmdHdr.cmd = ipncRequestIframe then
    if argLen ≠ 4 then ⟨cmdHdr, einval, []⟩
    else controlResult cmdHdr (CT.requestIFrameCb.map (· cmdHdr.ipncHandle)) (wordIn arg 0)
  else if cmdHdr.cmd = ipncPtzCtrl then
    controlResult cmdHdr (CT.ptzControl.map (· cmdHdr.logonHandle)) arg
  else if cmdHdr.cmd = ipncTestIpcStatus then controlResult cmdHdr CT.testIpcStatus arg
  else notControlled cmdHdr

/-- The answer of `ipnc_server_read_package`. -/
def serverAnswer : List UInt8 :=
  let done := ipncServerControl CT cmdHdr arg cmdHdr.cmdDataLen
  let sent : CmdHead :=
    { done.cmdHdr with
      result := done.ret
      magic := protocolResponseMagic
      response := 0
      cmdDataLen := Int32.ofNat done.outArg.length }
  if cmdHdr.response ≠ 0 then sent.bytes ++ done.outArg else []

end

/-- What `ipnc_server_read_package` leaves: what is unread of the requests, and the answer, or
none where it closes the connection. -/
structure ServerRead where
  unread : List UInt8
  answer : Option (List UInt8)
  deriving DecidableEq

/-- `ipnc_server_read_package`, on the bytes that the client has sent. -/
def ipncServerReadPackage (CT : IpncProtocolCbTable) (coming : List UInt8)
    (events : List RecvEvent) : Option ServerRead :=
  (netTcpNoblockRecv (Int32.ofNat cmdHeadLen) (Int32.ofNat cmdHeadLen) coming events).bind fun r =>
    match r.ret with
    | none => some ⟨r.coming, none⟩
    | some head =>
        if head.length ≠ cmdHeadLen then some ⟨r.coming, none⟩
        else
          let cmdHdr := CmdHead.ofBytes head
          if cmdHdr.magic ≠ procotolRequestMagic then some ⟨r.coming, none⟩
          else if 0 < cmdHdr.cmdDataLen then
            (netTcpNoblockRecv (Int32.ofNat recvBuffSize) cmdHdr.cmdDataLen r.coming r.events).map
              fun s =>
                match s.ret with
                | none => ⟨s.coming, none⟩
                | some arg =>
                    if arg.length ≠ cmdHdr.cmdDataLen.toInt.toNat then ⟨s.coming, none⟩
                    else ⟨s.coming, some (serverAnswer CT cmdHdr arg)⟩
          else some ⟨r.coming, some (serverAnswer CT cmdHdr [])⟩

/-! ## The client -/

/-- `NET_MAX_BLOCK_RECV_TIME`. -/
def netMaxBlockRecvTime : Nat := 3

/-- The loop of `net_tcp_block_recv`, with the number of tries left. The connection ends or fails
only when the server has closed it. -/
def blockRecvLoop (gone : Bool) (nleft : Nat) (recved coming : List UInt8) :
    Nat → List RecvEvent → Option Received
  | 0, events => some ⟨some recved, coming, events⟩
  | tries + 1, events =>
      if nleft = 0 then some ⟨some recved, coming, events⟩
      else
        match events with
        | [] => none
        | .error :: rest => if gone then some ⟨none, coming, rest⟩ else none
        | .closed :: rest =>
            if gone ∧ coming = [] then some ⟨some recved, coming, rest⟩ else none
        | .again :: rest => blockRecvLoop gone nleft recved coming tries rest
        | .got n :: rest =>
            if n = 0 ∨ nleft < n ∨ coming.length < n then none
            else
              blockRecvLoop gone (nleft - n) (recved ++ coming.take n) (coming.drop n) tries rest

/-- `net_tcp_block_recv` of a number of bytes that there is room for; `none` as what is returned
stands for -1, and the bytes for the count of them. -/
def netTcpBlockRecv (gone : Bool) (rcvSize : Nat) (coming : List UInt8)
    (events : List RecvEvent) : Option Received :=
  blockRecvLoop gone rcvSize [] coming netMaxBlockRecvTime events

/-- The connection: whether the server has closed it, the requests that it has not read, and the
bytes that the client has not. -/
structure Conn where
  gone : Bool
  requests : List UInt8
  coming : List UInt8
  deriving DecidableEq

/-- What `recv_cmd_response` leaves: what it returns, the header, the bytes in `cmdData`, and
what is unread. -/
structure Responded where
  ret : Int32
  cmdHdr : CmdHead
  cmdData : List UInt8
  coming : List UInt8

/-- `recv_cmd_response` with the header in `cmdHdr`. -/
def recvCmdData (gone malloc : Bool) (cmdHdr : CmdHead) (dataLen : Int32) (coming : List UInt8)
    (events : List RecvEvent) : Option Responded :=
  if cmdHdr.magic ≠ protocolResponseMagic then some ⟨-1, cmdHdr, [], coming⟩
  else if dataLen ≥ cmdHdr.cmdDataLen ∧ cmdHdr.cmdDataLen > 0 then
    (netTcpBlockRecv gone cmdHdr.cmdDataLen.toInt.toNat coming events).map fun r =>
      match r.ret with
      | none => ⟨-1, cmdHdr, [], r.coming⟩
      | some cmdData => ⟨cmdHdr.result, cmdHdr, cmdData, r.coming⟩
  else if cmdHdr.cmdDataLen > 0 then
    if malloc then
      (netTcpBlockRecv gone cmdHdr.cmdDataLen.toInt.toNat coming events).map fun r =>
        ⟨-1, cmdHdr, [], r.coming⟩
    else some ⟨-1, cmdHdr, [], coming⟩
  else some ⟨cmdHdr.result, cmdHdr, [], coming⟩

/-- `recv_cmd_response`, with what the header on the stack holds at first. -/
def recvCmdResponse (gone malloc : Bool) (stale : List UInt8) (dataLen : Int32)
    (coming : List UInt8) (events : List RecvEvent) : Option Responded :=
  (netTcpBlockRecv gone cmdHeadLen coming events).bind fun r =>
    match r.ret with
    | none => some ⟨-1, CmdHead.ofBytes stale, [], r.coming⟩
    | some head =>
        recvCmdData gone malloc (CmdHead.ofBytes (Buffer.put stale 0 head)) dataLen r.coming r.events

/-- Arguments that the caller gives by a pointer and a size. -/
structure ArgBuf where
  data : Option (List UInt8)
  size : Int32
  fits : ∀ d, data = some d → d.length = size.toInt.toNat

/-- A call of the client's interface that gets as far as sending; `ipnc_client_connect_ipnc` and
`ipnc_client_test_alive` with the record that they have filled. -/
inductive ClientCall
  | connectIpnc (cmd : Bytes ipncConnectLen)
  | disconnectIpnc (ipncHandle : UInt32)
  | logonIpnc (ipncHandle : UInt32)
  | logoutIpnc (logonHandle : UInt32)
  | getParam (logonHandle paramCmd : UInt32) (dataSize : Int32)
  | setParam (logonHandle paramCmd : UInt32) (pParam : ArgBuf)
  | sendPtzCmd (logonHandle : UInt32) (ptzPack : ArgBuf)
  | setSearchCfg (pSearCfg : Bytes ipncNetSearchCfgReqLen)
  | startSearch (handle : UInt32)
  | stopSearch (handle : UInt32)
  | getSearch (handle : UInt32)
  | testAlive (cmd : Bytes ipncConnectLen)
  | startGetStream (ipncHandle chn streamNo : UInt32)
  | stopGetStream (ipncHandle streamHandle : UInt32)
  | requestIframe (ipncHandle streamHandle : UInt32)

/-- What a call sends, and the room that it has for the answer. -/
structure Request where
  ipncHandle : UInt32
  logonHandle : UInt32
  cmd : UInt32
  paramCmd : UInt32
  cmdDataLen : Int32
  cmdData : Option (List UInt8)
  dataLen : Int32

/-- Room in `szRecvBuff`. -/
def szRecvBuffLen : Int32 := Int32.ofNat recvBuffSize

/-- The calls of `send_cmd_head`, `send_cmd_data` and `recv_cmd_response` in each function. -/
def ClientCall.request : ClientCall → Request
  | .connectIpnc cmd => ⟨0, 0, ipncConnect, 0, Int32.ofNat ipncConnectLen, some cmd.val, szRecvBuffLen⟩
  | .disconnectIpnc ipncHandle => ⟨ipncHandle, 0, ipncDisconnect, 0, 0, none, szRecvBuffLen⟩
  | .logonIpnc ipncHandle => ⟨ipncHandle, 0, ipncLogon, 0, 0, none, 0⟩
  | .logoutIpnc logonHandle => ⟨0, logonHandle, ipncLogout, 0, 0, none, 0⟩
  | .getParam logonHandle paramCmd dataSize =>
      ⟨0, logonHandle, ipncGetParam, paramCmd, 0, none, dataSize⟩
  | .setParam logonHandle paramCmd pParam =>
      ⟨0, logonHandle, ipncSetParam, paramCmd, pParam.size, pParam.data, 0⟩
  | .sendPtzCmd logonHandle ptzPack =>
      ⟨0, logonHandle, ipncPtzCtrl, 0, ptzPack.size, ptzPack.data, 0⟩
  | .setSearchCfg pSearCfg =>
      ⟨0, 0, ipncSearchCfg, 0, Int32.ofNat ipncNetSearchCfgReqLen, some pSearCfg.val, szRecvBuffLen⟩
  | .startSearch handle => ⟨0, 0, ipncStartSearch, 0, 4, some (wordBytes handle), szRecvBuffLen⟩
  | .stopSearch handle => ⟨0, 0, ipncStopSearch, 0, 4, some (wordBytes handle), szRecvBuffLen⟩
  | .getSearch handle =>
      ⟨0, 0, ipncGetSearch, 0, 4, some (wordBytes handle), Int32.ofNat ipncNetSearchResLen⟩
  | .testAlive cmd =>
      ⟨0, 0, ipncTestIpcStatus, 0, Int32.ofNat ipncConnectLen, some cmd.val, szRecvBuffLen⟩
  | .startGetStream ipncHandle chn streamNo =>
      ⟨ipncHandle, 0, ipncStartGetStream, 0, Int32.ofNat ipncChannelLen,
        some (wordBytes chn ++ wordBytes streamNo ++ wordBytes 0 ++ wordBytes streamNo), szRecvBuffLen⟩
  | .stopGetStream ipncHandle streamHandle =>
      ⟨ipncHandle, 0, ipncStopGetStream, 0, 4, some (wordBytes streamHandle), szRecvBuffLen⟩
  | .requestIframe ipncHandle streamHandle =>
      ⟨ipncHandle, 0, ipncRequestIframe, 0, 4, some (wordBytes streamHandle), szRecvBuffLen⟩

/-- What comes out of a call besides its result. -/
inductive Output
  | none
  | handle (h : UInt32)
  | data (bytes : List UInt8)
  deriving DecidableEq

/-- What a call returns when `recv_cmd_response` has not failed. -/
def ClientCall.returns (call : ClientCall) (r : Responded) : Int32 × Output :=
  match call with
  | .connectIpnc _ => (r.cmdHdr.result, .handle r.cmdHdr.ipncHandle)
  | .logonIpnc _ => (r.cmdHdr.result, .handle r.cmdHdr.logonHandle)
  | .getParam _ _ _ => (r.cmdHdr.result, .data r.cmdData)
  | .getSearch _ => (r.cmdHdr.result, .data r.cmdData)
  | .startGetStream _ _ _ => (0, .handle (wordIn r.cmdData 0))
  | _ => (r.cmdHdr.result, .none)

/-- `send_cmd_head`. -/
def Request.head (q : Request) : CmdHead where
  magic := procotolRequestMagic
  ipncHandle := q.ipncHandle
  logonHandle := q.logonHandle
  cmd := q.cmd
  paramCmd := q.paramCmd
  response := 1
  result := 0
  cmdDataLen := q.cmdDataLen

/-- What `send_cmd_data` sends. -/
def Request.sentData (q : Request) : List UInt8 :=
  if 0 < q.cmdDataLen then q.cmdData.getD [] else []

/-- What happens during a call: whether the connection still takes the header and the arguments,
the callbacks, the events at the server's receives, where the server closes its answer short, the
events at the client's receives, the header on its stack, and whether `malloc` succeeds. -/
structure CallEnv where
  sendsHead : Bool
  sendsData : Bool
  cbTable : IpncProtocolCbTable
  serverEvents : List RecvEvent
  cut : Option Nat
  clientEvents : List RecvEvent
  stale : List UInt8
  length_stale : stale.length = cmdHeadLen
  malloc : Bool

/-- The server's part of a call: it closes, or its answer comes, all of it or up to where it is
cut. -/
def Conn.answer (conn : Conn) (sent : List UInt8) (env : CallEnv) : Option Conn :=
  (ipncServerReadPackage env.cbTable (conn.requests ++ sent) env.serverEvents).map fun r =>
    match r.answer, env.cut with
    | none, _ => ⟨true, r.unread, conn.coming⟩
    | some bytes, none => ⟨false, r.unread, conn.coming ++ bytes⟩
    | some bytes, some k => ⟨true, r.unread, conn.coming ++ bytes.take k⟩

/-- A call: the connection after it, what it returns, and what comes out of it if that is not
negative. -/
def ClientCall.run (call : ClientCall) (conn : Conn) (env : CallEnv) :
    Option (Conn × Int32 × Output) :=
  let q := call.request
  if conn.gone then some (conn, -1, .none)
  else if !env.sendsHead then some ({ conn with gone := true }, -1, .none)
  else if !env.sendsData then some ({ conn with gone := true }, -1, .none)
  else
    (conn.answer (q.head.bytes ++ q.sentData) env).bind fun conn =>
      (recvCmdResponse conn.gone env.malloc env.stale q.dataLen conn.coming env.clientEvents).map
        fun r =>
          let conn := { conn with coming := r.coming }
          if r.ret < 0 then (conn, -1, .none)
          else
            let out := call.returns r
            (conn, out.1, if out.1 < 0 then .none else out.2)

end Nvr.Ipnc
