import Nvr.Lib.ByteFile
import Nvr.Lib.FirstMatch
import Nvr.Lib.WordRecord

/-!
# Which cameras the other recorders use

`nvr_smart_search.c`, with the `net_udp_recv` of `net_api.c`. A recorder announces
the cameras on its channels in a heartbeat datagram, and keeps a list of what the
others announced, one entry for each device id.

The buffer is seen from its start on. It is not cleared between two datagrams, and
what is behind it are the bytes the stack has there at the time.
-/

namespace Nvr.Server

open WordRecord

def nvrSerialnoLen : Nat := 48

def nvrMacAddrLen : Nat := 6

/-- `'S' | ('M'<<8) | ('R'<<16) | ('T'<<24)`. -/
def nvrSmartMagic : UInt32 := 0x54524D53

/-- `NVR_SMART_CMD_TYPE`. -/
inductive SmartCmdType
  | heartbeat
  | shutdown
  | channelInfo
  | queryInfo
  deriving DecidableEq

def SmartCmdType.ofByte : UInt8 → Option SmartCmdType
  | 0 => some heartbeat
  | 1 => some shutdown
  | 2 => some channelInfo
  | 3 => some queryInfo
  | _ => none

/-- `NVR_SMART_IPC_INFO`, less its reserved bytes. -/
structure SmartIpcInfo where
  u32DevIp : UInt32
  szIpcMac : List UInt8
  deriving DecidableEq

/-- `sizeof(NVR_SMART_IPC_INFO)`. -/
def smartIpcInfoLen : Nat := 12

/-- `NVR_SMART_INFO`. -/
structure SmartInfo where
  u32DevIp : UInt32
  szDevId : List UInt8
  nElapseTime : Int
  pIpcInfoList : List SmartIpcInfo

/-- `NVR_SMART_NET_HEAD`. -/
structure SmartHead where
  magic : UInt32
  type : UInt8
  len : Nat
  devid : List UInt8

/-- `sizeof(NVR_SMART_NET_HEAD)`, which is where `data` is. -/
def smartHeadLen : Nat := 8 + nvrSerialnoLen

def smartHead (mem : ByteFile) : SmartHead where
  magic := bytesWord (mem 0) (mem 1) (mem 2) (mem 3)
  type := mem 4
  len := (mem 6).toNat + 256 * (mem 7).toNat
  devid := mem.read 8 nvrSerialnoLen

def smartIpcInfo (mem : ByteFile) (oft : Nat) : SmartIpcInfo where
  u32DevIp := bytesWord (mem oft) (mem (oft + 1)) (mem (oft + 2)) (mem (oft + 3))
  szIpcMac := mem.read (oft + 4) nvrMacAddrLen

/-! ## The list of the other recorders -/

/-- `nvr_smart_find_ipc_info`. -/
def nvrSmartFindIpcInfo (gNvrInfoList : List SmartInfo) (u32DevIp : UInt32) :
    Option SmartIpcInfo :=
  (gNvrInfoList.flatMap SmartInfo.pIpcInfoList).find? (·.u32DevIp = u32DevIp)

def nvrSmartAddIpcInfo (info : SmartInfo) (ipc : SmartIpcInfo) : SmartInfo :=
  { info with pIpcInfoList := ipc :: info.pIpcInfoList }

/-- The loop of `nvr_smart_recv_heartbeat` over `n` entries from `oft` on. -/
def addIpcInfos (mem : ByteFile) : Nat → Nat → SmartInfo → SmartInfo
  | 0, _, info => info
  | n + 1, oft, info =>
      addIpcInfos mem n (oft + smartIpcInfoLen) (nvrSmartAddIpcInfo info (smartIpcInfo mem oft))

/-- `nvr_smart_recv_heartbeat`. -/
def nvrSmartRecvHeartbeat (mem : ByteFile) (u32DevIp : UInt32)
    (gNvrInfoList : List SmartInfo) : List SmartInfo :=
  let head := smartHead mem
  let add := addIpcInfos mem (head.len / smartIpcInfoLen) smartHeadLen
  let renew info :=
    add { info with u32DevIp := u32DevIp, nElapseTime := 0, pIpcInfoList := [] }
  match onFirst (·.szDevId = head.devid) renew gNvrInfoList with
  | some list => list
  | none => add ⟨u32DevIp, head.devid, 0, []⟩ :: gNvrInfoList

/-- `nvr_smart_recv_shutdown`. -/
def nvrSmartRecvShutdown (mem : ByteFile) (gNvrInfoList : List SmartInfo) : List SmartInfo :=
  gNvrInfoList.eraseP (·.szDevId = (smartHead mem).devid)

/-- `nvr_smart_timeout`: a recorder that is silent for too long is forgotten. -/
def nvrSmartTimeout (gNvrInfoList : List SmartInfo) : List SmartInfo :=
  gNvrInfoList.filterMap fun info =>
    if 3 < info.nElapseTime + 1 then none
    else some { info with nElapseTime := info.nElapseTime + 1 }

/-! ## Receiving -/

def netMaxBlockRecvTime : Nat := 3

/-- What `recvfrom` gives in the end: a datagram and who sent it, or an error other than
those after which it is called again. -/
inductive RecvFrom
  | datagram (bytes : List UInt8) (u32DevIp : UInt32)
  | error

/-- `net_udp_recv` with `rcvSize` 0, after `nTryTime` failures, where `recvfrom` is
interrupted or would block `again` more times: what it stored and the address, or `none`
for `NET_RETURN_FAIL`. -/
def netUdpRecv (bufSize : Nat) (last : RecvFrom) :
    Nat → Nat → Option (List UInt8 × Option UInt32)
  | _, 0 =>
      match last with
      | .error => none
      | .datagram [] _ => none
      | .datagram bytes u32DevIp => some (bytes.take bufSize, some u32DevIp)
  | nTryTime, again + 1 =>
      if nTryTime < netMaxBlockRecvTime then netUdpRecv bufSize last (nTryTime + 1) again
      else some ([], none)

/-- The variables of the module, and those of `nvr_smart_search_func`. -/
structure Smart where
  gNvrInfoList : List SmartInfo
  gRecvInfo : Bool
  szData : ByteFile
  sockAddr : UInt32

/-- `sizeof(szData)`. -/
def smartDataLen : Nat := 4096

/-- The socket is readable: how often `recvfrom` fails before it gives something, what it
gives, and what is on the stack behind `szData`. -/
structure Readable where
  again : Nat
  last : RecvFrom
  stack : ByteFile

def Readable.recv (r : Readable) : Option (List UInt8 × Option UInt32) :=
  netUdpRecv smartDataLen r.last 0 r.again

/-- What is to be seen from the start of `szData` on. -/
def Readable.mem (r : Readable) (szData : ByteFile) : ByteFile := fun p =>
  if p < smartDataLen then szData p else r.stack p

/-- One pass of `nvr_smart_search_func` when the socket is readable, and up to where it
read the buffer. -/
def nvrSmartSearchPass (gMyDevId : List UInt8) (s : Smart) (r : Readable) : Smart × Nat :=
  match r.recv with
  | none => (s, 0)
  | some (bytes, u32DevIp) =>
      let s := { s with
        szData := s.szData.write 0 bytes
        sockAddr := u32DevIp.getD s.sockAddr }
      let mem := r.mem s.szData
      let head := smartHead mem
      if head.magic ≠ nvrSmartMagic then (s, 4)
      else if head.devid = gMyDevId then (s, smartHeadLen)
      else
        match SmartCmdType.ofByte head.type with
        | some .heartbeat =>
            ({ s with
                gNvrInfoList := nvrSmartRecvHeartbeat mem s.sockAddr s.gNvrInfoList
                gRecvInfo := true },
              smartHeadLen + smartIpcInfoLen * (head.len / smartIpcInfoLen))
        | some .shutdown =>
            ({ s with gNvrInfoList := nvrSmartRecvShutdown mem s.gNvrInfoList }, smartHeadLen)
        -- our own heartbeat is sent, which changes nothing here
        | some .queryInfo => (s, smartHeadLen)
        | _ => (s, smartHeadLen)

/-- What happens: the thread receives something, or the half minute of the main loop is
over. -/
inductive SmartEvent
  | readable (r : Readable)
  | timeout

def smartStep (gMyDevId : List UInt8) (s : Smart) : SmartEvent → Smart
  | .readable r => (nvrSmartSearchPass gMyDevId s r).1
  | .timeout => { s with gNvrInfoList := nvrSmartTimeout s.gNvrInfoList }

/-- The state after some events; no recorder is known at first. -/
def smartRun (gMyDevId : List UInt8) (szData : ByteFile) (sockAddr : UInt32)
    (events : List SmartEvent) : Smart :=
  events.foldl (smartStep gMyDevId) ⟨[], false, szData, sockAddr⟩

end Nvr.Server
