import Mathlib.Data.List.Nodup
import Mathlib.Logic.Function.Basic
import Nvr.Storage.Types

/-!
# Looking for cameras

`nvr_search_intelligent_check_task` of `nvr_net_search.c`, up to where it starts to
change the addresses of the cameras themselves. The dead channels are listed, the
network is searched, and the cameras found are put on the dead channels.

The loop over the cameras uses its own variable for the first dead channel as well.
The link is freed before the loop goes on from it, so that where it goes on is
whatever is read there; that is an input here.
-/

namespace Nvr.Server

open Nvr.Storage

/-- `NVR_NAME_LEN` and `NVR_PASS_WORD_LEN`. -/
def nvrNameLen : Nat := 32

def nvrPassWordLen : Nat := 32

/-- What `g_strlcpy` leaves of a string. -/
def strlcpyTo (size : Nat) (src : List UInt8) : List UInt8 := src.take (size - 1)

/-- `NVR_CHANNEL_CFG_S`, less its reserved bytes. -/
structure ChannelCfg where
  u32Size : UInt32
  szFactoryName : List UInt8
  szProtocolName : List UInt8
  szDevName : List UInt8
  szUser : List UInt8
  szPasswd : List UInt8
  u32IpAddr : UInt32
  u16DataPort : UInt16
  u16WebPort : UInt16
  u16RtspPort : UInt16
  u8RemoteChn : UInt8
  u8UseChn : UInt8
  u8Enable : UInt8
  u8SearchA : UInt8
  deriving DecidableEq

/-- `NVR_SEARCH_NODE_S`, what is read of it. -/
structure SearchNode where
  protocolName : List UInt8
  user : List UInt8
  passwd : List UInt8
  u8SerialId : List UInt8
  u32DevIp : UInt32
  u16DevPort : UInt16
  deriving DecidableEq

/-- What is connected to and logged in at. -/
structure Target where
  protocolName : List UInt8
  u32Ip : UInt32
  u16Port : UInt16
  user : List UInt8
  passwd : List UInt8

def ChannelCfg.target (c : ChannelCfg) : Target :=
  ⟨c.szProtocolName, c.u32IpAddr, c.u16DataPort, c.szUser, c.szPasswd⟩

def SearchNode.target (node : SearchNode) : Target :=
  ⟨node.protocolName, node.u32DevIp, node.u16DevPort, node.user, node.passwd⟩

/-- How the tests come out: whether another recorder has announced an address, and whether
`ipnc_client_connect_server` and `ipnc_client_test_alive` both succeed. -/
structure Tests where
  announced : UInt32 → Bool
  testAlive : Target → Bool

variable (t : Tests)

/-- `nvr_smart_is_ipc_remote_used` gives 1. -/
def Tests.remoteUsed (u32IpcIp : UInt32) : Bool := u32IpcIp ≠ 0 && t.announced u32IpcIp

/-- The configuration of the channels. The task works on a copy of it, and stores a channel
whenever it has changed the copy. -/
abbrev ChannelCfgs : Type := Chn → ChannelCfg

/-! ## The dead channels -/

/-- One channel is looked at; whether it is put on the list. -/
def checkChannel (channelCfg : ChannelCfgs) (chn : Chn) : ChannelCfgs × Bool :=
  let c := channelCfg chn
  if c.u8Enable = 0 ∨ c.u8SearchA = 0 then (channelCfg, false)
  else if t.remoteUsed c.u32IpAddr then
    -- `nvr_set_channel_cfg` marks a channel without an address for the search
    (Function.update channelCfg chn { c with u32IpAddr := 0, u8SearchA := 1 }, true)
  else if c.u32IpAddr = 0 then (channelCfg, true)
  else (channelCfg, !t.testAlive c.target)

/-- The first loop of the task, over the channels that are left: the configuration, and
`list_noalive`. -/
def checkChannels : List Chn → ChannelCfgs → ChannelCfgs × List Chn
  | [], channelCfg => (channelCfg, [])
  | chn :: chns, channelCfg =>
      let checked := checkChannel t channelCfg chn
      let rest := checkChannels chns checked.1
      (rest.1, if checked.2 then chn :: rest.2 else rest.2)

/-! ## The cameras -/

/-- Some enabled channel has the address. -/
def onChannel (channelCfg : ChannelCfgs) (u32DevIp : UInt32) : Bool :=
  (List.finRange maxChn).any fun chn =>
    (channelCfg chn).u8Enable ≠ 0 && u32DevIp = (channelCfg chn).u32IpAddr

/-- The tests that a camera has to pass. -/
def canAdd (channelCfg : ChannelCfgs) (node : SearchNode) : Bool :=
  !onChannel channelCfg node.u32DevIp && !t.remoteUsed node.u32DevIp && t.testAlive node.target

/-- The configuration of a channel with a camera that was found. -/
def addedCfg (node : SearchNode) : ChannelCfg where
  u32Size := 208
  szFactoryName := strlcpyTo nvrNameLen node.protocolName
  szProtocolName := strlcpyTo nvrNameLen node.protocolName
  szDevName := strlcpyTo nvrNameLen node.u8SerialId
  szUser := strlcpyTo nvrNameLen node.user
  szPasswd := strlcpyTo nvrPassWordLen node.passwd
  u32IpAddr := node.u32DevIp
  u16DataPort := node.u16DevPort
  u16WebPort := 80
  u16RtspPort := 554
  u8RemoteChn := 1
  u8UseChn := 0
  u8Enable := 1
  u8SearchA := 1

/-- What a run has done: the configuration it leaves, and which cameras were examined, each
with the channel it was put on. -/
structure Assigned where
  channelCfg : ChannelCfgs
  examined : List (SearchNode × Option Chn)

/-- The second loop of the task. `freed` is what the loop goes on with after it has deleted
a link, with so many dead channels left. -/
def addIpcs (freed : Nat → List SearchNode) :
    List Chn → List SearchNode → ChannelCfgs → Assigned
  | [], _, channelCfg => ⟨channelCfg, []⟩
  | _ :: _, [], channelCfg => ⟨channelCfg, []⟩
  | chn :: listNoalive, node :: list, channelCfg =>
      if canAdd t channelCfg node then
        let rest := addIpcs freed listNoalive (freed listNoalive.length)
          (Function.update channelCfg chn (addedCfg node))
        ⟨rest.channelCfg, (node, some chn) :: rest.examined⟩
      else
        let rest := addIpcs freed (chn :: listNoalive) list channelCfg
        ⟨rest.channelCfg, (node, none) :: rest.examined⟩
  termination_by listNoalive list => (listNoalive.length, list.length)

/-- `nvr_search_intelligent_check_task`, when there is a file system and the last run is
more than a second ago. The network is searched only if there is a dead channel or the
automatic control is on. -/
def nvrSearchIntelligentCheckTask (freed : Nat → List SearchNode) (autoCtrl : Bool)
    (searchIpcList : List SearchNode) (channelCfg : ChannelCfgs) : Assigned :=
  let checked := checkChannels t (List.finRange maxChn) channelCfg
  if checked.2.length = 0 ∧ autoCtrl = false then ⟨checked.1, []⟩
  else addIpcs t freed checked.2 searchIpcList checked.1

end Nvr.Server
