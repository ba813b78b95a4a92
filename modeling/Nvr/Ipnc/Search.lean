import Nvr.Lib.FirstMatch

/-!
# Searching the cameras of the network

`ti_net_search.c`. The cameras that answer a search are kept in one list, which
all the users of the search share; each user has a slot in a table with the node
it was given last. The list is freed when the last user stops.

The nodes have the addresses that `malloc` gave them, so a freed node's address
may come back as that of a new one. Each call runs under `gSearch.lock`, except
that a reply is looked up in the list before the lock is taken to add it.
-/

namespace Nvr.NetSearch

/-- `TI_NET_SEARCH_RES_S`. The fields in `whole` are only copied with the rest. -/
structure SearchRes where
  u8SerialId : List UInt8
  u32SoftVer : UInt32
  u16DevType : UInt16
  u16DevPort : UInt16
  u32DevIp : UInt32
  u8MacAddr : List UInt8
  u32DevIpMask : UInt32
  u32DevGwAddr : UInt32
  u32DevDns1 : UInt32
  u32DevDns2 : UInt32
  whole : List UInt8
deriving DecidableEq

/-- `IPNC_NET_SEARCH_RES_S`. -/
structure IpncRes where
  u8SerialId : List UInt8
  u32SoftVer : UInt32
  u16DevType : UInt16
  u16DevPort : UInt16
  u32DevIp : UInt32
  u8MacAddr : List UInt8
  u8Dns : UInt8
  u8DHCP : UInt8
  u32DevIpMask : UInt32
  u32DevGwAddr : UInt32
  u32DevDns1 : UInt32
  u32DevDns2 : UInt32
  szPriData : Option SearchRes
deriving DecidableEq

/-- `ti_get_search_info_ti2ipnc`. The two flags are assigned to themselves. -/
def tiGetSearchInfoTi2ipnc (pIpncDev : IpncRes) (pTiDev : SearchRes) : IpncRes :=
  { u8SerialId := pTiDev.u8SerialId
    u32SoftVer := pTiDev.u32SoftVer
    u16DevType := pTiDev.u16DevType
    u16DevPort := pTiDev.u16DevPort
    u32DevIp := pTiDev.u32DevIp
    u8MacAddr := pTiDev.u8MacAddr
    u8Dns := pIpncDev.u8Dns
    u8DHCP := pIpncDev.u8DHCP
    u32DevIpMask := pTiDev.u32DevIpMask
    u32DevGwAddr := pTiDev.u32DevGwAddr
    u32DevDns1 := pTiDev.u32DevDns1
    u32DevDns2 := pTiDev.u32DevDns2
    szPriData := some pTiDev }

/-- `TI_SERIALNO_LEN`. -/
def tiSerialnoLen : Nat := 48

/-- What `strncmp` looks at of a serial number. -/
def serial (u8SerialId : List UInt8) : List UInt8 :=
  (u8SerialId.take tiSerialnoLen).takeWhile (· ≠ 0)

/-- What two replies of one device have in common. -/
def SearchRes.key (res : SearchRes) : UInt32 × List UInt8 := (res.u32DevIp, serial res.u8SerialId)

/-- `TI_NET_SEARCH_NODE_S` at its address. -/
structure Node where
  addr : Nat
  searchRes : SearchRes
deriving DecidableEq

/-- `TI_NET_SEARCH_USER_TABLE_S`. -/
structure UserTable where
  lHandle : Int
  pLastNode : Option Nat
deriving DecidableEq

/-- `TI_NET_SEARCH_MAX_CLIENT_NUM`. -/
def tiNetSearchMaxClientNum : Nat := 50

/-- `gSearch`. `nodes` are those from `pSearchNodeHead` to `pSearchNodeEnd`. -/
structure Search where
  nodes : List Node
  u32DevNum : Int
  userCnt : Int
  userCT : List UserTable

/-- `Ti_Net_Search_init`. -/
def tiNetSearchInit : Search where
  nodes := []
  u32DevNum := 0
  userCnt := 0
  userCT := List.replicate tiNetSearchMaxClientNum ⟨0, none⟩

variable (s : Search)

/-- `Ti_Net_Add_User_Table`; `none` is its failure. -/
def tiNetAddUserTable (lHandle : Int) : Option Search :=
  if tiNetSearchMaxClientNum ≤ s.userCnt then none
  else (onFirst (·.lHandle = 0) (fun u => { u with lHandle := lHandle }) s.userCT).map
    fun table => { s with userCT := table, userCnt := s.userCnt + 1 }

/-- `Ti_Net_Get_User_Table`. -/
def tiNetGetUserTable (lHandle : Int) : Option UserTable :=
  if s.userCnt = 0 then none else s.userCT.find? (·.lHandle = lHandle)

/-- `Ti_Net_Del_User_Table`. -/
def tiNetDelUserTable (lHandle : Int) : Search :=
  match onFirst (·.lHandle = lHandle) (fun _ => ⟨0, none⟩) s.userCT with
  | some table => { s with userCT := table, userCnt := s.userCnt - 1 }
  | none => s

/-- `Ti_Net_Search_List_Find`. -/
def tiNetSearchListFind (pResNode : SearchRes) : Bool :=
  s.nodes.any fun n => n.searchRes.key = pResNode.key

/-- `Ti_Net_Search_Add_To_List`. -/
def tiNetSearchAddToList (pResNode : Node) : Search :=
  { s with nodes := s.nodes ++ [pResNode], u32DevNum := s.u32DevNum + 1 }

/-- `Ti_Net_Search_List_Free`. -/
def tiNetSearchListFree : Search := { s with nodes := [], u32DevNum := 0 }

/-- What `Ti_Net_Get_Search` does: it fails, finds no further device, gives one,
or follows a pointer to a node that is not in the list. -/
inductive Got where
  | failure
  | nothing
  | dev (pDev : IpncRes)
  | wild
deriving DecidableEq

/-- `next` of the node at `addr`; `none` when there is no such node. -/
def nextNode (nodes : List Node) (addr : Nat) : Option (Option Node) :=
  match nodes with
  | [] => none
  | n :: rest => if n.addr = addr then some rest.head? else nextNode rest addr

/-- The node that a user is to be given. -/
def resNode (u : UserTable) : Option (Option Node) :=
  match u.pLastNode with
  | none => some s.nodes.head?
  | some addr => nextNode s.nodes addr

/-- `Ti_Net_Get_Search`. -/
def tiNetGetSearch (lHandle : Int) (pDev : IpncRes) : Got × Search :=
  match tiNetGetUserTable s lHandle with
  | none => (.failure, s)
  | some pUserTb =>
      if s.nodes = [] then (.nothing, s)
      else match resNode s pUserTb with
        | none => (.wild, s)
        | some none => (.nothing, s)
        | some (some pResNode) =>
            (.dev (tiGetSearchInfoTi2ipnc pDev pResNode.searchRes),
              { s with userCT := (onFirst (·.lHandle = lHandle)
                  (fun u => { u with pLastNode := some pResNode.addr }) s.userCT).getD s.userCT })

/-! ## The search in use -/

/-- The search with what has been seen of it. The receiving thread holds `reply`
between looking a device up and adding it. `got` are the devices that a handle
was given since it was registered, and `freedUnder` has for each time the list
was freed the handles that were registered then. -/
structure InUse where
  search : Search
  reply : Option Node
  got : Int → List SearchRes
  freedUnder : List (List Int)

def InUse.init : InUse := ⟨tiNetSearchInit, none, fun _ => [], []⟩

/-- The slots that are occupied. -/
def occupied : List UserTable := s.userCT.filter (·.lHandle ≠ 0)

/-- Whether a handle is in the table. -/
def registered (lHandle : Int) : Bool := s.userCT.any (·.lHandle = lHandle)

/-- The handles in the table. -/
def handles : List Int := (occupied s).map (·.lHandle)

namespace InUse

variable (w : InUse)

/-- The list is freed. -/
def free (search : Search) : InUse :=
  { w with search := tiNetSearchListFree search, freedUnder := handles search :: w.freedUnder }

/-- A user starts; what was given under the handle before is over. -/
def enter (lHandle : Int) (search : Search) : InUse :=
  { w with
    search := search
    got := if registered w.search lHandle then w.got else Function.update w.got lHandle [] }

/-- `Ti_Net_Search_Do`; `sent` is whether the search can be sent. -/
def tiNetSearchDo (lHandle : Int) (sent : Bool) : InUse :=
  if 0 < w.search.userCnt then
    match tiNetAddUserTable w.search lHandle with
    | some search => w.enter lHandle search
    | none => w
  else
    let w := w.free w.search
    match tiNetAddUserTable w.search lHandle with
    | some search =>
        if sent then w.enter lHandle search
        else { w with search := tiNetDelUserTable search lHandle }
    | none => w

/-- `Ti_Net_Get_Search`. -/
def get (lHandle : Int) (pDev : IpncRes) : InUse :=
  match tiNetGetSearch w.search lHandle pDev with
  | (.dev pDev, search) =>
      { w with
        search := search
        got := Function.update w.got lHandle (w.got lHandle ++ pDev.szPriData.toList) }
  | (_, search) => { w with search := search }

/-- `Ti_Net_Search_Done`. -/
def tiNetSearchDone (lHandle : Int) : InUse :=
  let search := tiNetDelUserTable w.search lHandle
  if search.userCnt ≤ 0 then w.free search else { w with search := search }

end InUse

inductive Op where
  | searchDo (lHandle : Int) (sent : Bool)
  | getSearch (lHandle : Int) (pDev : IpncRes)
  | searchDone (lHandle : Int)
  /-- `Ti_Net_Search_Set_Dev` up to the lock; `mem` is what `malloc` gives. -/
  | setDev (pDev : SearchRes) (mem : Option Nat)
  /-- The rest of it. -/
  | addToList

/-- One call, or one part of the receiving thread's. A user has a handle that is
not 0, and `malloc` gives no address that is in use. -/
def step (w : InUse) : Op → Option InUse
  | .searchDo lHandle sent => if lHandle = 0 then none else some (w.tiNetSearchDo lHandle sent)
  | .getSearch lHandle pDev => some (w.get lHandle pDev)
  | .searchDone lHandle => some (w.tiNetSearchDone lHandle)
  | .setDev pDev mem =>
      if w.reply.isSome then none
      else if tiNetSearchListFind w.search pDev then some w
      else match mem with
        | none => some w
        | some addr =>
            if addr ∈ w.search.nodes.map (·.addr) then none
            else some { w with reply := some ⟨addr, pDev⟩ }
  | .addToList =>
      w.reply.map fun n => { w with search := tiNetSearchAddToList w.search n, reply := none }

def Step (w : InUse) (op : Op) (w' : InUse) : Prop := step w op = some w'

end Nvr.NetSearch
