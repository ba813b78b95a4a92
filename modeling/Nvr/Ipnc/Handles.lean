import Mathlib.Tactic.Common
import Mathlib.Logic.Function.Basic

/-!
# The handles of the cameras

`ti_ipnc_mng.c` and `ti_ipnc_realplay.c`. A camera that is connected has a
manager, and each of its two streams that is being got has a stream handle. Both
are counted: a manager by the calls that connected it and by its streams, a
stream by the calls that started it.

The managers and the streams are at the addresses that `malloc` gave them; a
handle is an address. A call that follows a pointer to what has been freed has
no result (`none`).
-/

namespace Nvr.Ipnc

/-- What the calls that connect to one camera have in common. -/
structure Camera where
  poolCh : Int
  ipAddr : String
  port : Int
  user : String
  passwd : String
deriving DecidableEq

/-- `TI_IPNC_PROTOCOL_MNG`. -/
structure Mng where
  camera : Camera
  refCount : Int
  stream : Fin 2 → Option Nat

/-- `TI_IPNC_STREAM_S`. -/
structure IpncStream where
  ipncHandle : Nat
  chn : Int
  streamNo : Int
  poolChn : Int
  poolStreamNo : Int
  refCount : Int
  lRealPlayHandle : Int

/-- The list of the managers from `gMngHead`, and what has been allocated. -/
structure Handles where
  list : List Nat
  mngs : Nat → Option Mng
  streams : Nat → Option IpncStream

namespace Handles

variable (s : Handles)

def setMng (handle : Nat) (m : Option Mng) : Handles :=
  { s with mngs := Function.update s.mngs handle m }

def setStream (handle : Nat) (p : Option IpncStream) : Handles :=
  { s with streams := Function.update s.streams handle p }

end Handles

variable (s : Handles)

/-- `ti_ipnc_mng_check_handle_valid`. -/
def tiIpncMngCheckHandleValid (pMng : Nat) : Bool := pMng ∈ s.list

/-- `ti_ipnc_mng_check_ipnc_handle_valid`. -/
def tiIpncMngCheckIpncHandleValid (pMng pStream : Nat) : Bool :=
  pMng ∈ s.list &&
    (s.mngs pMng).any fun m => m.stream 0 = some pStream || m.stream 1 = some pStream

/-- `ti_ipnc_mng_ref`. -/
def tiIpncMngRef (pMng : Nat) : Option Handles :=
  (s.mngs pMng).map fun m => s.setMng pMng (some { m with refCount := m.refCount + 1 })

/-- `ti_ipnc_mng_del_from_list` and `free`. -/
def freeMng (pMng : Nat) : Handles := { s.setMng pMng none with list := s.list.erase pMng }

/-- The stop that `ti_ipnc_mng_unref` makes for a stream that is still there. -/
def stopLeft (stop : Handles → Nat → Nat → Option Handles) (pMng : Nat) (i : Fin 2) : Option Handles :=
  (s.mngs pMng).bind fun m =>
    match m.stream i with
    | some pStream => stop s pMng pStream
    | none => some s

/-- `ti_ipnc_mng_unref`, with the `ti_ipnc_stop_get_stream` that it calls. -/
def unrefWith (stop : Handles → Nat → Nat → Option Handles) (pMng : Nat) : Option Handles :=
  (s.mngs pMng).bind fun m =>
    let s := s.setMng pMng (some { m with refCount := m.refCount - 1 })
    if m.refCount - 1 = 0 then
      (stopLeft s stop pMng 0).bind fun s =>
        (stopLeft s stop pMng 1).map fun s => freeMng s pMng
    else some s

/-- `ti_ipnc_stop_get_stream`, with the `ti_ipnc_mng_unref` that it calls. -/
def stopWith (unref : Handles → Nat → Option Handles) (handle streamHandle : Nat) : Option Handles :=
  if tiIpncMngCheckIpncHandleValid s handle streamHandle then
    (s.mngs handle).bind fun m => (s.streams streamHandle).bind fun p =>
      if p.refCount - 1 = 0 then
        let i : Fin 2 := if m.stream 0 = some streamHandle then 0 else 1
        let s := s.setMng handle (some { m with stream := Function.update m.stream i none })
        unref (s.setStream streamHandle none) handle
      else some (s.setStream streamHandle (some { p with refCount := p.refCount - 1 }))
  else some s

/-- The two calls one inside the other, up to a depth. -/
def unrefUpTo : Nat → Handles → Nat → Option Handles
  | 0, _, _ => none
  | depth + 1, s, pMng =>
      unrefWith s (fun s handle streamHandle => stopWith s (unrefUpTo depth) handle streamHandle)
        pMng

/-- `ti_ipnc_mng_unref`. The one that is called inside it finds the count at 0,
lowers it and calls nothing. -/
def tiIpncMngUnref : Handles → Nat → Option Handles := unrefUpTo 2

/-- `ti_ipnc_stop_get_stream`. -/
def tiIpncStopGetStream (handle streamHandle : Nat) : Option Handles :=
  stopWith s tiIpncMngUnref handle streamHandle

/-- `ti_ipnc_connect`, with the handle if it succeeds; `reached` is whether the
camera answers and `mem` what `malloc` gives. -/
def tiIpncConnect (camera : Camera) (reached : Bool) (mem : Option Nat) :
    Option (Option Nat × Handles) :=
  match s.list.find? fun node => (s.mngs node).any fun m => m.camera = camera with
  | some node => (tiIpncMngRef s node).map fun s => (some node, s)
  | none =>
      if reached then
        match mem with
        | some pMng =>
            let s := s.setMng pMng (some ⟨camera, 1, fun _ => none⟩)
            some (some pMng, { s with list := pMng :: s.list })
        | none => some (none, s)
      else some (none, s)

/-- `ti_ipnc_disconnect`. -/
def tiIpncDisconnect (handle : Nat) : Option Handles :=
  if tiIpncMngCheckHandleValid s handle then tiIpncMngUnref s handle else some s

/-- The index of a stream number that `ti_ipnc_start_get_stream` takes. -/
def streamIndex (streamNo : Int) : Option (Fin 2) :=
  if streamNo = 0 then some 0 else if streamNo = 1 then some 1 else none

/-- What a start meets outside: whether another writes to the pool
(`av_pool_is_writing`), what `malloc` gives, and the handle of
`TI_NET_Start_RealPlay` if it succeeds. -/
structure Outside where
  writing : Bool
  mem : Option Nat
  realPlay : Option Int

/-- `ti_ipnc_start_get_stream`, with the stream handle if it succeeds. -/
def tiIpncStartGetStream (handle : Nat) (chn streamNo : Int) (o : Outside) :
    Option (Option Nat × Handles) :=
  if tiIpncMngCheckHandleValid s handle && chn = 0 then
    match streamIndex streamNo with
    | none => some (none, s)
    | some i => (s.mngs handle).bind fun m =>
        match m.stream i with
        | some pStream => (s.streams pStream).map fun p =>
            if p.chn = chn ∧ p.streamNo = streamNo ∧ p.poolChn = m.camera.poolCh ∧
                p.poolStreamNo = streamNo then
              (some pStream, s.setStream pStream (some { p with refCount := p.refCount + 1 }))
            else (none, s)
        | none =>
            if o.writing then some (none, s)
            else match o.mem with
              | none => some (none, s)
              | some pStream =>
                  let m := { m with stream := Function.update m.stream i (some pStream) }
                  let s := s.setMng handle (some m)
                  match o.realPlay with
                  -- the pointer in the manager is left as it is
                  | none => some (none, s)
                  | some lRealHandle =>
                      let s := s.setStream pStream
                        (some ⟨handle, chn, streamNo, m.camera.poolCh, streamNo, 1, lRealHandle⟩)
                      (tiIpncMngRef s handle).map fun s => (some pStream, s)
  else some (none, s)

/-! ## The handles in use -/

/-- The handles with the calls that are not undone: `connects` of a manager, and
`starts` of a stream of a manager. `wild` is whether a call has followed a
pointer to what was freed. -/
structure InUse where
  handles : Handles
  connects : Nat → Nat
  starts : Nat → Nat → Nat
  wild : Bool

/-- No camera is connected. -/
def InUse.init : InUse := ⟨⟨[], fun _ => none, fun _ => none⟩, fun _ => 0, fun _ _ => 0, false⟩

inductive Op where
  | connect (camera : Camera) (reached : Bool) (mem : Option Nat)
  | disconnect (handle : Nat)
  | start (handle : Nat) (chn streamNo : Int) (o : Outside)
  | stop (handle streamHandle : Nat)

/-- What a call leaves: `after` says what becomes of its result. -/
def InUse.done {α : Type} (w : InUse) (r : Option α) (after : α → InUse) : InUse :=
  match r with
  | some a => after a
  | none => { w with wild := true }

/-- `f` with one more at `a`. -/
def more (f : Nat → Nat) (a : Nat) : Nat → Nat := Function.update f a (f a + 1)

/-- `f` with one less at `a`. -/
def fewer (f : Nat → Nat) (a : Nat) : Nat → Nat := Function.update f a (f a - 1)

/-- One call. A disconnect and a stop belong to a call that is not undone yet,
and `malloc` gives no address that is in use. -/
def step (w : InUse) : Op → Option InUse
  | .connect camera reached mem =>
      if mem.any fun a => (w.handles.mngs a).isSome then none
      else some (w.done (tiIpncConnect w.handles camera reached mem) fun
        | (some handle, s) => { w with handles := s, connects := more w.connects handle }
        | (none, s) => { w with handles := s })
  | .disconnect handle =>
      if w.connects handle = 0 then none
      else some (w.done (tiIpncDisconnect w.handles handle) fun s =>
        { w with handles := s, connects := fewer w.connects handle })
  | .start handle chn streamNo o =>
      if o.mem.any fun a => (w.handles.streams a).isSome then none
      else some (w.done (tiIpncStartGetStream w.handles handle chn streamNo o) fun
        | (some pStream, s) =>
            { w with
              handles := s
              starts := Function.update w.starts handle (more (w.starts handle) pStream) }
        | (none, s) => { w with handles := s })
  | .stop handle streamHandle =>
      if w.starts handle streamHandle = 0 then none
      else some (w.done (tiIpncStopGetStream w.handles handle streamHandle) fun s =>
        { w with
          handles := s
          starts := Function.update w.starts handle (fewer (w.starts handle) streamHandle) })

def Step (w : InUse) (op : Op) (w' : InUse) : Prop := step w op = some w'

end Nvr.Ipnc
