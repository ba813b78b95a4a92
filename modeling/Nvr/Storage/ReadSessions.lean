import Nvr.Storage.Types

/-!
# Read sessions and formatting

The read requests of `strg_server.c` and `strg_record.c`, and the thread that begins a format. A
session is a block of memory, whose address is the handle that its client is given; the server
takes a handle for the address of one without looking it up. The requests come one after the
other, the thread's steps between them.

What a disk does for a session, and how long a format takes, is left out. Behind an address that
no session is at anything may be read; nothing is said of what comes of it.
-/

namespace Nvr.StorageServer

open Nvr.Storage

/-- `RecordReadInfo`, with the client that it was started for. -/
structure RecordReadInfo where
  addr : Int
  client : Nat
  deriving DecidableEq

/-- Who has stopped a session. -/
inductive StoppedBy
  | client (c : Nat)
  | format
  deriving DecidableEq

/-- What the server does with memory, and when it begins to work on the disk. -/
inductive Event
  /-- It goes to where a handle points, a session of `read_list` or not. -/
  | session (listed : Bool)
  /-- The loop of the format reads a node of the list, a removed one or not. -/
  | node (removed : Bool)
  /-- The format begins to work on the disk, with so many sessions not stopped. -/
  | format (sessions : Nat)
  deriving DecidableEq

/-- How far the thread of a format has come; in its loop, with the session of the node that
`list` points to. -/
inductive FormatThread
  | none
  | closing
  | visiting (list : Option RecordReadInfo)
  | freeing
  | starting
  | ended (ret : Int32)

structure Server where
  readList : List RecordReadInfo
  formatStatus : Bool
  formatThread : FormatThread
  started : List RecordReadInfo
  stopped : List (RecordReadInfo × StoppedBy)
  events : List Event

def init : Server := ⟨[], false, .none, [], [], []⟩

/-- The session at an address. -/
def Server.sessionAt (s : Server) (handle : Int) : Option RecordReadInfo :=
  s.readList.find? (·.addr = handle)

/-- The server goes to where a handle points. -/
def Server.deref (s : Server) (handle : Int) : Server :=
  { s with events := s.events ++ [.session (s.sessionAt handle).isSome] }

/-- `strg_record_read_start`, with the address of the session if it is opened. -/
def strgRecordReadStart (s : Server) (client : Nat) : Option Int → Server
  | some addr =>
      { s with
        readList := s.readList ++ [⟨addr, client⟩]
        started := s.started ++ [⟨addr, client⟩] }
  | none => s

/-- A session is stopped and taken out of the list. -/
def Server.stop (s : Server) (r : RecordReadInfo) (by_ : StoppedBy) : Server :=
  { s with readList := s.readList.erase r, stopped := s.stopped ++ [(r, by_)] }

/-- `strg_record_read_stop`. -/
def strgRecordReadStop (s : Server) (handle : Int) (by_ : StoppedBy) : Server :=
  if handle = 0 then s
  else
    match s.sessionAt handle with
    | some r => (s.deref handle).stop r by_
    | none => s.deref handle

/-- `strg_record_read_set` and `strg_record_read_seek`. -/
def strgRecordReadSet (s : Server) (handle : Int) : Server :=
  if handle = 0 then s else s.deref handle

def strgRecordReadSeek (s : Server) (handle : Int) : Server :=
  if handle = 0 then s else s.deref handle

/-- `strg_record_read`. -/
def strgRecordRead (s : Server) (handle : Int) : Server :=
  if handle = 0 then s else if s.formatStatus then s else s.deref handle

/-- `strg_record_format_disk_start`. -/
def strgRecordFormatDiskStart (s : Server) : Server :=
  if s.formatStatus then s else { s with formatStatus := true, formatThread := .closing }

/-- `g_thread_join` if there is a thread, with what it returns; it waits for the thread to end. -/
def Server.join (s : Server) : Option (Server × Int32) :=
  match s.formatThread with
  | .none => some (s, 0)
  | .ended ret => some ({ s with formatThread := .none }, ret)
  | _ => none

/-- `strg_record_format_disk_stop`. -/
def strgRecordFormatDiskStop (s : Server) : Option Server :=
  if s.formatStatus then s.join.map fun r => { r.1 with formatStatus := false } else some s

/-- `strg_record_format_get_percent`. -/
def strgRecordFormatGetPercent (s : Server) : Option Server :=
  if s.formatStatus then
    s.join.map fun r => if r.2 < 0 then { r.1 with formatStatus := false } else r.1
  else some s

/-- One turn of the loop of `__strg_record_format_disk_func`, and what is found in the node after
it is removed. -/
def visit (s : Server) (list : RecordReadInfo) (next : Option RecordReadInfo) : Server :=
  let s := { s with formatThread := .visiting next }
  if list ∈ s.readList then
    let s := strgRecordReadStop { s with events := s.events ++ [.node false] } list.addr .format
    { s with events := s.events ++ [.node true] }
  else { s with events := s.events ++ [.node true] }

/-- A step of `__strg_record_format_disk_func`; `next` and `ret` are what comes of a turn of the
loop and of `strg_mng_format_disk_start`. -/
def strgRecordFormatDiskFunc (s : Server) (next : Option RecordReadInfo) (ret : Int32) :
    Option Server :=
  match s.formatThread with
  | .closing => some { s with formatThread := .visiting s.readList.head? }
  | .visiting (some list) => some (visit s list next)
  | .visiting .none => some { s with formatThread := .freeing }
  | .freeing => some { s with readList := [], formatThread := .starting }
  | .starting =>
      some
        { s with
          events := s.events ++ [.format (s.started.length - s.stopped.length)]
          formatStatus := if ret < 0 then false else s.formatStatus
          formatThread := .ended ret }
  | .none | .ended _ => none

/-- What happens: a request of a client, with a handle that a start has returned, or a step of the
thread. -/
inductive Act
  | readStart (client : Nat) (opened : Option Int)
  | readStop (client : Nat) (handle : Int)
  | readSet (client : Nat) (handle : Int)
  | readSeek (client : Nat) (handle : Int)
  | readFrame (client : Nat) (handle : Int)
  | formatDiskStart
  | formatDiskStop
  | formatPercent
  | formatStep (next : Option RecordReadInfo) (ret : Int32)

/-- A handle that a start has returned. -/
def Server.Returned (s : Server) (handle : Int) : Prop := handle ∈ s.started.map (·.addr)

instance (s : Server) (handle : Int) : Decidable (s.Returned handle) :=
  inferInstanceAs (Decidable (handle ∈ _))

/-- A session is made where none is, and not at 0. -/
def Server.Free (s : Server) (opened : Option Int) : Prop :=
  ∀ addr ∈ opened, addr ≠ 0 ∧ addr ∉ s.readList.map (·.addr)

instance (s : Server) (opened : Option Int) : Decidable (s.Free opened) :=
  inferInstanceAs (Decidable (∀ addr ∈ opened, _))

def Server.exec (s : Server) : Act → Option Server
  | .readStart client opened =>
      if s.Free opened then some (strgRecordReadStart s client opened) else none
  | .readStop client handle =>
      if s.Returned handle then some (strgRecordReadStop s handle (.client client)) else none
  | .readSet _ handle => if s.Returned handle then some (strgRecordReadSet s handle) else none
  | .readSeek _ handle => if s.Returned handle then some (strgRecordReadSeek s handle) else none
  | .readFrame _ handle => if s.Returned handle then some (strgRecordRead s handle) else none
  | .formatDiskStart => some (strgRecordFormatDiskStart s)
  | .formatDiskStop => strgRecordFormatDiskStop s
  | .formatPercent => strgRecordFormatGetPercent s
  | .formatStep next ret => strgRecordFormatDiskFunc s next ret

end Nvr.StorageServer
