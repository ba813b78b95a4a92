import Mathlib.Data.Fin.VecNotation
import Nvr.Lib.Slot
import Nvr.Storage.Types

/-!
# The storage library in a client process

`storage_lib.c`, with the server behind it as far as it holds read sessions. A query and a read
each make a segment of shared memory, attach it, and ask the server. A process calls on one
socket, which is made when there is none.

How the requests fare, and what the server answers from the disks, comes with the calls.
-/

namespace Nvr.StorageLib

open Nvr.Storage Slot

/-! ## Shared memory -/

/-- A segment: whether the process has it attached, and whether it has been removed, which
takes effect when nobody has it attached. -/
structure Seg where
  attached : Bool
  removed : Bool
  deriving DecidableEq

/-- The server's `RecordReadInfo`, by its address. -/
structure RecordReadInfo where
  addr : Int
  shmid : Nat
  deriving DecidableEq

/-- `StorageLibReadInfo`. `shmAddr` is the segment that is mapped there; no segment stands for
the -1 of `shmat`. -/
structure StorageLibReadInfo where
  handle : Int
  shmid : Nat
  shmAddr : Option Nat
  deriving DecidableEq

/-- What a query gives its caller to free. -/
structure Queried where
  shmid : Nat
  chnInfo : Option Nat
  deriving DecidableEq

/-- The process and the server: the socket if it is open, the segments made so far, the queries
that have returned a value that is not negative and have not been freed, the reads that have
been started with one and not stopped, and the server's `read_list`. -/
structure Sys where
  sock : Bool
  seg : Nat → Seg
  made : Nat
  queries : List Queried
  reads : List StorageLibReadInfo
  readList : List RecordReadInfo

/-- After `storage_lib_init`. -/
def storageLibInit (connects : Bool) : Sys :=
  ⟨connects, fun _ => ⟨false, false⟩, 0, [], [], []⟩

/-- `shmget` that succeeds. -/
def Sys.shmget (s : Sys) : Sys :=
  { s with made := s.made + 1, seg := Function.update s.seg s.made ⟨false, false⟩ }

/-- `shmat` that succeeds. -/
def Sys.shmat (s : Sys) (shmid : Nat) : Sys :=
  { s with seg := Function.update s.seg shmid { s.seg shmid with attached := true } }

def Sys.shmdt (s : Sys) : Option Nat → Sys
  | some shmid => { s with seg := Function.update s.seg shmid { s.seg shmid with attached := false } }
  | none => s

/-- `shmctl` with `IPC_RMID`. -/
def Sys.shmRmid (s : Sys) (shmid : Nat) : Sys :=
  { s with seg := Function.update s.seg shmid { s.seg shmid with removed := true } }

/-! ## A request -/

/-- `STORAGE_RECORD_QUERY` and so on. -/
inductive StorageCmd
  | recordQuery
  | readStart
  | readStop
  | saveJpegByPath
  deriving DecidableEq

/-- `StorageSvrNetHdr`. -/
structure StorageSvrNetHdr where
  cmd : StorageCmd
  chn : Int32
  stream : Int32
  result : Int32
  param : Fin 4 → Int
  extDataLen : Int32

/-- What is sent behind a header. -/
inductive ExtData
  | none
  | readStart (shmid : Nat) (queryInfo : RecordQueryInfo)
  | jpeg (pts : UInt64) (path : List UInt8)

/-- `sizeof(StorageReadStartCmd)`. -/
def storageReadStartCmdLen : Int32 := 44

/-- `sizeof(StorageFragmentInfo)`. -/
def storageFragmentInfoLen : Int32 := 20

/-- What the server's part in a request depends on: the result of a query, the address of the
session if a read is opened, what is on the stack for the handle if not, and the result of saving
a picture. -/
structure Serving where
  queryResult : Int32
  opened : Option Int
  stale : Int
  jpegResult : Int32

/-- `strg_server_decode_cmd`, with the header that it answers. -/
def strgServerDecodeCmd (readList : List RecordReadInfo) (hdr : StorageSvrNetHdr) (ext : ExtData)
    (env : Serving) : List RecordReadInfo × StorageSvrNetHdr :=
  match hdr.cmd with
  | .recordQuery => (readList, { hdr with result := env.queryResult, extDataLen := 0 })
  | .readStart =>
      match env.opened, ext with
      | some addr, .readStart shmid _ =>
          (readList ++ [⟨addr, shmid⟩],
            { hdr with
              result := 0
              param := Function.update hdr.param 0 addr
              extDataLen := storageFragmentInfoLen })
      | _, _ =>
          (readList,
            { hdr with
              result := -1
              param := Function.update hdr.param 0 env.stale
              extDataLen := storageFragmentInfoLen })
  | .readStop =>
      if hdr.param 0 = 0 then (readList, { hdr with result := -1, extDataLen := 0 })
      else
        (readList.filter (·.addr ≠ hdr.param 0), { hdr with result := 0, extDataLen := 0 })
  | .saveJpegByPath => (readList, { hdr with result := env.jpegResult, extDataLen := 0 })

/-- What comes of a request that has been sent: an answer; or the connection is at its end, which
the client's receive returns 0 for, or fails, the server having done its part or not. -/
inductive Reply
  | answered
  | ended (served : Bool)
  | failed (served : Bool)
  deriving DecidableEq

/-- How a request fares. -/
structure Transport where
  connects : Bool
  sendsHdr : Bool
  sendsExt : Bool
  reply : Reply
  recvsExt : Bool
  serving : Serving

/-- The server's part, and the header that the client has then. -/
def Sys.replied (s : Sys) (hdr : StorageSvrNetHdr) (ext : ExtData) (env : Transport) :
    Sys × Option StorageSvrNetHdr :=
  let served := strgServerDecodeCmd s.readList hdr ext env.serving
  match env.reply with
  | .answered => ({ s with readList := served.1 }, some served.2)
  | .ended done => (if done then { s with readList := served.1 } else s, some hdr)
  | .failed done => (if done then { s with readList := served.1 } else s, none)

/-- `net_close_socket`. -/
def Sys.closed (s : Sys) : Sys := { s with sock := false }

/-- `storage_lib_send_and_recv_packet`, with something to send behind the header, and room for
what comes behind the answer, or not; `none` stands for -1. -/
def storageLibSendAndRecvPacket (s : Sys) (hdr : StorageSvrNetHdr) (ext : ExtData)
    (sendBuf recvBuf : Bool) (env : Transport) : Sys × Option StorageSvrNetHdr :=
  if !s.sock && !env.connects then (s.closed, none)
  else
    let s := { s with sock := true }
    if !env.sendsHdr then (s.closed, none)
    else if 0 < hdr.extDataLen ∧ sendBuf ∧ !env.sendsExt then (s.closed, none)
    else
      let r := s.replied hdr ext env
      match r.2 with
      | none => (r.1.closed, none)
      | some rsp =>
          if 0 < rsp.extDataLen ∧ recvBuf ∧ !env.recvsExt then (r.1.closed, none)
          else (r.1, some rsp)

/-! ## The calls -/

/-- Whether `shmget`, `shmat` and `malloc` succeed in a call. -/
structure Memory where
  shmget : Bool
  shmat : Bool
  malloc : Bool

/-- A segment that is made, and mapped if `shmat` succeeds, whose failure is not seen. -/
def Sys.mapped (s : Sys) (mem : Memory) : Sys × Option Nat :=
  if mem.shmat then (s.shmget.shmat s.made, some s.made) else (s.shmget, none)

/-- `storage_lib_record_query`: what it returns, and what it gives its caller where it does. -/
def storageLibRecordQuery (s : Sys) (chnMask beginTime endTime recordType : Int32) (mem : Memory)
    (env : Transport) : Sys × Int32 × Option Queried :=
  if chnMask = 0 then (s, -1, none)
  else if !mem.shmget then (s, -1, none)
  else
    let id := s.made
    let m := s.mapped mem
    let hdr : StorageSvrNetHdr :=
      ⟨.recordQuery, chnMask, 0, 0,
        ![id, beginTime.toInt, endTime.toInt, recordType.toInt], 0⟩
    let r := storageLibSendAndRecvPacket m.1 hdr .none false false env
    match r.2 with
    | none => (r.1.shmRmid id, -1, none)
    | some rsp => (r.1, rsp.result, some ⟨id, m.2⟩)

/-- `storage_lib_record_query_free`. -/
def storageLibRecordQueryFree (s : Sys) (q : Queried) : Sys := (s.shmdt q.chnInfo).shmRmid q.shmid

/-- `storage_lib_read_start`: what it returns, and the handle where it gives one. -/
def storageLibReadStart (s : Sys) (queryInfo : Option RecordQueryInfo) (mem : Memory)
    (env : Transport) : Sys × Int32 × Option StorageLibReadInfo :=
  match queryInfo with
  | none => (s, -1, none)
  | some queryInfo =>
      if !mem.shmget then (s, -1, none)
      else
        let shmid := s.made
        let m := s.mapped mem
        let hdr : StorageSvrNetHdr :=
          ⟨.readStart, 0, 0, 0, fun _ => 0, storageReadStartCmdLen⟩
        let r := storageLibSendAndRecvPacket m.1 hdr (.readStart shmid queryInfo) true true env
        match r.2 with
        | none => (r.1, -1, none)
        | some rsp =>
            if mem.malloc then (r.1, rsp.result, some ⟨rsp.param 0, shmid, m.2⟩)
            else (r.1, -1, none)

/-- `storage_lib_read_stop`. -/
def storageLibReadStop (s : Sys) (readInfo : StorageLibReadInfo) (env : Transport) :
    Sys × Int32 :=
  let hdr : StorageSvrNetHdr := ⟨.readStop, 0, 0, 0, ![readInfo.handle, 0, 0, 0], 0⟩
  let r := storageLibSendAndRecvPacket s hdr .none false false env
  match r.2 with
  | none => (r.1, -1)
  | some rsp => ((r.1.shmdt readInfo.shmAddr).shmRmid readInfo.shmid, rsp.result)

/-- `sizeof(unsigned long long)` and 256 bytes of a path. -/
def jpegExtLen : Int32 := 264

/-- `storage_lib_save_jpeg_by_path`. -/
def storageLibSaveJpegByPath (s : Sys) (chn stream : Int32) (jpegPath : List UInt8) (pts : UInt64)
    (env : Transport) : Sys × Int32 :=
  let hdr : StorageSvrNetHdr := ⟨.saveJpegByPath, chn, stream, 0, fun _ => 0, jpegExtLen⟩
  let r := storageLibSendAndRecvPacket s hdr (.jpeg pts (jpegPath.take 255)) true false env
  match r.2 with
  | none => (r.1, -1)
  | some rsp => (r.1, rsp.result)

/-- What the process calls. It frees what a query has given it, and stops what it has started,
once. -/
inductive Call
  | recordQuery (chnMask beginTime endTime recordType : Int32) (mem : Memory) (env : Transport)
  | recordQueryFree (q : Queried)
  | readStart (queryInfo : Option RecordQueryInfo) (mem : Memory) (env : Transport)
  | readStop (readInfo : StorageLibReadInfo) (env : Transport)
  | saveJpegByPath (chn stream : Int32) (jpegPath : List UInt8) (pts : UInt64) (env : Transport)

/-- A session is put where none is, and not at 0. -/
def Serving.Fresh (env : Serving) (readList : List RecordReadInfo) : Prop :=
  ∀ addr ∈ env.opened, addr ≠ 0 ∧ ∀ r ∈ readList, r.addr ≠ addr

instance (env : Serving) (readList : List RecordReadInfo) : Decidable (env.Fresh readList) :=
  inferInstanceAs (Decidable (∀ addr ∈ env.opened, _))

/-- One call of the process. -/
def Sys.exec (s : Sys) : Call → Option Sys
  | .recordQuery chnMask beginTime endTime recordType mem env =>
      let r := storageLibRecordQuery s chnMask beginTime endTime recordType mem env
      if 0 ≤ r.2.1 then some { r.1 with queries := r.1.queries ++ r.2.2.toList } else some r.1
  | .recordQueryFree q =>
      if q ∈ s.queries then
        some { storageLibRecordQueryFree s q with queries := s.queries.erase q }
      else none
  | .readStart queryInfo mem env =>
      if env.serving.Fresh s.readList then
        let r := storageLibReadStart s queryInfo mem env
        if 0 ≤ r.2.1 then some { r.1 with reads := r.1.reads ++ r.2.2.toList } else some r.1
      else none
  | .readStop readInfo env =>
      if readInfo ∈ s.reads then
        some { (storageLibReadStop s readInfo env).1 with reads := s.reads.erase readInfo }
      else none
  | .saveJpegByPath chn stream jpegPath pts env =>
      some (storageLibSaveJpegByPath s chn stream jpegPath pts env).1

end Nvr.StorageLib
