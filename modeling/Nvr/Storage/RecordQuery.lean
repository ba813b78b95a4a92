import Mathlib.Data.List.Sort
import Nvr.Storage.Record

/-!
# Answering a query

`strg_record_query`. The results that the disks report are sorted into one list
for each channel and copied from there, channel after channel, into a segment of
shared memory that the client has made. A header in front of them says how many
there are of each channel; that is all a client has to tell them apart by.

The disks are given by what they report to the callback. The server is a 32-bit
process: sizes are words, and the segment is somewhere in its address space.
-/

namespace Nvr.Storage

/-- `sizeof(RecordQueryChnInfo)`. -/
def recordQueryChnInfoLen : UInt32 := 132

/-- `sizeof(RecordQueryInfo)`. -/
def recordQueryInfoLen : UInt32 := 40

/-- The contents of the segment: `RecordQueryChnInfo`, and the array behind it. -/
structure QueryShm where
  maxChn : Int32
  queryInfoNum : Fin 32 → Int32
  queryInfo : Nat → RecordQueryInfo

/-- The segment as `shmctl` and `shmat` give it. All of it is addressable, and
the page at 0 is not part of it. -/
structure QuerySegment where
  addr : UInt32
  segsz : UInt32
  shm : QueryShm
  mapped : 4096 ≤ addr.toNat
  fits : addr.toNat + segsz.toNat ≤ 2 ^ 32

/-- `RecordQueryList`. -/
structure RecordQueryList where
  list : Int32 → List RecordQueryInfo

/-- The lists as `g_malloc0` leaves them. -/
def RecordQueryList.empty : RecordQueryList := ⟨fun _ => []⟩

/-- The order of `__strg_record_query_sort_cb`. -/
def Earlier (p1 p2 : RecordQueryInfo) : Prop := p1.beginTime ≤ p2.beginTime

instance : DecidableRel Earlier := fun p1 p2 =>
  inferInstanceAs (Decidable (p1.beginTime ≤ p2.beginTime))

/-- `__strg_record_query_cb`. `g_list_insert_sorted` passes by what is earlier
than the new result, not what is of the same time. -/
def strgRecordQueryCb (q : RecordQueryList) (rqi : RecordQueryInfo) : RecordQueryList :=
  ⟨Function.update q.list rqi.chn ((q.list rqi.chn).orderedInsert Earlier rqi)⟩

/-- `strg_mng_query`, with `strgRecordQueryCb` as the callback: the disks in
order, those that are not mounted left out. -/
def strgMngQuery (openNum : Int32) (dm : List (Option (List RecordQueryInfo)))
    (q : RecordQueryList) : Int32 × RecordQueryList :=
  if openNum = 0 then (-1, q)
  else
    (0, dm.foldl
      (fun q disk =>
        match disk with
        | none => q
        | some reports => reports.foldl strgRecordQueryCb q) q)

/-- What `strg_record_query` has while it copies. -/
structure Assembly where
  shm : QueryShm
  rqiNum : Int32
  fullFlag : Bool

/-- The header as it is before anything is copied. -/
def QueryShm.cleared (shm : QueryShm) : QueryShm :=
  { shm with queryInfoNum := fun _ => 0, maxChn := Int32.ofNat Nvr.Storage.maxChn }

/-- The size that the segment needs for one more result. -/
def Assembly.needs (a : Assembly) : UInt32 :=
  recordQueryChnInfoLen + recordQueryInfoLen * (a.rqiNum + 1).toUInt32

/-- One more result of a channel. -/
def Assembly.put (a : Assembly) (chn : Chn) (rqi : RecordQueryInfo) : Assembly :=
  let k : Fin 32 := chn.castLE (by decide)
  { a with
    shm := { a.shm with
      queryInfo := Function.update a.shm.queryInfo a.rqiNum.toInt.toNat rqi
      queryInfoNum := Function.update a.shm.queryInfoNum k (a.shm.queryInfoNum k + 1) }
    rqiNum := a.rqiNum + 1 }

/-- The loop over the list of one channel. -/
def copyChn (shmSize : Int32) (chn : Chn) : List RecordQueryInfo → Assembly → Assembly
  | [], a => a
  | rqi :: rest, a =>
      if a.fullFlag then a
      else if a.needs > shmSize.toUInt32 then { a with fullFlag := true }
      else copyChn shmSize chn rest (a.put chn rqi)

/-- The loop over the channels. -/
def copyChns (shmSize : Int32) (chnMask : Int32) (q : RecordQueryList) (a : Assembly) :
    Assembly :=
  (List.finRange maxChn).foldl
    (fun a chn =>
      if HasChn chnMask.toUInt32 chn then copyChn shmSize chn (q.list (chnWord chn)) a else a) a

/-- `strg_record_query`; `none` for a segment that the server does not get. -/
def strgRecordQuery (formatStatus : Bool) (chnMask : Int32) (segment : Option QuerySegment)
    (openNum : Int32) (dm : List (Option (List RecordQueryInfo))) :
    Int32 × Option QuerySegment :=
  if ¬(chnMask < 1 <<< Int32.ofNat maxChn ∧ chnMask ≠ 0) then (-1, segment)
  else if formatStatus then (-1, segment)
  else
    match segment with
    | none => (-1, none)
    | some s =>
        let a := copyChns s.segsz.toInt32 chnMask (strgMngQuery openNum dm .empty).2
          ⟨s.shm.cleared, 0, false⟩
        (a.rqiNum, some { s with shm := a.shm })

end Nvr.Storage
