import Nvr.Storage.Disk

/-!
# Which days have footage

`strg_disk_find`. The answer is a mask of the days of a month. A basket that is
in the window is looked at as a whole if all of it is from one day, and fragment
by fragment otherwise.

What `localtime_r` makes of a time depends on the time zone of the machine; the
day of the month is a parameter here, counted from 0.
-/

namespace Nvr.Storage

/-- `tm_mday - 1` of a time. -/
abbrev Mday := Int32 → Fin 31

/-- The arguments of a search. -/
structure FindArgs where
  chnMask : UInt32
  beginTime : Int32
  endTime : Int32
  recordType : RecordType
  deriving DecidableEq, Repr

/-- `1 << (tm_mday - 1)`. -/
def dayBit (day : Fin 31) : UInt32 := 1 <<< UInt32.ofNat day

/-- The basket is not passed over. -/
def FindArgs.looksAt (a : FindArgs) (bgi : BasketGlobalInfo) : Bool :=
  if a.chnMask &&& chnBit bgi.bg.chn = 0 then false
  else if a.endTime ≤ bgi.beginTime ∨ a.beginTime ≥ bgi.endTime then false
  else bgi.recordType &&& a.recordType ≠ 0

/-- The basket is from one day. -/
def singleDay (mday : Mday) (bgi : BasketGlobalInfo) : Bool :=
  bgi.endTime - bgi.beginTime < 24 * 60 * 60 ∧ mday bgi.beginTime = mday bgi.endTime

/-- The fragment has its day marked. -/
def FindArgs.marks (a : FindArgs) (bf : BasketFragment) : Bool :=
  if bf.iframeNum = 0 ∨ bf.fragmentSize = 0 then false
  else if a.endTime ≤ bf.beginTime ∨ a.beginTime ≥ bf.endTime then false
  else if bf.recordType &&& a.recordType = 0 then false
  else a.beginTime ≤ bf.beginTime ∧ a.endTime ≥ bf.endTime

/-- The loop over the fragments of a basket. -/
def findFragments (mday : Mday) (a : FindArgs) (mask : UInt32) (bfList : List BasketFragment) :
    UInt32 :=
  bfList.foldl
    (fun mask bf => if a.marks bf then mask ||| dayBit (mday bf.beginTime) else mask) mask

/-- One round of the loop over the baskets. -/
def findBasket (mday : Mday) (a : FindArgs) (mask : UInt32) (bgi : BasketGlobalInfo) : UInt32 :=
  if a.looksAt bgi then
    if singleDay mday bgi then mask ||| dayBit (mday bgi.beginTime)
    else findFragments mday a mask bgi.bfList
  else mask

def strgDiskFind (mday : Mday) (dm : DiskMng) (a : FindArgs) : Int32 :=
  if a.endTime ≥ a.beginTime then
    (dm.bgiList.foldl (fun mask p => findBasket mday a mask (dm.bgi p)) 0).toInt32
  else -1

end Nvr.Storage
