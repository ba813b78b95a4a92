import Mathlib.Data.List.Sort
import Nvr.Storage.BasketRead

/-!
# A mounted disk and its baskets

`strg_disk.c`, from `strg_disk_reset` to `strg_disk_read_stop`. A disk keeps
its baskets in one list and each of them besides in one of two more, of the
current generation or of older ones, except while a channel writes it. A
recording takes a basket out of its list and puts it back when it stops.

A pointer to a basket is its index, so a list of baskets is a list of indices
and `bgi` is what they point to. A basket is never twice in a list; removing
its link is `erase`.
-/

namespace Nvr.Storage

/-- What `strg_basket_reset` was called on, and what the disk looked like at
that moment. Nothing in the program keeps this; it is the history that
statements about discarded footage speak of. -/
structure Discard where
  idx : Nat
  basket : BasketGlobalInfo
  bgiOld : List Nat
  bfiCur : Chn → Option BasketFileInfo
  readList : List (Nat × BasketReadInfo)
  useCnt : UInt32
  overwrite : UInt32

/-- `DiskMng`. A reading handle is a number with its cursor. -/
structure DiskMng where
  diskIdx : Int32
  dev : Dev
  totalValidSize : UInt64
  freeValidSize : UInt64
  dg : DiskGlobal
  bgi : Nat → BasketGlobalInfo
  bgiList : List Nat
  bgiNew : List Nat
  bgiOld : List Nat
  bfiCur : Chn → Option BasketFileInfo
  readList : List (Nat × BasketReadInfo)
  nextHandle : Nat
  createFlagFile : Bool
  discards : List Discard

/-! ## The disk-global file -/

def strgDiskWriteGlobal (dev : Dev) (dg : DiskGlobal) : Bool × Dev :=
  strgWrite dev .global (DiskGlobal.format.encode dg) diskGlobalOft

def strgDiskCheckGlobal (dg : DiskGlobal) : Option DiskGlobal :=
  if dg.magic = diskGlobalMagic then some dg else none

def strgDiskReadGlobal (dev : Dev) : Option DiskGlobal := do
  let bytes ← strgRead dev .global diskGlobalLen diskGlobalOft
  let dg ← DiskGlobal.format.decode bytes
  strgDiskCheckGlobal dg

def strgDiskWriteBg (dev : Dev) (basketIdx : Nat) (bg : BasketGlobal) : Bool × Dev :=
  strgWrite dev .global (BasketGlobal.format.encode bg) (diskBgOft basketIdx)

def strgDiskWriteBf (dev : Dev) (basketIdx bfIdx : Nat) (bf : BasketFragment) : Bool × Dev :=
  strgWrite dev .global (BasketFragment.format.encode bf) (diskBfOft basketIdx bfIdx)

namespace DiskMng

/-- The files have changed. -/
def setDev (dm : DiskMng) (dev : Dev) : DiskMng := { dm with dev := dev }

/-- What `p` points to has changed. -/
def setBgi (dm : DiskMng) (p : Nat) (bgi : BasketGlobalInfo) : DiskMng :=
  { dm with bgi := Function.update dm.bgi p bgi }

/-- The channel writes to `bfi`. -/
def setCur (dm : DiskMng) (chn : Chn) (bfi : Option BasketFileInfo) : DiskMng :=
  { dm with bfiCur := Function.update dm.bfiCur chn bfi }

section Fields

variable (dm : DiskMng) (dev : Dev) (p : Nat) (bgi : BasketGlobalInfo) (chn : Chn)
  (bfi : Option BasketFileInfo)

@[simp] theorem bgi_setDev : (dm.setDev dev).bgi = dm.bgi := rfl
@[simp] theorem bgi_setBgi : (dm.setBgi p bgi).bgi = Function.update dm.bgi p bgi := rfl
@[simp] theorem bgi_setCur : (dm.setCur chn bfi).bgi = dm.bgi := rfl
@[simp] theorem bfiCur_setDev : (dm.setDev dev).bfiCur = dm.bfiCur := rfl
@[simp] theorem bfiCur_setBgi : (dm.setBgi p bgi).bfiCur = dm.bfiCur := rfl
@[simp] theorem bfiCur_setCur :
    (dm.setCur chn bfi).bfiCur = Function.update dm.bfiCur chn bfi := rfl
@[simp] theorem dev_setDev : (dm.setDev dev).dev = dev := rfl
@[simp] theorem dev_setBgi : (dm.setBgi p bgi).dev = dm.dev := rfl
@[simp] theorem dev_setCur : (dm.setCur chn bfi).dev = dm.dev := rfl
@[simp] theorem bgiNew_setBgi : (dm.setBgi p bgi).bgiNew = dm.bgiNew := rfl
@[simp] theorem bgiOld_setBgi : (dm.setBgi p bgi).bgiOld = dm.bgiOld := rfl

end Fields

/-- A basket leaves `bgi_new` for the channel that has opened it. -/
def takeNew (dm : DiskMng) (chn : Chn) (bfi : BasketFileInfo) : DiskMng :=
  { dm with bgiNew := dm.bgiNew.erase bfi.bgi }.setCur chn (some bfi)

/-- A basket leaves `bgi_old` for the channel that has opened it. -/
def takeOld (dm : DiskMng) (chn : Chn) (bfi : BasketFileInfo) : DiskMng :=
  { dm with bgiOld := dm.bgiOld.erase bfi.bgi }.setCur chn (some bfi)

/-- The open basket behind `bfi`. -/
def basket (dm : DiskMng) (bfi : BasketFileInfo) : Basket := ⟨dm.dev, dm.bgi bfi.bgi, bfi⟩

/-- The disk after something was done to the open basket of a channel. -/
def putBasket (dm : DiskMng) (chn : Chn) (b : Basket) : DiskMng :=
  ((dm.setDev b.dev).setBgi b.bfi.bgi b.bgi).setCur chn (some b.bfi)

end DiskMng

/-! ## `strg_disk_reset` -/

/-- A basket that the reset would free for overwriting. -/
def resetFinds (overwrite : UInt32) (bgi : BasketGlobalInfo) : Bool :=
  if bgi.bg.chn ≠ -1 ∧ overwrite &&& chnBit bgi.bg.chn = 0 then false
  else if bgi.bg.status &&& useStatusReading ≠ 0 then false
  else chnBit bgi.bg.chn &&& overwrite ≠ 0

def strgDiskReset (dm : DiskMng) (overwrite : UInt32) : Int × DiskMng :=
  if dm.bgiNew.any fun p => resetFinds overwrite (dm.bgi p) then
    let dg := { dm.dg with useCnt := dm.dg.useCnt + 1 }
    let global := strgDiskWriteGlobal dm.dev dg
    let dm := { dm with freeValidSize := dm.totalValidSize, dev := global.2 }
    if global.1 then
      (0, { dm with dg := dg, bgiOld := dm.bgiOld ++ dm.bgiNew, bgiNew := [] })
    else (-1, { dm with dg := { dg with useCnt := dg.useCnt - 1 } })
  else (-1, dm)

/-! ## `strg_disk_alloc_basket` -/

/-- A basket of the current generation that the channel can go on with. -/
def allocFits (chn : Chn) (bgi : BasketGlobalInfo) : Bool :=
  if bgi.bg.chn = chnWord chn ∧ bgi.bg.status &&& useStatusReading = 0 then
    bgi.freeSpace ≥ basketSpaceMin ∧ bgi.bg.status &&& useStatusFull = 0 ∧
      bgi.bg.fragmentNum < UInt32.ofNat basketFragmentNum ∧ bgi.freeIframe ≥ basketIframeMin
  else false

/-- The loop over `bgi_new`; the list comes last basket first. -/
def allocNew (chn : Chn) : List Nat → DiskMng → Option BasketFileInfo × DiskMng
  | [], dm => (none, dm)
  | p :: rest, dm =>
      if allocFits chn (dm.bgi p) then
        let opened := strgBasketOpen dm.dev p
        let dm := dm.setDev opened.2
        match opened.1 with
        | none => allocNew chn rest dm
        | some bfi => (some bfi, dm.takeNew chn bfi)
      else allocNew chn rest dm

/-- A basket of an older generation that may be written over. -/
def overwritable (overwrite : UInt32) (bgi : BasketGlobalInfo) : Bool :=
  if bgi.bg.chn ≠ -1 ∧ overwrite &&& chnBit bgi.bg.chn = 0 then false
  else bgi.bg.status &&& useStatusReading = 0

/-- The basket at `p` is about to be reset. -/
def DiskMng.noteDiscard (dm : DiskMng) (p : Nat) (overwrite : UInt32) : DiskMng :=
  { dm with
    discards := dm.discards ++ [{
      idx := p
      basket := dm.bgi p
      bgiOld := dm.bgiOld
      bfiCur := dm.bfiCur
      readList := dm.readList
      useCnt := dm.dg.useCnt
      overwrite := overwrite }] }

/-- `strg_basket_reset` of the basket at `p`, noted in the history. -/
def DiskMng.resetBasket (dm : DiskMng) (p : Nat) (bfi : BasketFileInfo) (chn : Chn)
    (overwrite : UInt32) : Int × DiskMng :=
  let reset := strgBasketReset ⟨dm.dev, dm.bgi p, bfi⟩ (chnWord chn) dm.dg.useCnt
  (reset.1, ((dm.noteDiscard p overwrite).setDev reset.2.dev).setBgi p reset.2.bgi)

/-- The loop over `bgi_old`. -/
def allocOld (chn : Chn) (overwrite : UInt32) :
    List Nat → DiskMng → Option BasketFileInfo × DiskMng
  | [], dm => (none, dm)
  | p :: rest, dm =>
      if overwritable overwrite (dm.bgi p) then
        let opened := strgBasketOpen dm.dev p
        let dm := dm.setDev opened.2
        match opened.1 with
        | none => allocOld chn overwrite rest dm
        | some bfi =>
            let reset := dm.resetBasket p bfi chn overwrite
            let dm := reset.2
            if reset.1 < 0 then allocOld chn overwrite rest dm
            else (some bfi, dm.takeOld chn bfi)
      else allocOld chn overwrite rest dm

def strgDiskAllocBasket (dm : DiskMng) (chn : Chn) (overwrite : UInt32) :
    Option BasketFileInfo × DiskMng :=
  let new := allocNew chn dm.bgiNew.reverse dm
  match new.1 with
  | some bfi => (some bfi, new.2)
  | none => allocOld chn overwrite new.2.bgiOld new.2

/-- `strg_disk_free_basket`. The list it goes to is sorted by index as far as
it was. -/
def strgDiskFreeBasket (dm : DiskMng) (chn : Chn) : DiskMng :=
  match dm.bfiCur chn with
  | none => dm
  | some bfi =>
      if (dm.bgi bfi.bgi).bg.useCnt = dm.dg.useCnt then
        { dm with bgiNew := dm.bgiNew.orderedInsert (· ≤ ·) bfi.bgi }.setCur chn none
      else { dm with bgiOld := dm.bgiOld.orderedInsert (· ≤ ·) bfi.bgi }.setCur chn none

/-! ## Recording -/

/-- `strg_disk_create_flag_file`. The time it writes into the file is not read
again. -/
def strgDiskCreateFlagFile (dev : Dev) : Dev :=
  if dev.env.openOk dev.tick then dev.commit (.create .writeFlag) else dev.wait

/-- The flag file is created once for a disk, at its first recording. -/
def DiskMng.flagOnce (dm : DiskMng) : DiskMng :=
  if dm.createFlagFile then dm
  else { dm with createFlagFile := true, dev := strgDiskCreateFlagFile dm.dev }

@[simp] theorem bgi_flagOnce (dm : DiskMng) : dm.flagOnce.bgi = dm.bgi := by
  unfold DiskMng.flagOnce
  split <;> rfl

@[simp] theorem bfiCur_flagOnce (dm : DiskMng) : dm.flagOnce.bfiCur = dm.bfiCur := by
  unfold DiskMng.flagOnce
  split <;> rfl

/-- A fragment and its header go to the disk-global file. Neither write is
checked. -/
def DiskMng.writeEntry (dm : DiskMng) (p : Nat) (bfIdx : Nat) (bf : BasketFragment) : DiskMng :=
  let bgi := dm.bgi p
  let fragment := strgDiskWriteBf dm.dev bgi.basketIdx bfIdx bf
  dm.setDev (strgDiskWriteBg fragment.2 bgi.basketIdx bgi.bg).2

/-- The fragment that an open basket is writing. -/
def DiskMng.curFragment (dm : DiskMng) (bfi : BasketFileInfo) : BasketFragment :=
  (dm.bgi bfi.bgi).bfList.getD (bfi.curBf.getD 0) default

/-- The loop of `strg_disk_write_start`: it comes to an end unless some write
goes on failing for ever. -/
def strgDiskWriteStart (chn : Chn) (recordType : RecordType) (overwrite : UInt32) :
    Nat → DiskMng → Option (Int × DiskMng)
  | 0, _ => none
  | fuel + 1, dm =>
      let alloc := strgDiskAllocBasket dm chn overwrite
      match alloc.1 with
      | none => some (-1, alloc.2)
      | some bfi =>
          let started := strgBasketWriteStart (alloc.2.basket bfi) (chnWord chn) recordType
          let dm := alloc.2.putBasket chn started.2
          if started.1 < 0 then
            strgDiskWriteStart chn recordType overwrite fuel (strgDiskFreeBasket dm chn)
          else
            let bfi := started.2.bfi
            let dm := dm.flagOnce
            let dm := dm.writeEntry bfi.bgi bfi.curBfIdx (dm.curFragment bfi)
            some (dm.diskIdx.toInt, dm)

/-- The basket at `p` has nothing for `strg_disk_close` to write. -/
def DiskMng.clearUpdate (dm : DiskMng) (p : Nat) : DiskMng :=
  dm.setBgi p { dm.bgi p with updateFlag := false }

def strgDiskWriteStop (dm : DiskMng) (chn : Chn) : DiskMng :=
  match dm.bfiCur chn with
  | none => dm
  | some bfi =>
      match bfi.curBf with
      | none => dm
      | some i =>
          let dm := dm.putBasket chn (strgBasketWriteStop (dm.basket bfi))
          let dm := dm.writeEntry bfi.bgi bfi.curBfIdx ((dm.bgi bfi.bgi).bfList.getD i default)
          strgDiskFreeBasket (dm.clearUpdate bfi.bgi) chn

def strgDiskWrite (dm : DiskMng) (chn : Chn) (minutes : Int32) (curTime : UInt64) (f : Frame) :
    Int × DiskMng :=
  match dm.bfiCur chn with
  | none => (-1, dm)
  | some bfi =>
      let written := strgBasketWrite (dm.basket bfi) minutes curTime f
      let dm := dm.putBasket chn written.2
      (written.1,
        if written.1 > 0 then
          { dm with
            freeValidSize := dm.freeValidSize - (UInt32.ofNat basketFrameLen + f.size).toUInt64 }
        else dm)

/-- `record_type |= type`. -/
def BasketFragment.addType (bf : BasketFragment) (type : RecordType) : BasketFragment :=
  { bf with recordType := bf.recordType ||| type }

/-- The basket with `type` added to the fragment at place `i`. -/
def BasketGlobalInfo.addType (bgi : BasketGlobalInfo) (i : Nat) (type : RecordType) :
    BasketGlobalInfo :=
  { bgi with bfList := bgi.bfList.modify i fun bf => bf.addType type }

def strgDiskWriteSetType (dm : DiskMng) (chn : Chn) (type : RecordType) : Int × DiskMng :=
  match dm.bfiCur chn with
  | none => (-1, dm)
  | some bfi =>
      match bfi.curBf with
      | none => (-1, dm)
      | some i =>
          let bf := (dm.bgi bfi.bgi).bfList.getD i default
          if bf.recordType &&& type = 0 then
            let dm := dm.setBgi bfi.bgi ((dm.bgi bfi.bgi).addType i type)
            (0, dm.writeEntry bfi.bgi bfi.curBfIdx (bf.addType type))
          else (0, dm)

/-! ## Playing back -/

/-- The search of `strg_disk_read_start`. -/
def DiskMng.findBasket (dm : DiskMng) (q : RecordQueryInfo) : Option Nat :=
  dm.bgiList.find? fun p =>
    Int32.ofNat (dm.bgi p).basketIdx = q.basketIdx ∧ (dm.bgi p).bg.chn = q.chn

/-- The new handle, `none` for a null pointer. -/
def strgDiskReadStart (dm : DiskMng) (q : RecordQueryInfo) :
    Option (Nat × StorageFragmentInfo) × DiskMng :=
  if q.chn < Int32.ofNat maxChn ∧ q.basketIdx < dm.dg.basketNum then
    match dm.findBasket q with
    | none => (none, dm)
    | some p =>
        let started := strgBasketReadStart dm.dev (dm.bgi p) q
        let dm := (dm.setDev started.2.1).setBgi p started.2.2
        match started.1 with
        | none => (none, dm)
        | some (bri, sfi) =>
            (some (dm.nextHandle, sfi),
              { dm with
                readList := dm.readList ++ [(dm.nextHandle, { bri with bgi := p })]
                nextHandle := dm.nextHandle + 1 })
  else (none, dm)

/-- `strg_disk_read_stop` of a live handle; others have been sorted out by
`strg_mng_read_valid`. -/
def strgDiskReadStop (dm : DiskMng) (handle : Nat) : DiskMng :=
  match dm.readList.find? fun h => h.1 = handle with
  | none => dm
  | some h =>
      { dm with readList := dm.readList.eraseP fun h => h.1 = handle }.setBgi h.2.bgi
        (strgBasketReadStop (dm.bgi h.2.bgi))

end Nvr.Storage
