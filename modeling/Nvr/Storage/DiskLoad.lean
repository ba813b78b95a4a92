import Nvr.Storage.BasketScan
import Nvr.Storage.Disk

/-!
# Formatting, opening and closing a disk

A disk that was closed is opened from its disk-global file, where every basket
has an entry with its header and its fragments. The flag file says that it was
not closed: then the baskets are scanned instead, and their entries written
anew. Closing writes the entries of the baskets that have changed since.
-/

namespace Nvr.Storage

/-! ## `strg_disk_global_write` -/

/-- The fragments of a list to the entry of a basket, from place `bfIdx` on. -/
def writeBfs (basketIdx : Nat) : Nat → List BasketFragment → Dev → Dev
  | _, [], dev => dev
  | bfIdx, bf :: bfs, dev =>
      writeBfs basketIdx (bfIdx + 1) bfs (strgDiskWriteBf dev basketIdx bfIdx bf).2

/-- A basket and its fragments, all idle. -/
def BasketGlobalInfo.idle (bgi : BasketGlobalInfo) : BasketGlobalInfo :=
  { bgi with
    bg := { bgi.bg with status := useStatusIdle }
    bfList := bgi.bfList.map fun bf => { bf with status := useStatusIdle }
    updateFlag := false }

/-- One round of `strg_disk_global_write`. -/
def DiskMng.writeBasket (dm : DiskMng) (p : Nat) : DiskMng :=
  if (dm.bgi p).updateFlag then
    let bgi := (dm.bgi p).idle
    let dev := (strgDiskWriteBg dm.dev bgi.basketIdx bgi.bg).2
    (dm.setDev (writeBfs bgi.basketIdx 0 bgi.bfList dev)).setBgi p bgi
  else dm

def strgDiskGlobalWrite (dm : DiskMng) : DiskMng := dm.bgiList.foldl DiskMng.writeBasket dm

/-! ## Loading -/

/-- A disk whose global header has been read, with no baskets yet. -/
def DiskMng.empty (diskIdx : Int32) (dev : Dev) (dg : DiskGlobal) : DiskMng where
  diskIdx := diskIdx
  dev := dev
  totalValidSize := dg.basketNum.toInt64.toUInt64 * UInt64.ofNat basketFrameSize
  freeValidSize := dg.basketNum.toInt64.toUInt64 * UInt64.ofNat basketFrameSize
  dg := dg
  bgi := .alloc
  bgiList := []
  bgiNew := []
  bgiOld := []
  bfiCur _ := none
  readList := []
  nextHandle := 0
  createFlagFile := false
  discards := []

/-- A loaded basket joins the lists. -/
def DiskMng.addBasket (dm : DiskMng) (bgi : BasketGlobalInfo) : DiskMng :=
  let p := bgi.basketIdx
  let dm := { dm with bgiList := dm.bgiList ++ [p] }.setBgi p bgi
  if dm.dg.useCnt = bgi.bg.useCnt then
    { dm with
      bgiNew := dm.bgiNew ++ [p]
      freeValidSize := dm.freeValidSize - bgi.freeSpace.toUInt64 }
  else { dm with bgiOld := dm.bgiOld ++ [p] }

/-- The fragments of one entry of the disk-global file, from place `bfIdx` on.
The header may be replaced on the way, so the bound is looked up every time. -/
def openFragments : Nat → Nat → Dev → BasketGlobalInfo → Dev × BasketGlobalInfo
  | 0, _, dev, bgi => (dev, bgi)
  | fuel + 1, bfIdx, dev, bgi =>
      if bfIdx < bgi.bg.fragmentNum.toNat then
        match (strgRead dev .global basketFragmentLen (diskBfOft bgi.basketIdx bfIdx)).bind
            BasketFragment.format.decode with
        | none => (dev, bgi)
        | some bf =>
            if bf.useCnt ≠ bgi.bg.useCnt then (dev, bgi)
            else if bf.status &&& useStatusWriting ≠ 0 then
              let scanned := strgBasketScanFragment dev bgi bfIdx
              match scanned.1 with
              | none => (scanned.2, bgi)
              | some (bf, bgi) =>
                  let dev := (strgDiskWriteBf scanned.2 bgi.basketIdx bfIdx bf).2
                  let bgi := { bgi with bg := { bgi.bg with status := useStatusIdle } }
                  let dev := (strgDiskWriteBg dev bgi.basketIdx bgi.bg).2
                  openFragments fuel (bfIdx + 1) dev (bgi.loadFragment bf)
            else openFragments fuel (bfIdx + 1) dev (bgi.loadFragment bf)
      else (dev, bgi)

/-- The loop of `strg_disk_global_open` over the entries, `n` of them from
`basketIdx` on. An entry that cannot be read ends it; one with a wrong checksum
is passed over. -/
def openBaskets : Nat → Nat → DiskMng → DiskMng
  | 0, _, dm => dm
  | n + 1, basketIdx, dm =>
      match strgRead dm.dev .global basketGlobalLen (diskBgOft basketIdx) with
      | none => dm
      | some bytes =>
          match BasketGlobal.format.decode bytes with
          | none => openBaskets n (basketIdx + 1) dm
          | some bg =>
              let opened := openFragments UInt32.size 0 dm.dev
                ((BasketGlobalInfo.alloc basketIdx).vacant bg)
              openBaskets n (basketIdx + 1) ((dm.setDev opened.1).addBasket opened.2)

/-- The global file is opened and its header read. -/
def openGlobal (diskIdx : Int32) (dev : Dev) : Option DiskMng × Dev :=
  if dev.env.openOk dev.tick then
    match strgDiskReadGlobal dev.wait with
    | none => (none, dev.wait)
    | some dg => (some (.empty diskIdx dev.wait dg), dev.wait)
  else (none, dev.wait)

def strgDiskGlobalOpen (diskIdx : Int32) (dev : Dev) : Option DiskMng × Dev :=
  match openGlobal diskIdx dev with
  | (none, dev) => (none, dev)
  | (some dm, _) =>
      let dm := openBaskets dm.dg.basketNum.toNatClampNeg 0 dm
      (some dm, dm.dev)

/-- The loop of `strg_disk_global_scan`. -/
def scanBaskets : Nat → Nat → DiskMng → DiskMng
  | 0, _, dm => dm
  | n + 1, basketIdx, dm =>
      let scanned := strgBasketScan dm.dev (.alloc basketIdx)
      let dm := dm.setDev scanned.2
      match scanned.1 with
      | none =>
          scanBaskets n (basketIdx + 1)
            { dm with freeValidSize := dm.freeValidSize - UInt64.ofNat basketFrameSize }
      | some bgi => scanBaskets n (basketIdx + 1) (dm.addBasket bgi)

def strgDiskGlobalScan (diskIdx : Int32) (dev : Dev) : Option DiskMng × Dev :=
  match openGlobal diskIdx dev with
  | (none, dev) => (none, dev)
  | (some dm, _) =>
      let dm := scanBaskets dm.dg.basketNum.toNatClampNeg 0 dm
      (some dm, dm.dev)

/-- `strg_disk_delete_flag_file`. -/
def strgDiskDeleteFlagFile (dev : Dev) : Dev := dev.commit (.unlink .writeFlag)

def strgDiskOpen (diskIdx : Int32) (dev : Dev) : Option DiskMng × Dev :=
  if dev.store.present .formatFlag then
    if dev.store.present .writeFlag then
      match strgDiskGlobalScan diskIdx dev with
      | (none, dev) => (none, dev)
      | (some dm, _) =>
          let dm := strgDiskGlobalWrite dm
          let dm := dm.setDev (strgDiskDeleteFlagFile dm.dev)
          (some dm, dm.dev)
    else strgDiskGlobalOpen diskIdx dev
  else (none, dev)

/-! ## Closing -/

/-- Every handle is stopped. -/
def stopReaders (dm : DiskMng) : DiskMng :=
  { dm.readList.foldl (fun dm h => dm.setBgi h.2.bgi (strgBasketReadStop (dm.bgi h.2.bgi))) dm with
    readList := [] }

/-- `strg_disk_close`: what it leaves behind. -/
def strgDiskClose (dm : DiskMng) : Dev :=
  strgDiskDeleteFlagFile (strgDiskGlobalWrite (stopReaders dm)).dev

/-! ## Formatting -/

/-- The entries of `n` unused baskets from `basketIdx` on. -/
def formatEntries : Nat → Nat → Dev → Dev
  | 0, _, dev => dev
  | n + 1, basketIdx, dev =>
      formatEntries n (basketIdx + 1) (strgDiskWriteBg dev basketIdx .unused).2

/-- `strg_disk_global_format` on a disk with `freeMb` megabytes free. Nothing
in it is checked. -/
def strgDiskGlobalFormat (dev : Dev) (freeMb : Int32) : Int32 × Dev :=
  let basketNum := freeMb * 98 / 100 / Int32.ofNat (basketSize / 1048576)
  if dev.env.openOk dev.tick then
    let dev := (strgDiskWriteGlobal dev.wait ⟨diskGlobalMagic, 1, basketNum⟩).2
    (basketNum, formatEntries basketNum.toNatClampNeg 0 dev)
  else (basketNum, dev.wait)

def strgBasketFormat (dev : Dev) (basketIdx : Nat) : Bool × Dev :=
  if dev.env.openOk dev.tick then strgBasketWriteGlobal dev.wait basketIdx .unused
  else (false, dev.wait)

/-- The loop of `strg_format_create_baskets`. -/
def formatBaskets : Nat → Nat → Dev → Bool × Dev
  | 0, _, dev => (true, dev)
  | n + 1, basketIdx, dev =>
      let format := strgBasketFormat dev basketIdx
      if format.1 then formatBaskets n (basketIdx + 1) format.2 else format

def strgFormatCreateBaskets (dev : Dev) (freeMb : Int32) : Bool × Dev :=
  let format := strgDiskGlobalFormat dev freeMb
  if format.1 < 0 then (false, format.2)
  else formatBaskets format.1.toNatClampNeg 0 format.2

/-- `strg_format_create_flag_file`. -/
def strgFormatCreateFlagFile (dev : Dev) : Dev :=
  if dev.env.openOk dev.tick then dev.commit (.create .formatFlag) else dev.wait

/-- What `strg_format_disk_func` does between making the file system and
unmounting it. -/
def strgFormatDisk (dev : Dev) (freeMb : Int32) : Option Dev :=
  let baskets := strgFormatCreateBaskets dev freeMb
  if baskets.1 then some (strgFormatCreateFlagFile baskets.2) else none

end Nvr.Storage
