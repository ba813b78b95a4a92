import Nvr.Proofs.DiskStep
import Nvr.Proofs.BasketStep

/-!
# What an operation appends to the log of the files

Every operation of the program adds to the log and takes nothing from it.
`Puts` lists the changes that come up: a record of a basket file, an entry of
the disk-global file, a flag file. A write may stop anywhere, so each of them
is a prefix of the record.

Which headers go to the basket files and to the disk-global file is what the
statements about the files turn on; `H` and `G` are what is known of them, and
`B` of the places of the fragments in the disk-global file.
-/

namespace Nvr.Storage

/-- `dev'` is `dev` with some more changes of the kind `Q`. -/
structure Dev.Grows (Q : FileOp FilePath → Prop) (dev dev' : Dev) : Prop where
  env : dev'.env = dev.env
  log : ∃ ops, dev'.log = dev.log ++ ops ∧ dev'.store = dev.store.replay ops ∧ ∀ op ∈ ops, Q op

namespace Dev.Grows

variable {Q Q' : FileOp FilePath → Prop} {a b c : Dev}

theorem refl (a : Dev) : a.Grows Q a := ⟨rfl, [], by simp, rfl, by simp⟩

theorem wait (a : Dev) : a.Grows Q a.wait := ⟨rfl, [], by simp, rfl, by simp⟩

theorem commit {op : FileOp FilePath} (h : Q op) : a.Grows Q (a.commit op) :=
  ⟨rfl, [op], rfl, rfl, by simpa using h⟩

theorem trans (h : a.Grows Q b) (h' : b.Grows Q c) : a.Grows Q c := by
  obtain ⟨ops, hlog, hstore, hops⟩ := h.log
  obtain ⟨ops', hlog', hstore', hops'⟩ := h'.log
  refine ⟨h'.env.trans h.env, ops ++ ops', ?_, ?_, ?_⟩
  · rw [hlog', hlog, List.append_assoc]
  · rw [hstore', hstore, FileStore.replay_append]
  · intro op hop
    rcases List.mem_append.1 hop with hop | hop
    · exact hops op hop
    · exact hops' op hop

theorem mono (hQ : ∀ op, Q op → Q' op) (h : a.Grows Q b) : a.Grows Q' b := by
  obtain ⟨ops, hlog, hstore, hops⟩ := h.log
  exact ⟨h.env, ops, hlog, hstore, fun op hop => hQ op (hops op hop)⟩

/-- A write, however far it gets. -/
theorem write {p : FilePath} {data : List UInt8} {off : Nat}
    (h : ∀ n, Q (.write p off (data.take n))) : a.Grows Q (strgWrite a p data off).2 := by
  obtain ⟨n, hn⟩ := strgWrite_commit a p data off
  rw [hn]
  exact commit (h n)

end Dev.Grows

/-- A change of the files that the program makes. -/
inductive Puts (H G : Nat → BasketGlobal → Prop) (B : Nat → Prop) : FileOp FilePath → Prop
  | header {idx : Nat} {bg : BasketGlobal} (n : Nat) (h : H idx bg) :
      Puts H G B (.write (.basket idx) basketGlobalOft ((BasketGlobal.format.encode bg).take n))
  | fragment (idx bfIdx : Nat) (bf : BasketFragment) (n : Nat) :
      Puts H G B (.write (.basket idx) (fragmentOft bfIdx)
        ((BasketFragment.format.encode bf).take n))
  | index (idx : Nat) {r : BasketIFrame} (ifIdx : Int32) (n : Nat)
      (h : r.magic = basketIframeMagic) :
      Puts H G B (.write (.basket idx) (iframeOft ifIdx) ((BasketIFrame.format.encode r).take n))
  | frame (idx : Nat) (pos : UInt32) {bframe : BasketFrame} (n : Nat)
      (h : bframe.magic = basketFrameMagic) :
      Puts H G B (.write (.basket idx) pos.toNat ((BasketFrame.format.encode bframe).take n))
  | data (idx : Nat) {pos : UInt32} (data : List UInt8) (h : pos.toNat < seekEnd) :
      Puts H G B (.write (.basket idx) (pos + UInt32.ofNat basketFrameLen).toNat data)
  | entryHeader {idx : Nat} {bg : BasketGlobal} (n : Nat) (h : G idx bg) :
      Puts H G B (.write .global (diskBgOft idx) ((BasketGlobal.format.encode bg).take n))
  | entryFragment (idx : Nat) {bfIdx : Nat} (bf : BasketFragment) (n : Nat) (h : B bfIdx) :
      Puts H G B (.write .global (diskBfOft idx bfIdx)
        ((BasketFragment.format.encode bf).take n))
  | diskHeader (dg : DiskGlobal) (n : Nat) :
      Puts H G B (.write .global diskGlobalOft ((DiskGlobal.format.encode dg).take n))
  | create (p : FilePath) : Puts H G B (.create p)
  | unlink (p : FilePath) : Puts H G B (.unlink p)

section Baskets

variable {H G : Nat → BasketGlobal → Prop} {B : Nat → Prop}

theorem strgBasketWriteGlobal_grows {dev : Dev} {idx : Nat} {bg : BasketGlobal} (h : H idx bg) :
    dev.Grows (Puts H G B) (strgBasketWriteGlobal dev idx bg).2 := .write fun n => .header n h

theorem strgBasketWriteFragment_grows (dev : Dev) (idx bfIdx : Nat) (bf : BasketFragment) :
    dev.Grows (Puts H G B) (strgBasketWriteFragment dev idx bf bfIdx).2 :=
  .write fun n => .fragment idx bfIdx bf n

theorem strgBasketWriteIframe_grows (dev : Dev) (idx : Nat) {r : BasketIFrame} (ifIdx : Int32)
    (h : r.magic = basketIframeMagic) :
    dev.Grows (Puts H G B) (strgBasketWriteIframe dev idx r ifIdx).2 :=
  .write fun n => .index idx ifIdx n h

theorem sampledHeader_magic (dev : Dev) (bframe : BasketFrame) (data : List UInt8) :
    (sampledHeader dev bframe data).magic = bframe.magic := by
  unfold sampledHeader strgBasketCalcFrameDataChecksum
  simp only
  split <;> rfl

theorem strgBasketWriteFrame_grows (dev : Dev) (idx : Nat) (pos : UInt32) {bframe : BasketFrame}
    (data : List UInt8) (h : bframe.magic = basketFrameMagic) :
    dev.Grows (Puts H G B) (strgBasketWriteFrame dev idx pos bframe data).2 := by
  have hmagic := (sampledHeader_magic dev bframe data).trans h
  unfold strgBasketWriteFrame
  simp only
  split
  · next hheader =>
      exact (Dev.Grows.write fun n => .frame idx pos n hmagic).trans
        (.write fun n => .data idx (data.take n) (strgWrite_seek hheader))
  · exact .write fun n => .frame idx pos n hmagic

theorem strgBasketWriteStart_grows {b : Basket} {chn : Int32} {recordType : RecordType}
    (h : H b.bgi.basketIdx b.bgi.bg.addFragment) :
    b.dev.Grows (Puts H G B) (strgBasketWriteStart b chn recordType).2.dev := by
  unfold strgBasketWriteStart
  split
  · exact .refl _
  · split
    · exact .refl _
    · simp only
      split
      · split
        · exact (strgBasketWriteFragment_grows _ _ _ _).trans (strgBasketWriteGlobal_grows h)
        · exact (strgBasketWriteFragment_grows _ _ _ _).trans (strgBasketWriteGlobal_grows h)
      · exact strgBasketWriteFragment_grows _ _ _ _

theorem strgBasketWrite_grows (b : Basket) (minutes : Int32) (curTime : UInt64) (f : Frame) :
    b.dev.Grows (Puts H G B) (strgBasketWrite b minutes curTime f).2.dev := by
  unfold strgBasketWrite
  split
  · exact .refl _
  simp only
  split
  · exact .refl _
  split
  · exact .refl _
  split
  · exact .refl _
  split
  · exact .refl _
  have hframe := strgBasketWriteFrame_grows (H := H) (G := G) (B := B) b.dev b.bgi.basketIdx
  split
  · split
    · split
      · exact (hframe _ _ rfl).trans (strgBasketWriteIframe_grows _ _ _ rfl)
      · exact (hframe _ _ rfl).trans (strgBasketWriteIframe_grows _ _ _ rfl)
    · split
      · exact hframe _ _ rfl
      · exact hframe _ _ rfl
  · exact hframe _ _ rfl

theorem strgBasketWriteStop_grows {b : Basket}
    (h : ∀ i, b.bfi.curBf = some i → H b.bgi.basketIdx b.bgi.bg.clearWriting) :
    b.dev.Grows (Puts H G B) (strgBasketWriteStop b).dev := by
  unfold strgBasketWriteStop
  split
  · exact .refl _
  · next i hi =>
      exact (strgBasketWriteFragment_grows _ _ _ _).trans (strgBasketWriteGlobal_grows (h i hi))

theorem strgBasketReset_grows {b : Basket} {chn : Int32} {useCnt : UInt32}
    (h : H b.bgi.basketIdx (b.bgi.reset chn useCnt).bg) :
    b.dev.Grows (Puts H G B) (strgBasketReset b chn useCnt).2.dev :=
  strgBasketWriteGlobal_grows h

end Baskets

section Disks

variable {H G : Nat → BasketGlobal → Prop} {B : Nat → Prop}

theorem writeEntry_grows (dm : DiskMng) {p bfIdx : Nat} {bf : BasketFragment} (hB : B bfIdx)
    (hG : G (dm.bgi p).basketIdx (dm.bgi p).bg) :
    dm.dev.Grows (Puts H G B) (dm.writeEntry p bfIdx bf).dev :=
  (Dev.Grows.write fun n => .entryFragment _ bf n hB).trans
    (.write fun n => .entryHeader n hG)

theorem flagOnce_grows (dm : DiskMng) : dm.dev.Grows (Puts H G B) dm.flagOnce.dev := by
  unfold DiskMng.flagOnce strgDiskCreateFlagFile
  split
  · exact .refl _
  · simp only
    split
    · exact .commit (.create _)
    · exact .wait _

theorem strgDiskReset_grows (dm : DiskMng) (overwrite : UInt32) :
    dm.dev.Grows (Puts H G B) (strgDiskReset dm overwrite).2.dev := by
  unfold strgDiskReset
  split
  · simp only
    split
    · exact .write fun n => .diskHeader _ n
    · exact .write fun n => .diskHeader _ n
  · exact .refl _

theorem strgDiskReadStart_grows (dm : DiskMng) (q : RecordQueryInfo) :
    dm.dev.Grows (Puts H G B) (strgDiskReadStart dm q).2.dev := by
  have hbasket : dm.dev.Grows (Puts H G B) dm.dev ∧ ∀ bgi : BasketGlobalInfo,
      dm.dev.Grows (Puts H G B) (strgBasketReadStart dm.dev bgi q).2.1 := by
    refine ⟨.refl _, fun bgi => ?_⟩
    unfold strgBasketReadStart
    split
    · split
      · exact .refl _
      · simp only
        split
        · exact .wait _
        · split <;> exact .wait _
    · exact .refl _
  unfold strgDiskReadStart
  split
  · split
    · exact hbasket.1
    · simp only
      split
      · exact hbasket.2 _
      · exact hbasket.2 _
  · exact hbasket.1

theorem strgDiskReadStop_dev (dm : DiskMng) (handle : Nat) :
    (strgDiskReadStop dm handle).dev = dm.dev := by
  unfold strgDiskReadStop
  split <;> rfl

theorem strgDiskFreeBasket_dev (dm : DiskMng) (chn : Chn) :
    (strgDiskFreeBasket dm chn).dev = dm.dev := by
  unfold strgDiskFreeBasket
  split
  · rfl
  · split <;> rfl

theorem strgDiskWrite_grows (dm : DiskMng) (chn : Chn) (minutes : Int32) (curTime : UInt64)
    (f : Frame) : dm.dev.Grows (Puts H G B) (strgDiskWrite dm chn minutes curTime f).2.dev := by
  unfold strgDiskWrite
  split
  · exact .refl _
  · next bfi _ =>
      have hwrite := strgBasketWrite_grows (H := H) (G := G) (B := B) (dm.basket bfi) minutes
        curTime f
      simp only
      split
      · exact hwrite
      · exact hwrite

theorem strgDiskWriteSetType_grows {dm : DiskMng} {chn : Chn} {type : RecordType}
    (h : ∀ bfi i, dm.bfiCur chn = some bfi → bfi.curBf = some i →
      B bfi.curBfIdx ∧ G (dm.bgi bfi.bgi).basketIdx (dm.bgi bfi.bgi).bg) :
    dm.dev.Grows (Puts H G B) (strgDiskWriteSetType dm chn type).2.dev := by
  unfold strgDiskWriteSetType
  split
  · exact .refl _
  · next bfi hcur =>
      split
      · exact .refl _
      · next i hi =>
          obtain ⟨hB, hG⟩ := h bfi i hcur hi
          simp only
          split
          · refine writeEntry_grows (dm.setBgi bfi.bgi _) hB ?_
            rw [DiskMng.bgi_setBgi, Function.update_self]
            exact hG
          · exact .refl _

theorem recordStart_grows {dm : DiskMng} {chn : Chn} {b : Basket} (hB : B b.bfi.curBfIdx)
    (hG : G b.bgi.basketIdx b.bgi.bg) :
    b.dev.Grows (Puts H G B) (dm.recordStart chn b).dev := by
  refine (flagOnce_grows (dm.putBasket chn b)).trans (writeEntry_grows _ hB ?_)
  rw [bgi_flagOnce, DiskMng.putBasket, DiskMng.bgi_setCur, DiskMng.bgi_setBgi,
    Function.update_self]
  exact hG

theorem recordStop_grows {dm : DiskMng} {chn : Chn} {bfi : BasketFileInfo} {i : Nat}
    (hcur : bfi.curBf = some i) (hB : B bfi.curBfIdx)
    (hH : H (dm.bgi bfi.bgi).basketIdx (dm.bgi bfi.bgi).bg.clearWriting)
    (hG : G (dm.bgi bfi.bgi).basketIdx (dm.bgi bfi.bgi).bg.clearWriting) :
    dm.dev.Grows (Puts H G B) (dm.recordStop chn bfi i).dev := by
  have hput : (dm.putBasket chn (strgBasketWriteStop (dm.basket bfi))).bgi bfi.bgi =
      (dm.bgi bfi.bgi).closeFragment i := by
    have hstop : (strgBasketWriteStop (dm.basket bfi)).bfi.bgi = bfi.bgi ∧
        (strgBasketWriteStop (dm.basket bfi)).bgi = (dm.bgi bfi.bgi).closeFragment i := by
      unfold strgBasketWriteStop
      simp [DiskMng.basket, hcur]
    rw [DiskMng.putBasket, DiskMng.bgi_setCur, DiskMng.bgi_setBgi, hstop.1, hstop.2,
      Function.update_self]
  have hwrite : dm.dev.Grows (Puts H G B) (strgBasketWriteStop (dm.basket bfi)).dev :=
    strgBasketWriteStop_grows (b := dm.basket bfi) fun _ _ => hH
  refine hwrite.trans (writeEntry_grows (dm.putBasket chn _) hB ?_)
  rw [hput]
  exact hG

end Disks

end Nvr.Storage
