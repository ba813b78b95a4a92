import Nvr.Proofs.FileLog
import Nvr.Proofs.Ownership
import Nvr.Proofs.Readers

/-!
# What is thrown away, and when it may be

Recorded footage goes when a basket is reset, and nowhere else. `Discard` has
the disk as it was at that moment; `Permitted` is what has to hold of it: the
basket belongs to an older generation and waits in `bgi_old`, nobody writes or
reads it, and its channel may be overwritten.

Where this comes from is spread over the program. That a basket of `bgi_old` is
of an older generation is kept by `strg_disk_reset` and `strg_disk_free_basket`,
and it is lost in one place: `strg_basket_reset` gives the basket the present
generation before its header is written, and does not take that back when the
write fails, so the basket is then in `bgi_old` and of the present generation.
The other way is for the generation counter to come round to a basket that
still has the new value.
-/

namespace Nvr.Storage

open WordRecord

/-- The overwriting was allowed. -/
structure Discard.Permitted (d : Discard) : Prop where
  old : d.idx ∈ d.bgiOld
  generation : d.basket.bg.useCnt ≠ d.useCnt
  unwritten : ∀ chn bfi, d.bfiCur chn = some bfi → bfi.bgi ≠ d.idx
  readRef : d.basket.readRef = 0
  unread : ∀ h ∈ d.readList, h.2.bgi ≠ d.idx
  mask : d.basket.bg.chn = -1 ∨ d.overwrite &&& chnBit d.basket.bg.chn ≠ 0

/-- The change writes over the header of basket `p`, with 0 for its
`fragment_num`: it starts with the magic number of a header, and the fifth word
is there and is 0. -/
def ClearsHeader (p : Nat) : FileOp FilePath → Prop
  | .write path off data =>
      path = .basket p ∧ off = basketGlobalOft ∧
        data.take 4 = wordBytes basketGlobalMagic ∧ (data.drop 16).take 4 = wordBytes 0
  | _ => False

/-! ## Which writes clear a header -/

theorem wordBytes_inj {v w : UInt32} (h : wordBytes v = wordBytes w) : v = w := by
  have hv := bytesWord_wordBytes v
  have hw := bytesWord_wordBytes w
  simp only [wordBytes, List.cons.injEq, and_true] at h
  rw [← hv, ← hw, h.1, h.2.1, h.2.2.1, h.2.2.2]

/-- A word that is read back from what a broken-off write has left was
written. -/
theorem word_of_take {l : List UInt8} (rest : List UInt8) {v w : UInt32} {n : Nat} (hl : l = wordBytes v ++ rest)
    (h : (l.take n).take 4 = wordBytes w) : v = w := by
  have hlen := congrArg List.length h
  rw [List.take_take, List.length_take, length_wordBytes] at hlen
  have hn : min 4 n = 4 := by omega
  rw [List.take_take, hn, hl, List.take_append_of_le_length (by simp),
    List.take_of_length_le (by simp)] at h
  exact wordBytes_inj h

theorem puts_clearsHeader {H G : Nat → BasketGlobal → Prop} {B : Nat → Prop}
    {op : FileOp FilePath} {p : Nat} (h : Puts H G B op) (hclear : ClearsHeader p op) :
    ∃ bg, H p bg ∧ bg.fragmentNum = 0 := by
  cases h with
  | @header idx bg n hH =>
      obtain ⟨hpath, _, _, hnum⟩ := hclear
      obtain rfl := FilePath.basket.inj hpath
      rw [List.drop_take] at hnum
      exact ⟨bg, hH, word_of_take ((BasketGlobal.format.encode bg).drop 20) rfl hnum⟩
  | fragment idx bfIdx bf n =>
      obtain ⟨_, hoff, _⟩ := hclear
      rw [fragmentOft, basketFragmentOft, basketGlobalLen, basketGlobalOft] at hoff
      omega
  | @index idx r ifIdx n hmagic =>
      obtain ⟨_, _, hfirst, _⟩ := hclear
      have hword := word_of_take ((BasketIFrame.format.encode r).drop 4) rfl hfirst
      rw [hmagic] at hword
      exact absurd hword (by decide)
  | @frame idx pos bframe n hmagic =>
      obtain ⟨_, _, hfirst, _⟩ := hclear
      have hword := word_of_take ((BasketFrame.format.encode bframe).drop 4) rfl hfirst
      rw [hmagic] at hword
      exact absurd hword (by decide)
  | @data idx pos data hpos =>
      obtain ⟨_, hoff, _⟩ := hclear
      have hlen : (UInt32.ofNat basketFrameLen).toNat = 68 := rfl
      rw [seekEnd] at hpos
      rw [UInt32.toNat_add, hlen, basketGlobalOft] at hoff
      omega
  | entryHeader n hG => exact nomatch hclear.1
  | entryFragment idx bf n hB => exact nomatch hclear.1
  | diskHeader dg n => exact nomatch hclear.1
  | create => exact hclear.elim
  | unlink => exact hclear.elim

/-! ## What is kept about a disk -/

/-- The write of an emptied header does not fail. -/
def Env.HeadersHold (env : Env) : Prop :=
  ∀ n idx bg, bg.fragmentNum = 0 →
    env.writeCut n (.basket idx) basketGlobalOft (BasketGlobal.format.encode bg) = none

/-- No basket has the generation that a reset would give the disk. -/
def DiskMng.NoWrap (dm : DiskMng) : Prop :=
  ∀ p ∈ dm.bgiList, (dm.bgi p).bg.useCnt ≠ dm.dg.useCnt + 1

instance (dm : DiskMng) : Decidable dm.NoWrap :=
  inferInstanceAs (Decidable (∀ p ∈ dm.bgiList, (dm.bgi p).bg.useCnt ≠ dm.dg.useCnt + 1))

/-- The basket of a channel that is writing has a fragment. -/
def DiskMng.WritesFragment (dm : DiskMng) : Prop :=
  ∀ chn bfi i, dm.bfiCur chn = some bfi → bfi.curBf = some i →
    (dm.bgi bfi.bgi).bg.fragmentNum ≠ 0

structure Guarded (dm : DiskMng) : Prop where
  holds : dm.dev.env.HeadersHold
  once : AtMostOnce dm
  known : Known dm
  readers : ReadersCounted dm
  index : ∀ p ∈ dm.bgiList, (dm.bgi p).basketIdx = p
  older : ∀ p ∈ dm.bgiOld, (dm.bgi p).bg.useCnt ≠ dm.dg.useCnt
  writes : dm.WritesFragment

/-- Channels discard under this mask, and a reset finds no basket of the
generation it makes. -/
def DiscardsUnder (overwrite : UInt32) : Guard → DiskMng → Prop
  | .discard mask, _ => mask = overwrite
  | .reset, dm => dm.NoWrap
  | _, _ => True

theorem Loaded.guarded {dm : DiskMng} (h : Loaded dm) (henv : dm.dev.env.HeadersHold) :
    Guarded dm where
  holds := henv
  once := h.atMostOnce
  known := h.known
  readers := h.readersCounted
  index := h.index
  older p hp := by
    rw [h.old] at hp
    exact of_decide_eq_true (List.mem_filter.1 hp).2
  writes chn bfi i hcur := by
    rw [h.idle chn] at hcur
    cases hcur

/-- A header without fragments is written. -/
theorem resetBasket_ok {dm : DiskMng} (h : dm.dev.env.HeadersHold) {p : Nat}
    {bfi : BasketFileInfo} {chn : Chn} {overwrite : UInt32} :
    (dm.resetBasket p bfi chn overwrite).1 = 0 := by
  have hwrite : (strgBasketWriteGlobal dm.dev (dm.bgi p).basketIdx
      ((dm.bgi p).reset (chnWord chn) dm.dg.useCnt).bg).1 = true := by
    rw [strgBasketWriteGlobal, strgWrite, writeStops, if_pos (by decide), h _ _ _ rfl]
  show (if (strgBasketWriteGlobal dm.dev (dm.bgi p).basketIdx
    ((dm.bgi p).reset (chnWord chn) dm.dg.useCnt).bg).1 then (0 : Int) else -1) = 0
  rw [hwrite, if_pos rfl]

section Step

variable {C : Guard → DiskMng → Prop} {dm dm' : DiskMng} {overwrite : UInt32}

/-! ## Fragments under the channels -/

theorem writesFragment_of_eq (h : dm.WritesFragment)
    (hcur : ∀ chn bfi, dm'.bfiCur chn = some bfi → dm.bfiCur chn = some bfi)
    (hnum : ∀ p, (dm'.bgi p).bg.fragmentNum = (dm.bgi p).bg.fragmentNum) :
    dm'.WritesFragment := by
  intro chn bfi i hbfi hi
  rw [hnum]
  exact h chn bfi i (hcur chn bfi hbfi) hi

theorem writesFragment_putBasket {chn : Chn} {bfi : BasketFileInfo} {b : Basket}
    (h : dm.WritesFragment) (hfile : b.bfi.bgi = bfi.bgi)
    (hself : ∀ i, b.bfi.curBf = some i → b.bgi.bg.fragmentNum ≠ 0)
    (hmono : (dm.bgi bfi.bgi).bg.fragmentNum ≠ 0 → b.bgi.bg.fragmentNum ≠ 0) :
    (dm.putBasket chn b).WritesFragment := by
  intro c bfi' i hcur hi
  have hbgi := bgi_setBgi_apply (dm.setDev b.dev) b.bfi.bgi bfi'.bgi b.bgi
  rw [DiskMng.putBasket, DiskMng.bfiCur_setCur] at hcur
  rw [DiskMng.putBasket, DiskMng.bgi_setCur, hbgi]
  by_cases hc : c = chn
  · subst hc
    rw [Function.update_self] at hcur
    obtain rfl := Option.some.inj hcur
    rw [if_pos rfl]
    exact hself i hi
  · rw [Function.update_of_ne hc] at hcur
    have hother := h c bfi' i hcur hi
    split
    · next heq => exact hmono (heq.trans hfile ▸ hother)
    · exact hother

theorem writesFragment_start (b : Basket) (chn : Int32) (recordType : RecordType)
    (hfew : b.bgi.bg.fragmentNum < UInt32.ofNat basketFragmentNum) :
    b.bgi.bg.fragmentNum + 1 ≠ 0 ∧
      ((strgBasketWriteStart b chn recordType).2.bgi.bg.fragmentNum = b.bgi.bg.fragmentNum ∧
          (strgBasketWriteStart b chn recordType).2.bfi = b.bfi ∨
        (strgBasketWriteStart b chn recordType).2.bgi.bg.fragmentNum =
          b.bgi.bg.fragmentNum + 1) := by
  have hlt := UInt32.lt_iff_toNat_lt.1 hfew
  have hmax : (UInt32.ofNat basketFragmentNum).toNat = 1024 := rfl
  have hne : b.bgi.bg.fragmentNum + 1 ≠ 0 := by
    intro hzero
    have := congrArg UInt32.toNat hzero
    rw [UInt32.toNat_add] at this
    simp only [UInt32.reduceToNat] at this
    omega
  refine ⟨hne, ?_⟩
  rcases strgBasketWriteStart_cases b chn recordType with ⟨_, hbfi, hbgi⟩ | ⟨bf, _, _, heq⟩
  · refine .inl ⟨?_, hbfi⟩
    rcases hbgi with hbgi | hbgi
    · rw [hbgi]
    · rw [hbgi]
      simp [BasketGlobal.addFragment, BasketGlobal.dropFragment]
  · rw [heq]
    exact .inr rfl

/-- A basket just opened is not being written yet. -/
theorem writesFragment_open {p : Nat} {chn : Chn} (h : dm.WritesFragment) :
    (dm.setCur chn (some (.fresh p))).WritesFragment := by
  intro c bfi i hcur hi
  rw [DiskMng.bfiCur_setCur] at hcur
  by_cases hc : c = chn
  · subst hc
    rw [Function.update_self] at hcur
    obtain rfl := Option.some.inj hcur
    cases hi
  · rw [Function.update_of_ne hc] at hcur
    exact h c bfi i hcur hi

theorem writesFragment_resetBasket (h : dm.WritesFragment) (honce : AtMostOnce dm) {chn : Chn}
    {p : Nat} (hp : p ∈ dm.bgiOld) :
    (dm.resetBasket p (.fresh p) chn overwrite).2.WritesFragment := by
  intro c bfi i hcur hi
  have hcur : dm.bfiCur c = some bfi := hcur
  have hne : bfi.bgi ≠ p := by
    intro heq
    refine honce.notMem_slot hp c ?_
    rw [DiskMng.slot, hcur, Option.map_some, heq]
  show (Function.update dm.bgi p _ bfi.bgi).bg.fragmentNum ≠ 0
  rw [Function.update_of_ne hne]
  exact h c bfi i hcur hi

theorem writesFragment_putStart (recordType : RecordType) {chn : Chn} {bfi : BasketFileInfo}
    (h : dm.WritesFragment) (hcur : dm.bfiCur chn = some bfi)
    (hfew : (dm.bgi bfi.bgi).bg.fragmentNum < UInt32.ofNat basketFragmentNum) :
    (dm.putBasket chn
      (strgBasketWriteStart (dm.basket bfi) (chnWord chn) recordType).2).WritesFragment := by
  obtain ⟨hne, hstart⟩ := writesFragment_start (dm.basket bfi) (chnWord chn) recordType hfew
  have hfile := (strgBasketWriteStart_keeps (dm.basket bfi) (chnWord chn) recordType).file
  rcases hstart with ⟨hnum, hbfi⟩ | hnum
  · refine writesFragment_putBasket h hfile (fun i hi => ?_) (fun hold => ?_)
    · rw [hnum]
      rw [hbfi] at hi
      exact h chn bfi i hcur hi
    · rw [hnum]
      exact hold
  · exact writesFragment_putBasket h hfile (fun i _ => hnum ▸ hne) (fun _ => hnum ▸ hne)

theorem writesFragment_setBgi (p : Nat) (bgi : BasketGlobalInfo) (h : dm.WritesFragment)
    (hnum : bgi.bg.fragmentNum = (dm.bgi p).bg.fragmentNum) :
    (dm.setBgi p bgi).WritesFragment := by
  refine writesFragment_of_eq h (fun _ _ hcur => hcur) fun q => ?_
  rw [bgi_setBgi_apply]
  split
  · next heq => rw [hnum, heq]
  · rfl

theorem writesFragment_strgDiskWrite {chn : Chn} {minutes : Int32} {curTime : UInt64} {f : Frame}
    (h : dm.WritesFragment) : (strgDiskWrite dm chn minutes curTime f).2.WritesFragment := by
  unfold strgDiskWrite
  split
  · exact h
  · next bfi hcur =>
      have hput : (dm.putBasket chn
          (strgBasketWrite (dm.basket bfi) minutes curTime f).2).WritesFragment := by
        have hfile := (strgBasketWrite_keeps (dm.basket bfi) minutes curTime f).file
        have hsame : (strgBasketWrite (dm.basket bfi) minutes curTime f).2.bfi.curBf = bfi.curBf ∧
            (strgBasketWrite (dm.basket bfi) minutes curTime f).2.bgi.bg.fragmentNum =
              (dm.bgi bfi.bgi).bg.fragmentNum := by
          rcases strgBasketWrite_cases (dm.basket bfi) minutes curTime f with
            ⟨_, hbgi, hbfi⟩ | ⟨i, _, heq⟩
          · refine ⟨?_, ?_⟩
            · rcases hbfi with hbfi | hbfi
              · rw [hbfi]
                rfl
              · rw [hbfi, stampFrame_curBf]
                rfl
            · rcases hbgi with hbgi | hbgi
              · rw [hbgi]
                rfl
              · rw [hbgi]
                rfl
          · rw [heq]
            exact ⟨stampFrame_curBf _ _ _, rfl⟩
        refine writesFragment_putBasket h hfile (fun i hi => ?_) (fun hold => ?_)
        · rw [hsame.2]
          exact h chn bfi i hcur (hsame.1 ▸ hi)
        · rw [hsame.2]
          exact hold
      simp only
      split
      · exact hput
      · exact hput

theorem writesFragment_recordStop {chn : Chn} {bfi : BasketFileInfo} {i : Nat}
    (h : dm.WritesFragment) (hi : bfi.curBf = some i) :
    (dm.recordStop chn bfi i).WritesFragment := by
  have hstop : (strgBasketWriteStop (dm.basket bfi)).bfi.curBf = none ∧
      (strgBasketWriteStop (dm.basket bfi)).bgi.bg.fragmentNum =
        (dm.bgi bfi.bgi).bg.fragmentNum := by
    unfold strgBasketWriteStop
    simp [DiskMng.basket, hi, BasketGlobalInfo.closeFragment, BasketGlobal.clearWriting]
  refine writesFragment_putBasket h (strgBasketWriteStop_keeps (dm.basket bfi)).file
    (fun j hj => ?_) (fun hold => ?_)
  · rw [hstop.1] at hj
    cases hj
  · rw [hstop.2]
    exact hold

theorem Guarded.writes_step (h : Guarded dm) (hstep : DiskStep C dm dm') :
    dm'.WritesFragment := by
  cases hstep with
  | wait => exact h.writes
  | takeNew => exact writesFragment_open h.writes
  | discardFail hp _ _ _ => exact writesFragment_resetBasket h.writes h.once hp
  | takeOld hp _ _ _ _ =>
      exact writesFragment_open (writesFragment_resetBasket h.writes h.once hp)
  | startFail hcur hfew _ => exact writesFragment_putStart _ h.writes hcur hfew
  | @start chn bfi recordType hcur hfew _ _ =>
      have hput := writesFragment_putStart recordType h.writes hcur hfew
      refine writesFragment_of_eq hput ?_ ?_
      · intro c bfi hbfi
        rwa [DiskMng.recordStart, DiskMng.writeEntry, DiskMng.bfiCur_setDev,
          bfiCur_flagOnce] at hbfi
      · intro p
        rw [DiskMng.recordStart, DiskMng.writeEntry, DiskMng.bgi_setDev, bgi_flagOnce]
  | write => exact writesFragment_strgDiskWrite h.writes
  | stop hcur hi _ => exact writesFragment_recordStop h.writes hi
  | clearUpdate => exact writesFragment_setBgi _ _ h.writes rfl
  | free chn =>
      unfold strgDiskFreeBasket
      have hdrop : ∀ c bfi, Function.update dm.bfiCur chn none c = some bfi →
          dm.bfiCur c = some bfi := by
        intro c bfi hbfi
        by_cases hc : c = chn
        · subst hc
          rw [Function.update_self] at hbfi
          cases hbfi
        · rwa [Function.update_of_ne hc] at hbfi
      split
      · exact h.writes
      · split
        · exact writesFragment_of_eq h.writes hdrop fun _ => rfl
        · exact writesFragment_of_eq h.writes hdrop fun _ => rfl
  | setType =>
      unfold strgDiskWriteSetType
      split
      · exact h.writes
      · split
        · exact h.writes
        · simp only
          split
          · exact writesFragment_setBgi _ _ h.writes rfl
          · exact h.writes
  | readStart q =>
      rcases strgDiskReadStart_cases dm q with ⟨dev, heq⟩ | ⟨p, _, dev, bri, _, heq⟩
      · rw [heq]
        exact h.writes
      · rw [heq]
        exact writesFragment_setBgi p (dm.bgi p).addReader h.writes rfl
  | readStop handle =>
      unfold strgDiskReadStop
      split
      · exact h.writes
      · next x _ =>
          refine writesFragment_setBgi x.2.bgi (strgBasketReadStop (dm.bgi x.2.bgi))
            h.writes ?_
          rw [strgBasketReadStop, BasketGlobalInfo.dropReader]
          simp only
          split <;> rfl
  | reset =>
      unfold strgDiskReset
      split
      · simp only
        split
        · exact h.writes
        · exact h.writes
      · exact h.writes

/-! ## One step -/

/-- From `dm` to `dm'` the baskets of `ds` were reset, which was permitted, and
no other has lost a fragment or had its header cleared. -/
structure Discards (overwrite : UInt32) (ds : List Discard) (dm dm' : DiskMng) : Prop where
  noted : dm'.discards = dm.discards ++ ds
  permitted : ∀ d ∈ ds, d.Permitted ∧ d.overwrite = overwrite
  fragments : ∀ p, (∀ d ∈ ds, d.idx ≠ p) → (dm.bgi p).fragments <+: (dm'.bgi p).fragments
  headers : ∃ ops, dm'.dev.log = dm.dev.log ++ ops ∧
    ∀ op ∈ ops, ∀ p, ClearsHeader p op → ∃ d ∈ ds, d.idx = p

theorem Discards.refl (overwrite : UInt32) (dm : DiskMng) : Discards overwrite [] dm dm where
  noted := by simp
  permitted := by simp
  fragments p _ := List.prefix_refl _
  headers := ⟨[], by simp, by simp⟩

theorem Discards.trans {ds ds' : List Discard} {a b c : DiskMng} (h : Discards overwrite ds a b)
    (h' : Discards overwrite ds' b c) : Discards overwrite (ds ++ ds') a c where
  noted := by rw [h'.noted, h.noted, List.append_assoc]
  permitted d hd := by
    rcases List.mem_append.1 hd with hd | hd
    · exact h.permitted d hd
    · exact h'.permitted d hd
  fragments p hp :=
    (h.fragments p fun d hd => hp d (List.mem_append_left _ hd)).trans
      (h'.fragments p fun d hd => hp d (List.mem_append_right _ hd))
  headers := by
    obtain ⟨ops, hlog, hops⟩ := h.headers
    obtain ⟨ops', hlog', hops'⟩ := h'.headers
    refine ⟨ops ++ ops', by rw [hlog', hlog, List.append_assoc], fun op hop p hclear => ?_⟩
    rcases List.mem_append.1 hop with hop | hop
    · obtain ⟨d, hd, hidx⟩ := hops op hop p hclear
      exact ⟨d, List.mem_append_left _ hd, hidx⟩
    · obtain ⟨d, hd, hidx⟩ := hops' op hop p hclear
      exact ⟨d, List.mem_append_right _ hd, hidx⟩

/-- A header that is written has fragments, unless its basket is being reset. -/
def HeaderKept (dm dm' : DiskMng) (idx : Nat) (bg : BasketGlobal) : Prop :=
  bg.fragmentNum ≠ 0 ∨ ∃ d, dm'.discards = dm.discards ++ [d] ∧ d.idx = idx

theorem Guarded.mem_list (h : Guarded dm) {p : Nat} (hp : p ∈ dm.bgiOld) : p ∈ dm.bgiList := by
  refine h.known.places p ?_
  rw [DiskMng.places]
  have := List.count_pos_iff.2 hp
  omega

theorem Guarded.step_grows (h : Guarded dm) (hstep : DiskStep C dm dm') :
    dm.dev.Grows (Puts (HeaderKept dm dm') (fun _ _ => True) (fun _ => True)) dm'.dev := by
  have hstart : ∀ {chn : Chn} {bfi : BasketFileInfo} {recordType : RecordType} {d : DiskMng},
      (dm.bgi bfi.bgi).bg.fragmentNum < UInt32.ofNat basketFragmentNum →
      dm.dev.Grows (Puts (HeaderKept dm d) (fun _ _ => True) (fun _ => True))
        (strgBasketWriteStart (dm.basket bfi) (chnWord chn) recordType).2.dev := by
    intro chn bfi recordType d hfew
    refine strgBasketWriteStart_grows (b := dm.basket bfi) (.inl ?_)
    exact (writesFragment_start (dm.basket bfi) (chnWord chn) recordType hfew).1
  have hreset : ∀ {chn : Chn} {p : Nat} {mask : UInt32} {d : DiskMng}, p ∈ dm.bgiOld →
      d.discards = (dm.resetBasket p (.fresh p) chn mask).2.discards →
      dm.dev.Grows (Puts (HeaderKept dm d) (fun _ _ => True) (fun _ => True))
        (dm.resetBasket p (.fresh p) chn mask).2.dev := by
    intro chn p mask d hp hd
    refine strgBasketReset_grows (b := ⟨dm.dev, dm.bgi p, .fresh p⟩) (.inr ⟨_, hd, ?_⟩)
    exact (h.index p (h.mem_list hp)).symm
  cases hstep with
  | wait => exact .wait _
  | takeNew => exact .refl _
  | discardFail hp _ _ _ => exact hreset hp rfl
  | takeOld hp _ _ _ _ => exact hreset hp rfl
  | startFail _ hfew _ => exact hstart hfew
  | start _ hfew _ _ => exact (hstart hfew).trans (recordStart_grows trivial trivial)
  | write => exact strgDiskWrite_grows _ _ _ _ _
  | stop hcur hi _ => exact recordStop_grows hi trivial (.inl (h.writes _ _ _ hcur hi)) trivial
  | clearUpdate => exact .refl _
  | free =>
      rw [strgDiskFreeBasket_dev]
      exact .refl _
  | setType => exact strgDiskWriteSetType_grows fun _ _ _ _ => ⟨trivial, trivial⟩
  | readStart => exact strgDiskReadStart_grows _ _
  | readStop =>
      rw [strgDiskReadStop_dev]
      exact .refl _
  | reset => exact strgDiskReset_grows _ _

/-- A basket is permitted to be reset wherever the program resets it. -/
theorem Guarded.permitted (h : Guarded dm) {p : Nat} (hp : p ∈ dm.bgiOld)
    (hover : overwritable overwrite (dm.bgi p) = true) :
    Discard.Permitted {
      idx := p
      basket := dm.bgi p
      bgiOld := dm.bgiOld
      bfiCur := dm.bfiCur
      readList := dm.readList
      useCnt := dm.dg.useCnt
      overwrite := overwrite } := by
  have hquiet := overwritable_notReading hover
  have hnone : dm.handlesOn p = 0 := by
    by_contra hne
    exact h.readers.reading p (Nat.pos_of_ne_zero hne) hquiet
  refine ⟨hp, h.older p hp, fun chn bfi hcur heq => ?_, ?_, fun x hx heq => ?_, ?_⟩
  · have hcur : dm.bfiCur chn = some bfi := hcur
    refine h.once.notMem_slot hp chn ?_
    rw [DiskMng.slot, hcur, Option.map_some, heq]
  · have href := h.readers.readRef p (h.mem_list hp)
    rw [hnone] at href
    exact href
  · exact List.countP_eq_zero.1 hnone x hx (decide_eq_true heq)
  · by_cases hchn : (dm.bgi p).bg.chn = -1
    · exact .inl hchn
    · refine .inr fun hzero => ?_
      rw [overwritable, if_pos ⟨hchn, hzero⟩] at hover
      cases hover

theorem Guarded.step (h : Guarded dm) (hstep : DiskStep (DiscardsUnder overwrite) dm dm') :
    Guarded dm' ∧ ∃ ds, Discards overwrite ds dm dm' := by
  have hgrows := h.step_grows hstep
  have henv : dm'.dev.env.HeadersHold := by
    rw [hgrows.env]
    exact h.holds
  have hsteps : DiskSteps (DiscardsUnder overwrite) dm dm' := .single hstep
  have hguarded : (∀ p ∈ dm'.bgiList, (dm'.bgi p).basketIdx = p) →
      (∀ p ∈ dm'.bgiOld, (dm'.bgi p).bg.useCnt ≠ dm'.dg.useCnt) → Guarded dm' :=
    fun hindex holder => ⟨henv, h.once.step hstep, h.known.steps hsteps, h.readers.step hstep,
      hindex, holder, h.writes_step hstep⟩
  -- what was cleared is among the discards that this step has noted
  have hheaders : ∀ ds, dm'.discards = dm.discards ++ ds → ∃ ops, dm'.dev.log = dm.dev.log ++ ops ∧
      ∀ op ∈ ops, ∀ p, ClearsHeader p op → ∃ d ∈ ds, d.idx = p := by
    intro ds hds
    obtain ⟨ops, hlog, _, hops⟩ := hgrows.log
    refine ⟨ops, hlog, fun op hop p hclear => ?_⟩
    obtain ⟨bg, hkept, hzero⟩ := puts_clearsHeader (hops op hop) hclear
    rcases hkept with hne | ⟨d, hd, hidx⟩
    · exact absurd hzero hne
    · rw [hds] at hd
      exact ⟨d, by rw [List.append_cancel_left hd]; exact List.mem_singleton_self d, hidx⟩
  have hnothing : dm'.discards = dm.discards →
      (∀ p, (dm.bgi p).fragments <+: (dm'.bgi p).fragments) →
      ∃ ds, Discards overwrite ds dm dm' := fun hdis hfrag =>
    ⟨[], by simp [hdis], by simp, fun p _ => hfrag p, hheaders [] (by simp [hdis])⟩
  cases hstep.moves with
  | stays hs _ =>
      refine ⟨hguarded (fun p hp => ?_) (fun p hp => ?_), hnothing hs.discards hs.fragments⟩
      · rw [hs.bgiList] at hp
        rw [hs.basketIdx]
        exact h.index p hp
      · rw [hs.bgiOld] at hp
        rw [hs.useCnt, hs.dg]
        exact h.older p hp
  | takeNew =>
      exact ⟨hguarded h.index h.older, hnothing rfl fun p => List.prefix_refl _⟩
  | discardFail _ _ hret _ =>
      rw [resetBasket_ok h.holds] at hret
      exact absurd hret (by decide)
  | @takeOld chn p mask hp hover _ hmask _ =>
      obtain rfl : mask = overwrite := hmask
      have hbgi : ∀ q, (dm.resetBasket p (.fresh p) chn mask).2.bgi q =
          if q = p then (dm.bgi p).reset (chnWord chn) dm.dg.useCnt else dm.bgi q :=
        Function.update_apply dm.bgi p _
      refine ⟨hguarded (fun q hq => ?_) (fun q hq => ?_), _, rfl, ?_, fun q hq => ?_,
        hheaders _ rfl⟩
      · show ((dm.resetBasket p (.fresh p) chn mask).2.bgi q).basketIdx = q
        rw [hbgi]
        split
        · next heq =>
            rw [heq]
            exact h.index p (heq ▸ hq)
        · exact h.index q hq
      · have hq : q ∈ dm.bgiOld.erase p := hq
        have hne : q ≠ p := by
          rintro rfl
          have hcount := List.count_pos_iff.2 hq
          have honce := h.once.places q
          rw [List.count_erase_self] at hcount
          rw [DiskMng.places] at honce
          omega
        show ((dm.resetBasket p (.fresh p) chn mask).2.bgi q).bg.useCnt ≠ dm.dg.useCnt
        rw [hbgi, if_neg hne]
        exact h.older q (List.mem_of_mem_erase hq)
      · intro d hd
        rw [List.mem_singleton.1 hd]
        exact ⟨h.permitted hp hover, rfl⟩
      · have hne : q ≠ p := fun heq => hq _ (List.mem_singleton_self _) heq.symm
        show (dm.bgi q).fragments <+:
          ((dm.resetBasket p (.fresh p) chn mask).2.bgi q).fragments
        exact prefix_of_eq (by rw [hbgi, if_neg hne])
  | free chn =>
      have hsame : (strgDiskFreeBasket dm chn).bgi = dm.bgi ∧
          (strgDiskFreeBasket dm chn).discards = dm.discards ∧
          (strgDiskFreeBasket dm chn).dg = dm.dg := by
        unfold strgDiskFreeBasket
        split
        · exact ⟨rfl, rfl, rfl⟩
        · split <;> exact ⟨rfl, rfl, rfl⟩
      refine ⟨hguarded (fun p hp => ?_) (fun p hp => ?_), hnothing hsame.2.1 fun p => ?_⟩
      · rw [hstep.bgiList] at hp
        rw [hsame.1]
        exact h.index p hp
      · rw [hsame.1, hsame.2.2]
        unfold strgDiskFreeBasket at hp
        split at hp
        · exact h.older p hp
        · split at hp
          · exact h.older p hp
          · next hne =>
              rcases (List.mem_orderedInsert _).1 hp with rfl | hp
              · exact hne
              · exact h.older p hp
      · exact prefix_of_eq (by rw [hsame.1])
  | nextGeneration hwrap =>
      refine ⟨hguarded h.index (fun p hp => ?_), hnothing rfl fun p => List.prefix_refl _⟩
      refine hwrap p (h.known.places p ?_)
      rw [DiskMng.places]
      rcases List.mem_append.1 hp with hp | hp
      · have := List.count_pos_iff.2 hp
        omega
      · have := List.count_pos_iff.2 hp
        omega

theorem Guarded.steps (h : Guarded dm) (hsteps : DiskSteps (DiscardsUnder overwrite) dm dm') :
    Guarded dm' ∧ ∃ ds, Discards overwrite ds dm dm' := by
  induction hsteps with
  | refl => exact ⟨h, [], .refl overwrite dm⟩
  | tail _ hstep ih =>
      obtain ⟨hguarded, ds, hds⟩ := ih
      obtain ⟨hguarded', ds', hds'⟩ := hguarded.step hstep
      exact ⟨hguarded', ds ++ ds', hds.trans hds'⟩

end Step

end Nvr.Storage
