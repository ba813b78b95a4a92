import Mathlib.Data.List.Chain
import Nvr.Proofs.PoolChain
import Nvr.Proofs.PoolRead

/-!
# A reader beside the writer

A reader keeps the place where the frame behind its last one was or is to be
put, and asks for the number of that frame there. What it finds at a place is a
frame that was written there, and still all of it, when the newest frame that
covers the place is the one that begins there: a frame that is overwritten at
all is overwritten at its beginning first. But whether a place is the beginning
of a frame is seen from its bytes only. A reader is misled when the place has
come to lie inside the data of a newer frame, and what stands there looks like
a header (`Misread`).
-/

namespace Nvr.AvPool

open RingBuffer

/-- A pool and a reader, with the frames that it has been given so far. -/
structure Watched where
  pool : Logged
  reader : AVPoolRead
  seen : List Delivery

/-- A new pool and a reader that has just started. -/
def Watched.init (video : Bool) (size : PoolSize) (mem : ByteFile) (nMaxDelay : UInt32) :
    Watched :=
  ⟨.init video size mem, avPoolStartReadFrame nMaxDelay, []⟩

/-- What happens to a pool: the writer writes a frame, or the reader tries to
read one. -/
inductive PoolOp where
  | write (f : Frame)
  | read (nBufLen : Nat)

inductive PoolStep (w : Watched) : PoolOp → Watched → Prop
  | write {f : Frame} {p : Logged} (h : WriteStep w.pool f p) :
      PoolStep w (.write f) { w with pool := p }
  | read {nBufLen : Nat} {r : AVPoolRead} {d : Option Delivery}
      (h : w.reader.avPoolReadFrame w.pool.man nBufLen = (r, d)) :
      PoolStep w (.read nBufLen) { w with reader := r, seen := w.seen ++ d.toList }

/-- The reader is given frames of the pool as they were written, in their order,
and in a video pool goes on with an I frame wherever it misses some. -/
structure ReadsRight (w : Watched) : Prop where
  increasing : w.seen.Pairwise (·.u32FrameNo < ·.u32FrameNo)
  written : ∀ d ∈ w.seen, ∃ r ∈ w.pool.log, r.no = d.u32FrameNo
  bytes : ∀ d ∈ w.seen, ∀ r ∈ w.pool.log, r.no = d.u32FrameNo →
    d.pBuf = r.frame.pHdrData ++ r.frame.ppPicsData.flatten ∧
      d.u32IFrame = r.frame.nFrameType.toUInt32
  skips : w.pool.man.u8VideoPool = true → w.seen.IsChain fun a b =>
    b.u32FrameNo = a.u32FrameNo + 1 ∨ b.u32IFrame = avVideoFrameI.toUInt32

/-! ## When a reader is not misled -/

/-- The record has a place in it. -/
def Rec.covers (size q : Nat) (r : Rec) : Bool := distance size r.pos q < r.size

/-- The newest frame that has a place in it. -/
def Logged.owner (s : Logged) (q : Nat) : Option Rec :=
  s.log.reverse.find? (Rec.covers s.man.u32BuffSize q)

/-- A place inside the data of a frame that looks like the header of one. -/
def Misread (s : Logged) (q : Nat) : Prop :=
  s.man.avPoolCheckIsFrame q ∧ ∃ r ∈ s.owner q, r.pos ≠ q

/-- The frame fits the ring with its header, every piece of it has a byte, and
its number is not the last but two or a later one: the number of all ones, that
means the oldest frame, is not to be asked for. -/
def PlainFrame (s : Logged) (f : Frame) : Prop :=
  f.needSize ≤ s.man.u32BuffSize ∧ (∀ p ∈ f.ppPicsData, p ≠ []) ∧ s.man.u32FrameNo < 0xFFFFFFFD

/-- None of the places that the reader will look at is misread: at first the
newest I frame, then its own place, if it has the number, and the frame it is
given else. -/
def PlainPlaces (s : Logged) (pool : AVPoolRead) : Prop :=
  if pool.needFrameNo = 0 then ¬ Misread s s.man.u32NewestIPos
  else ¬ (Misread s pool.lastPos ∧ (s.man.hdr pool.lastPos).u32FrameNo = pool.needFrameNo) ∧
    ¬ Misread s s.man.fallback

/-- What must hold before a step. -/
def Plain (w : Watched) : PoolOp → Prop
  | .write f => PlainFrame w.pool f
  | .read _ => PlainPlaces w.pool w.reader

/-! ## What a write does -/

theorem freeOldest_newestI {m m' : JpoolMan} {n : Nat} (h : m.freeOldest n = some m') :
    m'.u32NewestIPos = m.u32NewestIPos := by
  rw [JpoolMan.freeOldest] at h
  split at h
  · obtain ⟨m₁, hm₁, hrest⟩ := Option.bind_eq_some_iff.1 h
    obtain ⟨no, pos, pts, rfl⟩ := avPoolRefreshOldestFramePos_eq hm₁
    split at hrest
    · obtain ⟨no', pos', pts', rfl⟩ := avPoolRefreshOldestIframePos_eq hrest
      rfl
    · obtain rfl := Option.some.inj hrest
      rfl
  · obtain rfl := Option.some.inj h
    rfl

theorem noteOldest_newestI (m : JpoolMan) (f : Frame) :
    (m.noteOldest f).u32NewestIPos = m.u32NewestIPos := by
  unfold JpoolMan.noteOldest
  by_cases hpos : m.u32OldestFramePos = noPos
  · simp only [hpos, if_true]
    split <;> rfl
  · simp only [hpos, if_false]
    split <;> rfl

/-- A write puts the frame into the ring of the pool, notes it as the newest
frame, and as the newest I frame if it is one. -/
structure Wrote (s : Logged) (f : Frame) (t : Logged) : Prop where
  log : t.log = s.log ++ [s.man.next f]
  ring : ∃ m, SameRing s.man m ∧ SameRing (m.putFrame f) t.man
  newest : t.man.u32NewestFramePos = s.man.u32WritePos
  newestI : t.man.u32NewestIPos =
    if f.nFrameType = avVideoFrameI then s.man.u32WritePos else s.man.u32NewestIPos

theorem WriteStep.wrote {s t : Logged} {f : Frame} (h : WriteStep s f t) : Wrote s f t := by
  obtain ⟨-, hwrite⟩ := h
  obtain ⟨_, hdata, rfl⟩ := Option.map_eq_some_iff.1 hwrite
  obtain ⟨m', hfree, rfl⟩ := Option.map_eq_some_iff.1 hdata
  obtain ⟨hnote', -, -, hnewest₀⟩ := noteNewest_ring s.man f
  obtain ⟨hfree', hnewest₁⟩ := freeOldest_ring hfree
  have hnewestI := freeOldest_newestI hfree
  obtain ⟨hnote, hnewest₂, -⟩ := noteOldest_ring m' f
  refine ⟨rfl, ⟨m'.noteOldest f, (hnote'.trans hfree').trans hnote, rfl, rfl, rfl, rfl, rfl⟩,
    (hnewest₂.trans hnewest₁).trans hnewest₀, ?_⟩
  show (m'.noteOldest f).u32NewestIPos = _
  rw [noteOldest_newestI, hnewestI, JpoolMan.noteNewest]
  split <;> rfl

/-! ## Places and the frames that cover them -/

section Covers

variable {size q : Nat} {r : Rec}

theorem covers_iff (hpos : r.pos < size) (hq : q < size) (hfit : r.size ≤ size) :
    r.covers size q ↔ ∃ k < r.size, q = behind size r.pos k := by
  rw [Rec.covers, decide_eq_true_iff]
  constructor
  · intro h
    exact ⟨_, h, (behind_distance hpos hq).symm⟩
  · rintro ⟨k, hk, rfl⟩
    rwa [distance_behind hpos (by omega)]

theorem covers_self (hpos : r.pos < size) (hfit : r.size ≤ size) : r.covers size r.pos :=
  (covers_iff hpos hpos hfit).2 ⟨0, r.size_pos, (behind_zero hpos).symm⟩

end Covers

theorem owner_eq_some_iff {s : Logged} {q : Nat} {r : Rec} :
    s.owner q = some r ↔ r.covers s.man.u32BuffSize q ∧
      ∃ pre post, s.log = pre ++ r :: post ∧ ∀ c ∈ post, ¬ c.covers s.man.u32BuffSize q := by
  rw [Logged.owner, List.find?_eq_some_iff_append]
  refine and_congr_right fun _ => ?_
  constructor
  · rintro ⟨as, bs, hlog, has⟩
    refine ⟨bs.reverse, as.reverse, ?_, fun c hc => ?_⟩
    · rw [← List.reverse_reverse s.log, hlog]
      simp
    · have := has c (List.mem_reverse.1 hc)
      simpa using this
  · rintro ⟨pre, post, hlog, hpost⟩
    refine ⟨post.reverse, pre.reverse, by simp [hlog], fun c hc => ?_⟩
    have := hpost c (List.mem_reverse.1 hc)
    simpa using this

/-- The frames of the pool lie end to end in the ring, lap after lap, and where
a frame is the newest one at its beginning, all of it is there. -/
structure Ring (s : Logged) : Prop where
  sized : s.man.Sized
  laid : ∃ total, Laid Rec.pos Rec.size s.man.u32BuffSize 0 0 s.log total ∧
    s.man.u32WritePos = behind s.man.u32BuffSize 0 total
  fits : ∀ r ∈ s.log, r.size ≤ s.man.u32BuffSize
  pieces : ∀ r ∈ s.log, ∀ p ∈ r.frame.ppPicsData, p ≠ []
  count : s.man.u32FrameNo.toNat = s.log.length ∧ s.log.length ≤ 0xFFFFFFFD
  numbers : ∀ i r, s.log[i]? = some r → r.no.toNat = i + 1
  intact : ∀ r, s.owner r.pos = some r → Intact s.man r
  newest : ∀ r ∈ s.log.getLast?, s.man.u32NewestFramePos = r.pos
  newestI : s.man.u32NewestIPos < s.man.u32BuffSize ∧
    (s.log ≠ [] → (s.owner s.man.u32NewestIPos).isSome)
  empty : s.log = [] → s.man.u32NewestIPos = 0 ∧ s.man.u32MaxSize = 0

namespace Ring

variable {s t : Logged} {r : Rec} {f : Frame}

theorem pos_lt (h : Ring s) (hr : r ∈ s.log) : r.pos < s.man.u32BuffSize := by
  obtain ⟨total, hlaid, -⟩ := h.laid
  obtain ⟨z, -, hplace, -⟩ := hlaid.place hr
  rw [hplace]
  exact behind_lt h.sized.pos _ _

/-- The newest record at its own beginning ends in front of the write position,
without coming around to it. -/
theorem owner_distance (h : Ring s) (hr : s.owner r.pos = some r) :
    distance s.man.u32BuffSize s.man.u32WritePos r.pos + r.size ≤ s.man.u32BuffSize := by
  obtain ⟨-, pre, post, hlog, hpost⟩ := owner_eq_some_iff.1 hr
  obtain ⟨total, hlaid, hwrite⟩ := h.laid
  rw [hlog] at hlaid
  obtain ⟨x, -, hplace, hafter⟩ := laid_append.1 hlaid
  have hmem : ∀ c ∈ post, c ∈ s.log := fun c hc => by
    rw [hlog]
    exact List.mem_append_right _ (List.mem_cons_of_mem _ hc)
  have hrlog : r ∈ s.log := by
    rw [hlog]
    exact List.mem_append_right _ (List.mem_cons_self ..)
  have hlt := h.pos_lt hrlog
  have hfit := h.fits r hrlog
  have htotal := hafter.total
  have hpos := h.sized.pos
  -- what came behind it has not come around to it
  have hlap : total ≤ x + s.man.u32BuffSize := by
    by_contra hover
    obtain ⟨c, hc, k, hk, heq⟩ := hafter.exists_at
      (show x + r.size ≤ x + s.man.u32BuffSize by omega) (Nat.lt_of_not_le hover)
    have hround : behind s.man.u32BuffSize 0 (x + s.man.u32BuffSize) = r.pos := by
      rw [hplace, behind, behind, ← Nat.add_assoc, Nat.add_mod_right]
    refine hpost c hc ((covers_iff (h.pos_lt (hmem c hc)) hlt (h.fits c (hmem c hc))).2
      ⟨k, hk, ?_⟩)
    rw [← heq, hround]
  have hdistance : r.pos = behind s.man.u32BuffSize s.man.u32WritePos
      (x + s.man.u32BuffSize - total) := by
    rw [hwrite, behind_behind, Nat.add_sub_cancel' hlap, hplace, behind, behind, ← Nat.add_assoc,
      Nat.add_mod_right]
  have hsize := r.size_pos
  rw [hdistance, distance_behind h.sized.write_lt (by omega)]
  omega

theorem number (h : Ring s) {pre post : List Rec} (hlog : s.log = pre ++ r :: post) :
    r.no.toNat = pre.length + 1 := by
  refine h.numbers pre.length r ?_
  rw [hlog, List.getElem?_append_right (Nat.le_refl _), Nat.sub_self]
  rfl

/-- There is one record of a number. -/
theorem eq_of_no (h : Ring s) {r' : Rec} (hr : r ∈ s.log) (hr' : r' ∈ s.log)
    (hno : r.no = r'.no) : r = r' := by
  obtain ⟨i, hi⟩ := List.mem_iff_getElem?.1 hr
  obtain ⟨j, hj⟩ := List.mem_iff_getElem?.1 hr'
  have hij : i = j := by
    have hleft := h.numbers i r hi
    have hright := h.numbers j r' hj
    rw [hno] at hleft
    omega
  rw [hij, hj] at hi
  exact (Option.some.inj hi).symm

end Ring

/-- The new record covers its places, and all others are covered as before. -/
theorem Wrote.owner {s t : Logged} {f : Frame} (h : Wrote s f t) (q : Nat) :
    t.owner q = if (s.man.next f).covers s.man.u32BuffSize q then some (s.man.next f)
      else s.owner q := by
  obtain ⟨m, hring, hring'⟩ := h.ring
  have hsize : t.man.u32BuffSize = s.man.u32BuffSize := hring'.size.trans hring.size
  rw [Logged.owner, h.log, List.reverse_append, List.reverse_singleton, List.singleton_append,
    hsize]
  split
  · next hin => exact List.find?_cons_of_pos hin
  · next hout => exact List.find?_cons_of_neg hout

theorem Ring.write {s t : Logged} {f : Frame} (h : Ring s) (hplain : PlainFrame s f)
    (hwrote : Wrote s f t) : Ring t := by
  obtain ⟨hfit, hpieces, hlast⟩ := hplain
  obtain ⟨m, hring, hring'⟩ := hwrote.ring
  have hs := hring.sized h.sized
  have hsize : t.man.u32BuffSize = s.man.u32BuffSize := hring'.size.trans hring.size
  have hnext : m.next f = s.man.next f := by
    rw [JpoolMan.next, hring.write, hring.no]
    rfl
  have hle : f.needSize ≤ m.u32BuffSize := by rwa [hring.size]
  have hself : (s.man.next f).covers s.man.u32BuffSize s.man.u32WritePos :=
    covers_self h.sized.write_lt hfit
  have hno : s.man.u32FrameNo.toNat < 0xFFFFFFFD := hlast
  have hsucc : (s.man.u32FrameNo + 1).toNat = s.man.u32FrameNo.toNat + 1 := by
    rw [UInt32.toNat_add]
    exact Nat.mod_eq_of_lt (by simp only [UInt32.reduceToNat]; omega)
  refine ⟨hring'.sized (hs.putFrame f), ?_, ?_, ?_, ?_, ?_, ?_, ?_, ?_, ?_⟩
  · obtain ⟨total, hlaid, hwrite⟩ := h.laid
    refine ⟨total + f.needSize, ?_, ?_⟩
    · rw [hwrote.log, hsize]
      exact laid_append.2 ⟨total, hlaid, hwrite, rfl⟩
    · rw [hring'.write, hsize, ← behind_behind, ← hwrite, ← hring.write, ← hring.size, behind,
        Nat.add_comm]
      rfl
  · intro r hr
    rw [hwrote.log] at hr
    rw [hsize]
    obtain hr | hr := List.mem_append.1 hr
    · exact h.fits r hr
    · obtain rfl := List.mem_singleton.1 hr
      exact hfit
  · intro r hr
    rw [hwrote.log] at hr
    obtain hr | hr := List.mem_append.1 hr
    · exact h.pieces r hr
    · obtain rfl := List.mem_singleton.1 hr
      exact hpieces
  · have hcount := h.count.1
    rw [hwrote.log, List.length_append, List.length_singleton, hring'.no]
    show (m.u32FrameNo + 1).toNat = _ ∧ _
    rw [hring.no, hsucc]
    omega
  · intro i r hr
    rw [hwrote.log] at hr
    by_cases hi : i < s.log.length
    · rw [List.getElem?_append_left hi] at hr
      exact h.numbers i r hr
    · rw [List.getElem?_append_right (Nat.not_lt.1 hi)] at hr
      obtain ⟨hlt, rfl⟩ := List.getElem?_eq_some_iff.1 hr
      have hzero : i - s.log.length = 0 := Nat.lt_one_iff.1 hlt
      simp only [hzero, List.getElem_cons_zero]
      show (s.man.u32FrameNo + 1).toNat = _
      rw [hsucc, h.count.1]
      omega
  · intro r hr
    rw [hwrote.owner] at hr
    refine hring'.intact ?_
    split at hr
    · obtain rfl := Option.some.inj hr
      rw [← hnext]
      exact Intact.putFrame_self hs.aligned hle
    · next hout =>
        -- nothing of the record is under the new one
        have hfront : f.needSize ≤ distance s.man.u32BuffSize s.man.u32WritePos r.pos := by
          rw [Rec.covers, decide_eq_true_iff] at hout
          exact Nat.not_lt.1 hout
        have hkept := h.intact r hr
        have hend := h.owner_distance hr
        refine (hring.intact hkept).putFrame hs hle ?_ hfront ?_
        · rw [hring.size, hring.write]
          exact (behind_distance h.sized.write_lt hkept.lt).symm
        · rw [hring.size]
          exact hend
  · intro r hr
    rw [hwrote.log, List.getLast?_concat] at hr
    obtain rfl := Option.some.inj hr
    exact hwrote.newest
  · rw [hwrote.newestI, hsize]
    by_cases hi : f.nFrameType = avVideoFrameI
    · rw [if_pos hi, hwrote.owner, if_pos hself]
      exact ⟨h.sized.write_lt, fun _ => rfl⟩
    · rw [if_neg hi, hwrote.owner]
      refine ⟨h.newestI.1, fun _ => ?_⟩
      by_cases hempty : s.log = []
      · -- the first frame, at the beginning of the ring
        obtain ⟨total, hlaid, hwrite⟩ := h.laid
        rw [hempty] at hlaid
        have hzero : 0 = total := hlaid
        rw [hwrite, ← hzero, behind_zero h.sized.pos] at hself
        rw [(h.empty hempty).1, if_pos hself]
        rfl
      · split
        · rfl
        · exact h.newestI.2 hempty
  · intro hempty
    rw [hwrote.log] at hempty
    cases List.append_eq_nil_iff.1 hempty |>.2

theorem ring_init (video : Bool) (size : PoolSize) (mem : ByteFile) :
    Ring (.init video size mem) where
  sized := ⟨size.pos, size.aligned, size.le, Nat.dvd_zero 64, size.pos⟩
  laid := ⟨0, rfl, (behind_zero size.pos).symm⟩
  fits _ h := absurd h List.not_mem_nil
  pieces _ h := absurd h List.not_mem_nil
  count := ⟨rfl, Nat.zero_le _⟩
  numbers _ _ h := nomatch h
  intact _ h := nomatch h
  newest _ h := nomatch h
  newestI := ⟨size.pos, fun h => absurd rfl h⟩
  empty _ := ⟨rfl, rfl⟩

/-! ## What a read finds -/

section Find

variable {s : Logged} {q : Nat}

/-- Where a place is not misread, what is found there is all of a frame. -/
theorem Ring.found (h : Ring s) (hframe : s.man.avPoolCheckIsFrame q) (hplain : ¬ Misread s q)
    (howner : (s.owner q).isSome) : ∃ r ∈ s.log, r.pos = q ∧ Intact s.man r := by
  obtain ⟨r, hr⟩ := Option.isSome_iff_exists.1 howner
  obtain rfl : r.pos = q := by
    by_contra hpos
    exact hplain ⟨hframe, r, hr, hpos⟩
  obtain ⟨-, pre, post, hlog, -⟩ := owner_eq_some_iff.1 hr
  refine ⟨r, ?_, rfl, h.intact r hr⟩
  rw [hlog]
  exact List.mem_append_right _ (List.mem_cons_self ..)

/-- Some frame covers the beginning of each frame. -/
theorem Ring.owner_pos (h : Ring s) {r : Rec} (hr : r ∈ s.log) : (s.owner r.pos).isSome := by
  rw [Logged.owner, List.find?_isSome]
  exact ⟨r, List.mem_reverse.2 hr, covers_self (h.pos_lt hr) (h.fits r hr)⟩

theorem Ring.owner_fallback (h : Ring s) (hne : s.log ≠ []) :
    (s.owner s.man.fallback).isSome := by
  rw [JpoolMan.fallback]
  split
  · exact h.newestI.2 hne
  · obtain ⟨r, hr⟩ := Option.isSome_iff_exists.1 (List.getLast?_isSome.2 hne)
    rw [h.newest r hr]
    exact h.owner_pos (List.mem_of_getLast? hr)

theorem Ring.log_ne_nil (h : Ring s) {no : UInt32} (hyet : ¬ s.man.nothingYet no) :
    s.log ≠ [] := by
  intro hempty
  exact hyet (.inr (h.empty hempty).2)

/-- The next frame is still to come, and only it is. -/
theorem Ring.need_le (h : Ring s) {no : UInt32} (hyet : ¬ s.man.nothingYet no)
    (hno : no.toNat ≤ s.log.length + 1) : no.toNat ≤ s.log.length := by
  by_contra hover
  have hcount := h.count
  have hone : no = s.man.u32FrameNo + 1 := by
    apply UInt32.toNat_inj.1
    rw [UInt32.toNat_add, Nat.mod_eq_of_lt (by simp only [UInt32.reduceToNat]; omega)]
    simp only [UInt32.reduceToNat]
    omega
  refine hyet (.inl ⟨?_, ?_, ?_⟩)
  · rintro rfl
    simp only [UInt32.reduceToNat] at *
    omega
  · exact UInt32.lt_iff_toNat_lt.2 (by omega)
  · rw [hone, UInt32.add_comm, UInt32.add_sub_cancel]
    decide

/-- A read that gives nothing changes nothing; else it has copied a frame. -/
theorem avPoolReadFrame_cases {pool pool' : AVPoolRead} {m : JpoolMan} {nBufLen : Nat}
    {d : Option Delivery} (h : pool.avPoolReadFrame m nBufLen = (pool', d)) :
    (pool' = pool ∧ d = none) ∨
      ∃ x pos, d = some x ∧ pool' = pool.took x ∧ ¬ m.nothingYet pool.needFrameNo ∧
        m.nReadPos (pool.args nBufLen) = some pos ∧ m.avPoolCheckIsFrame pos ∧
        m.avPoolCopyAvData nBufLen pos = .frame x := by
  rw [AVPoolRead.avPoolReadFrame] at h
  split at h
  · next x hx =>
      split at h
      · left
        cases h
        exact ⟨rfl, rfl⟩
      · right
        cases h
        rw [JpoolMan.avPoolReadAvData] at hx
        split at hx
        · cases hx
        · next hyet =>
            split at hx
            · cases hx
            · next pos hpos =>
                split at hx
                · next hframe => exact ⟨x, pos, rfl, rfl, hyet, hpos, hframe, hx⟩
                · cases hx
  · left
    cases h
    exact ⟨rfl, rfl⟩

/-- The first read goes to the newest I frame. -/
theorem nReadPos_first {m : JpoolMan} {a : ReadArgs} (hno : a.u32NeedFrameNo = 0)
    (hlast : a.nNextPos = 0) (h : m.nReadPos a = some q) : q = m.u32NewestIPos := by
  rw [JpoolMan.nReadPos, if_pos ⟨hno, hlast⟩] at h
  split at h
  · cases h
  · exact (Option.some.inj h).symm

/-- A later one finds the frame it asks for, or a newer one. -/
theorem nReadPos_next {m : JpoolMan} {a : ReadArgs} (hno : a.u32NeedFrameNo ≠ 0)
    (hno' : a.u32NeedFrameNo ≠ 0xFFFFFFFF) (hiframe : a.u32IFrame = 0)
    (hle : a.u32NeedFrameNo ≤ m.u32FrameNo) (h : m.nReadPos a = some q) :
    (q = a.nNextPos ∧ (m.hdr q).u32FrameNo = a.u32NeedFrameNo) ∨
      (q = m.fallback ∧ a.u32NeedFrameNo ≤ (m.hdr q).u32FrameNo ∧
        (m.u8VideoPool = false ∨ m.avPoolCheckIsIframe q)) := by
  rw [JpoolMan.nReadPos, if_neg (fun hfirst => hno hfirst.1), if_neg (fun hold => hno' hold.1),
    if_neg (fun hforced => hforced.1 hiframe), JpoolMan.avPoolSearchData] at h
  split at h
  · cases h
  · split at h
    · next hthere =>
        obtain rfl := Option.some.inj h
        exact .inl ⟨rfl, hthere.1⟩
    · split at h
      · cases h
      · split at h
        · cases h
        · next hnew =>
            split at h
            · next hkind =>
                obtain rfl := Option.some.inj h
                refine .inr ⟨rfl, ?_, hkind⟩
                exact UInt32.not_lt.1 fun hlt => hnew ⟨hle, hlt⟩
            · cases h

end Find

/-! ## Over a run -/

/-- The place behind a part of the frames. -/
def placeBehind (size : Nat) (pre : List Rec) : Nat := behind size 0 (pre.map Rec.size).sum

/-- The reader asks for the frame behind the last one that it has been given, at
the place behind that. -/
structure Reads (w : Watched) : Prop where
  ring : Ring w.pool
  right : ReadsRight w
  below : ∀ d ∈ w.seen, d.u32FrameNo < w.reader.needFrameNo
  last : ∀ d ∈ w.seen.getLast?, w.reader.needFrameNo = d.u32FrameNo + 1
  place : (w.reader.needFrameNo = 0 ∧ w.reader.lastPos = 0 ∧ w.seen = []) ∨
    (w.reader.iframe = 0 ∧ ∃ pre post, w.pool.log = pre ++ post ∧ pre ≠ [] ∧
      w.reader.needFrameNo.toNat = pre.length + 1 ∧
      w.reader.lastPos = placeBehind w.pool.man.u32BuffSize pre)

theorem Ring.place_eq {s : Logged} {pre post : List Rec} {r : Rec} (h : Ring s)
    (hlog : s.log = pre ++ r :: post) : r.pos = placeBehind s.man.u32BuffSize pre := by
  obtain ⟨total, hlaid, -⟩ := h.laid
  rw [hlog] at hlaid
  obtain ⟨x, hpre, hplace, -⟩ := laid_append.1 hlaid
  rw [hplace, placeBehind, ← hpre.total, Nat.zero_add]

theorem Reads.write {w : Watched} {f : Frame} {p : Logged} (h : Reads w)
    (hplain : PlainFrame w.pool f) (hstep : WriteStep w.pool f p) :
    Reads { w with pool := p } := by
  have hwrote := hstep.wrote
  have hring := h.ring.write hplain hwrote
  have hold {r : Rec} (hr : r ∈ w.pool.log) : r ∈ p.log := by
    rw [hwrote.log]
    exact List.mem_append_left _ hr
  refine ⟨hring, ⟨h.right.increasing, ?_, ?_, ?_⟩, h.below, h.last, ?_⟩
  · intro d hd
    obtain ⟨r, hr, hno⟩ := h.right.written d hd
    exact ⟨r, hold hr, hno⟩
  · intro d hd r hr hno
    obtain ⟨r', hr', hno'⟩ := h.right.written d hd
    obtain rfl := hring.eq_of_no hr (hold hr') (hno.trans hno'.symm)
    exact h.right.bytes d hd r hr' hno
  · intro hvideo
    exact h.right.skips (hstep.video.symm.trans hvideo)
  · obtain hfirst | ⟨hiframe, pre, post, hlog, hne, hno, hlast⟩ := h.place
    · exact .inl hfirst
    · obtain ⟨m, hring₁, hring₂⟩ := hwrote.ring
      have hsize : p.man.u32BuffSize = w.pool.man.u32BuffSize := hring₂.size.trans hring₁.size
      refine .inr ⟨hiframe, pre, post ++ [w.pool.man.next f], ?_, hne, hno, ?_⟩
      · show p.log = _
        rw [hwrote.log, hlog, List.append_assoc]
      · show w.reader.lastPos = placeBehind p.man.u32BuffSize pre
        rw [hsize]
        exact hlast

/-- The reader has been given a frame that is all there, no older than the one it
asked for. -/
theorem Reads.took {w : Watched} {d : Delivery} {r : Rec} (h : Reads w) (hr : r ∈ w.pool.log)
    (hcarries : d.Carries r)
    (hnext : d.nNextPos = behind w.pool.man.u32BuffSize r.pos r.size)
    (hno : w.reader.needFrameNo ≤ d.u32FrameNo)
    (hskip : w.pool.man.u8VideoPool = true →
      w.reader.needFrameNo = d.u32FrameNo ∨ w.seen = [] ∨
        d.u32IFrame = avVideoFrameI.toUInt32) :
    Reads { w with reader := w.reader.took d, seen := w.seen ++ [d] } := by
  obtain ⟨pre, post, hlog⟩ := List.append_of_mem hr
  have hnumber := h.ring.number hlog
  have hcount := h.ring.count
  have hlength : pre.length < w.pool.log.length := by
    rw [hlog, List.length_append, List.length_cons]
    omega
  have hsucc : (d.u32FrameNo + 1).toNat = pre.length + 2 := by
    rw [hcarries.no, UInt32.toNat_add, hnumber]
    exact Nat.mod_eq_of_lt (by simp only [UInt32.reduceToNat]; omega)
  have hbelow : ∀ c ∈ w.seen, c.u32FrameNo < d.u32FrameNo := fun c hc =>
    UInt32.lt_of_lt_of_le (h.below c hc) hno
  refine ⟨h.ring, ⟨?_, ?_, ?_, ?_⟩, ?_, ?_, .inr ⟨rfl, pre ++ [r], post, ?_, ?_, ?_, ?_⟩⟩
  · refine List.pairwise_append.2 ⟨h.right.increasing, List.pairwise_singleton _ _, ?_⟩
    intro c hc x hx
    obtain rfl := List.mem_singleton.1 hx
    exact hbelow c hc
  · intro c hc
    obtain hc | hc := List.mem_append.1 hc
    · exact h.right.written c hc
    · obtain rfl := List.mem_singleton.1 hc
      exact ⟨r, hr, hcarries.no.symm⟩
  · intro c hc q hq hqno
    obtain hc | hc := List.mem_append.1 hc
    · exact h.right.bytes c hc q hq hqno
    · obtain rfl := List.mem_singleton.1 hc
      obtain rfl := h.ring.eq_of_no hq hr (hqno.trans hcarries.no)
      exact ⟨hcarries.pBuf_eq (h.ring.pieces q hq), hcarries.type⟩
  · intro hvideo
    refine List.isChain_append.2 ⟨h.right.skips hvideo, List.isChain_singleton _, ?_⟩
    intro c hc x hx
    obtain rfl := Option.some.inj hx
    obtain hnext | hempty | hiframe := hskip hvideo
    · left
      rw [← hnext]
      exact h.last c hc
    · rw [hempty] at hc
      cases hc
    · exact .inr hiframe
  · intro c hc
    show c.u32FrameNo < d.u32FrameNo + 1
    have hself : d.u32FrameNo < d.u32FrameNo + 1 := by
      rw [UInt32.lt_iff_toNat_lt, hsucc, hcarries.no, hnumber]
      omega
    obtain hc | hc := List.mem_append.1 hc
    · exact UInt32.lt_trans (hbelow c hc) hself
    · obtain rfl := List.mem_singleton.1 hc
      exact hself
  · intro c hc
    have hlast : (w.seen ++ [d]).getLast? = some d := List.getLast?_concat ..
    obtain rfl := Option.some.inj (hlast.symm.trans hc)
    rfl
  · show w.pool.log = _
    rw [hlog, List.append_assoc]
    rfl
  · exact List.append_ne_nil_of_right_ne_nil _ (List.cons_ne_nil _ _)
  · rw [List.length_append]
    exact hsucc
  · show d.nNextPos = placeBehind w.pool.man.u32BuffSize (pre ++ [r])
    rw [hnext, h.ring.place_eq hlog, placeBehind, behind_behind, placeBehind, List.map_append,
      List.sum_append, List.map_singleton, List.sum_singleton]

/-- What is copied from a place that is not misread. -/
theorem Ring.copied {s : Logged} {nBufLen q : Nat} {d : Delivery} (h : Ring s)
    (hframe : s.man.avPoolCheckIsFrame q) (hplain : ¬ Misread s q) (howner : (s.owner q).isSome)
    (hcopy : s.man.avPoolCopyAvData nBufLen q = .frame d) :
    ∃ r ∈ s.log, Intact s.man r ∧ r.pos = q ∧ d.Carries r ∧
      d.nNextPos = behind s.man.u32BuffSize r.pos r.size := by
  obtain ⟨r, hr, rfl, hintact⟩ := h.found hframe hplain howner
  have hread := hintact.copy h.sized.dvd (h.sized.le.trans (by decide)) (h.fits r hr) nBufLen
  split at hread
  · rw [hread] at hcopy
    cases hcopy
  · obtain ⟨d', hd', hcarries, hnext⟩ := hread
    obtain rfl : d' = d := ReadResult.frame.inj (hd'.symm.trans hcopy)
    exact ⟨r, hr, hintact, rfl, hcarries, hnext.trans (hintact.nextPos h.sized (h.fits r hr))⟩

theorem Reads.read {w : Watched} {nBufLen : Nat} {r : AVPoolRead} {d : Option Delivery}
    (h : Reads w) (hplain : PlainPlaces w.pool w.reader)
    (hread : w.reader.avPoolReadFrame w.pool.man nBufLen = (r, d)) :
    Reads { w with reader := r, seen := w.seen ++ d.toList } := by
  obtain ⟨rfl, rfl⟩ | ⟨x, pos, rfl, rfl, hyet, hpos, hframe, hcopy⟩ := avPoolReadFrame_cases hread
  · have hseen : w.seen ++ (none : Option Delivery).toList = w.seen := List.append_nil _
    rw [hseen]
    exact h
  · have hlog := h.ring.log_ne_nil hyet
    obtain ⟨hno, hlast, hseen⟩ | ⟨hiframe, pre, post, hsplit, hne, hno, hlast⟩ := h.place
    · obtain rfl := nReadPos_first hno hlast hpos
      rw [PlainPlaces, if_pos hno] at hplain
      obtain ⟨r, hr, -, -, hcarries, hnext⟩ := h.ring.copied hframe hplain
        (h.ring.newestI.2 hlog) hcopy
      refine h.took hr hcarries hnext ?_ fun _ => .inr (.inl hseen)
      rw [hno]
      exact UInt32.zero_le
    · have hlength : pre.length ≤ w.pool.log.length := by
        rw [hsplit, List.length_append]
        omega
      have hcount := h.ring.count
      have hle := h.ring.need_le hyet (by omega)
      have hnonzero : w.reader.needFrameNo ≠ 0 := by
        intro hzero
        rw [hzero] at hno
        simp only [UInt32.reduceToNat] at hno
        omega
      have hnotOld : w.reader.needFrameNo ≠ 0xFFFFFFFF := by
        intro hold
        rw [hold] at hle
        simp only [UInt32.reduceToNat] at hle
        omega
      rw [PlainPlaces, if_neg hnonzero] at hplain
      obtain ⟨hthere, hfallback⟩ := hplain
      obtain ⟨rfl, hnumber⟩ | ⟨rfl, hnewer, hkind⟩ := nReadPos_next hnonzero hnotOld hiframe
        (UInt32.le_iff_toNat_le.2 (hle.trans hcount.1.ge)) hpos
      · -- its own place: the frame it asked for covers it
        have howner : (w.pool.owner w.reader.lastPos).isSome := by
          cases post with
          | nil =>
              rw [List.append_nil] at hsplit
              rw [← hsplit] at hno
              omega
          | cons c post =>
              rw [hlast, ← h.ring.place_eq hsplit]
              refine h.ring.owner_pos ?_
              rw [hsplit]
              exact List.mem_append_right _ (List.mem_cons_self ..)
        obtain ⟨r, hr, hintact, hrpos, hcarries, hnext⟩ := h.ring.copied hframe
          (fun hmis => hthere ⟨hmis, hnumber⟩) howner hcopy
        have heq : w.reader.needFrameNo = x.u32FrameNo := by
          rw [hcarries.no]
          have hhdr := congrArg JpoolFrameHdr.u32FrameNo hintact.hdr
          rw [hrpos] at hhdr
          exact hnumber.symm.trans hhdr
        exact h.took hr hcarries hnext (heq ▸ UInt32.le_refl _) fun _ => .inl heq
      · obtain ⟨r, hr, hintact, hrpos, hcarries, hnext⟩ := h.ring.copied hframe hfallback
          (h.ring.owner_fallback hlog) hcopy
        have hhdr := congrArg JpoolFrameHdr.u32FrameNo hintact.hdr
        rw [hrpos] at hhdr
        refine h.took hr hcarries hnext ?_ fun hvideo => .inr (.inr ?_)
        · rw [hcarries.no]
          exact UInt32.le_trans hnewer (UInt32.le_of_eq hhdr)
        · obtain haudio | hi := hkind
          · rw [hvideo] at haudio
            cases haudio
          · rw [← hrpos] at hi
            rw [hcarries.type, (hintact.isIframe_iff).1 hi]

theorem reads_init (video : Bool) (size : PoolSize) (mem : ByteFile) (nMaxDelay : UInt32) :
    Reads (.init video size mem nMaxDelay) where
  ring := ring_init video size mem
  right := by
    refine ⟨List.Pairwise.nil, ?_, ?_, fun _ => List.isChain_nil⟩
    · intro d hd
      cases hd
    · intro d hd
      cases hd
  below _ h := absurd h List.not_mem_nil
  last _ h := nomatch h
  place := .inl ⟨rfl, rfl, rfl⟩

/-- In every run of writes and reads, in any order, in which the frames are plain
and no place that the reader looks at is misread, what it is given is right. -/
theorem readsRight_of_plain {video : Bool} {size : PoolSize} {mem : ByteFile}
    {nMaxDelay : UInt32} {ops : List PoolOp} {w : Watched}
    (hrun : Run (Restrict PoolStep Plain) (.init video size mem nMaxDelay) ops w) :
    ReadsRight w := by
  refine (hrun.invariant (I := Reads) ?_ (reads_init video size mem nMaxDelay)).right
  rintro w op w' h ⟨hstep, hplain⟩
  cases hstep with
  | write hstep => exact h.write hplain hstep
  | read hread => exact h.read hplain hread

/-! ## A forged header -/

instance (s : Logged) (q : Nat) : Decidable (Misread s q) := inferInstanceAs (Decidable (_ ∧ _))

instance (s : Logged) (f : Frame) : Decidable (PlainFrame s f) :=
  inferInstanceAs (Decidable (_ ∧ _ ∧ _))

instance (s : Logged) (pool : AVPoolRead) : Decidable (PlainPlaces s pool) :=
  inferInstanceAs (Decidable (if pool.needFrameNo = 0 then ¬ Misread s s.man.u32NewestIPos
    else _ ∧ _))

instance (w : Watched) : (op : PoolOp) → Decidable (Plain w op)
  | .write f => inferInstanceAs (Decidable (PlainFrame w.pool f))
  | .read _ => inferInstanceAs (Decidable (PlainPlaces w.pool w.reader))

/-- Writing and reading by execution. -/
def Watched.exec (w : Watched) : PoolOp → Option Watched
  | .write f => (w.pool.exec f).map fun p => { w with pool := p }
  | .read nBufLen =>
      let (r, d) := w.reader.avPoolReadFrame w.pool.man nBufLen
      some { w with reader := r, seen := w.seen ++ d.toList }

theorem Watched.exec_step {w w' : Watched} {op : PoolOp} (h : w.exec op = some w') :
    PoolStep w op w' := by
  cases op with
  | write f =>
      obtain ⟨p, hp, rfl⟩ := Option.map_eq_some_iff.1 h
      exact .write (Logged.exec_writeStep hp)
  | read nBufLen =>
      obtain rfl := Option.some.inj h
      exact .read rfl

/-- Execution where the condition is met. -/
def Watched.execPlain (w : Watched) (op : PoolOp) : Option Watched :=
  if Plain w op then w.exec op else none

theorem Watched.execPlain_step {w w' : Watched} {op : PoolOp} (h : w.execPlain op = some w') :
    Restrict PoolStep Plain w op w' := by
  rw [execPlain] at h
  split at h
  · next hplain => exact ⟨exec_step h, hplain⟩
  · cases h

/-- A frame of an audio pool. -/
def audioWrite (piece : List UInt8) : PoolOp := .write (pieceFrame 0xA piece)

/-- A reader that takes the first two of seven frames, misses the next, and is
given the newest one then. -/
def missingOps : List PoolOp :=
  [audioWrite (List.replicate 64 1), .read 256, audioWrite (List.replicate 64 2), .read 256,
    .read 256] ++ [3, 4, 5, 6, 7].map (fun b => audioWrite (List.replicate 64 b)) ++ [.read 256]

theorem readsRight_of_plain_lap :
    ∃ w, Run (Restrict PoolStep Plain) (.init false poolSize512 (fun _ => 0) 1000) missingOps w ∧
      ReadsRight w := by
  have hexec : (missingOps.foldlM Watched.execPlain
      (.init false poolSize512 (fun _ => 0) 1000)).isSome := by decide +kernel
  obtain ⟨w, hw⟩ := Option.isSome_iff_exists.1 hexec
  have hrun := Run.of_foldlM Watched.execPlain_step hw
  exact ⟨w, hrun, readsRight_of_plain hrun⟩

/-- Data of 192 bytes: 64 that mean nothing, the header of frame 2 with a length
of 4 bytes, and 64 more. -/
def forgedPiece : List UInt8 :=
  List.replicate 64 9 ++
    (putHdr (fun _ => 0) 0 ⟨jpoolMagicFlag, 2, 4, 0xA, 0, jpoolMagicFlag⟩).read 0 64 ++
    List.replicate 64 9

/-- A reader takes the first frame and asks for the second behind it; there the
data of the fifth frame has come to lie, and in it what looks like the header
of the second. -/
def forgedOps : List PoolOp :=
  [audioWrite (List.replicate 64 1), .read 256] ++
    [2, 3, 4].map (fun b => audioWrite (List.replicate 64 b)) ++
    [audioWrite forgedPiece, .read 256]

/-- The reader has been given other bytes than those of a number. -/
def Watched.forged (w : Watched) : Bool :=
  w.seen.any fun d => w.pool.log.any fun r =>
    r.no == d.u32FrameNo && d.pBuf != r.frame.pHdrData ++ r.frame.ppPicsData.flatten

theorem ReadsRight.not_forged {w : Watched} (h : ReadsRight w) : w.forged = false := by
  rw [Watched.forged, List.any_eq_false]
  intro d hd hany
  obtain ⟨r, hr, hbad⟩ := List.any_eq_true.1 hany
  rw [Bool.and_eq_true, beq_iff_eq, bne_iff_ne] at hbad
  exact hbad.2 (h.bytes d hd r hr hbad.1).1

theorem not_readsRight :
    ¬ ∀ (video : Bool) (size : PoolSize) (mem : ByteFile) (nMaxDelay : UInt32)
      (ops : List PoolOp) (w : Watched),
      Run PoolStep (.init video size mem nMaxDelay) ops w → ReadsRight w := by
  intro h
  have hexec : (forgedOps.foldlM Watched.exec
      (.init false poolSize512 (fun _ => 0) 1000)).map Watched.forged = some true := by
    decide +kernel
  obtain ⟨w, hw, hforged⟩ := Option.map_eq_some_iff.1 hexec
  have hright := h _ _ _ _ _ w (Run.of_foldlM Watched.exec_step hw)
  rw [hright.not_forged] at hforged
  cases hforged

end Nvr.AvPool
