import Mathlib.Algebra.Order.BigOperators.Group.List
import Nvr.Lib.Run
import Nvr.Proofs.PoolRecord

/-!
# The chain of frames in the pool

The frames that can still be read lie end to end from the oldest one to the
write position. A write frees those in its way by going from one to the next;
as long as it comes to a frame that is not in its way, the position it stops at
is that of a frame, and everything from there on stands as it was written. It
does come to one when the newest frame and the new one leave a byte of the ring
between them (`FitsBehind`). When they do not, the loop goes on over the write
position into what is left there of older laps.
-/

namespace Nvr.AvPool

open RingBuffer

/-- A pool, with the records of the frames that it has been given. -/
structure Logged where
  man : JpoolMan
  log : List Rec

/-- A pool that has been given no frame. -/
def Logged.init (video : Bool) (size : PoolSize) (mem : ByteFile) : Logged :=
  ⟨avPoolInit video size mem, []⟩

/-- A frame that is accepted, and the write returns. -/
inductive WriteStep (s : Logged) (f : Frame) : Logged → Prop
  | write {m : JpoolMan} (haccepts : s.man.Accepts f) (hwrite : s.man.avPoolWriteFrame f = some m) :
      WriteStep s f ⟨m, s.log ++ [s.man.next f]⟩

/-- The frame fits the ring, and together with the newest one it does not fill
it. -/
def FitsBehind (s : Logged) (f : Frame) : Prop :=
  f.needSize ≤ s.man.u32BuffSize ∧
    ∀ r ∈ s.log.getLast?, r.size + f.needSize < s.man.u32BuffSize

/-! ## What a chain is -/

/-- Going from frame to frame with `av_pool_get_frame_offset`. -/
def Walks (m : JpoolMan) : Nat → List Rec → Nat → Prop
  | pos, [], stop => pos = stop
  | pos, r :: rs, stop => r.pos = pos ∧ Intact m r ∧ Walks m (m.nextPos pos) rs stop

/-- Each of the numbers is one more than the number in front of it. -/
def Numbered : UInt32 → List Rec → UInt32 → Prop
  | no, [], last => no = last
  | no, r :: rs, last => r.no = no + 1 ∧ Numbered r.no rs last

/-- From the oldest frame of the pool one comes over intact frames, numbered one
after the other, to the newest, which ends at the write position. -/
structure Chained (s : Logged) (live : List Rec) : Prop where
  ne : live ≠ []
  walks : Walks s.man s.man.u32OldestFramePos live s.man.u32WritePos
  numbered : ∃ no, Numbered no live s.man.u32FrameNo
  newest : ∀ r ∈ live.getLast?, r.pos = s.man.u32NewestFramePos
  suffix : live <:+ s.log
  fits : (live.map Rec.size).sum ≤ s.man.u32BuffSize

/-- The position of the oldest frame is none or that of a chain. -/
def OldestRight (s : Logged) : Prop :=
  s.man.u32OldestFramePos = noPos ∨ ∃ live, Chained s live

/-! ## The invariant -/

/-- The frames from the oldest on, by their distances behind the write
position. -/
structure Live (s : Logged) (live : List Rec) (x : Nat) : Prop where
  sized : s.man.Sized
  suffix : live <:+ s.log
  ne : s.log ≠ [] → live ≠ []
  intact : ∀ r ∈ live, Intact s.man r
  laid : Laid Rec.pos Rec.size s.man.u32BuffSize s.man.u32WritePos x live s.man.u32BuffSize
  numbered : ∃ no, Numbered no live s.man.u32FrameNo
  oldest : s.man.u32OldestFramePos = (live.head?.map Rec.pos).getD noPos
  newest : ∀ r ∈ live.getLast?, r.pos = s.man.u32NewestFramePos

theorem Rec.size_pos (r : Rec) : 0 < r.size := by
  have := le_recordSize r.frame.dataLen
  unfold size Frame.needSize
  omega

theorem numbered_append {no last : UInt32} {rs qs : List Rec} :
    Numbered no (rs ++ qs) last ↔ ∃ k, Numbered no rs k ∧ Numbered k qs last := by
  induction rs generalizing no with
  | nil => simp [Numbered]
  | cons r rs ih =>
      simp only [List.cons_append, Numbered, ih]
      constructor
      · rintro ⟨hr, k, hrs, hqs⟩
        exact ⟨k, ⟨hr, hrs⟩, hqs⟩
      · rintro ⟨k, ⟨hr, hrs⟩, hqs⟩
        exact ⟨hr, k, hrs, hqs⟩

theorem Laid.walks {m : JpoolMan} {live : List Rec} {x : Nat} (hs : m.Sized)
    (hintact : ∀ r ∈ live, Intact m r)
    (h : Laid Rec.pos Rec.size m.u32BuffSize m.u32WritePos x live m.u32BuffSize) :
    Walks m (behind m.u32BuffSize m.u32WritePos x) live m.u32WritePos := by
  induction live generalizing x with
  | nil =>
      obtain rfl : x = m.u32BuffSize := h
      exact (Nat.add_mod_right _ _).trans (Nat.mod_eq_of_lt hs.write_lt)
  | cons r rs ih =>
      have hr := hintact r (List.mem_cons_self ..)
      have hfit : r.size ≤ m.u32BuffSize := by
        have := h.total
        rw [List.map_cons, List.sum_cons] at this
        omega
      refine ⟨h.1, hr, ?_⟩
      rw [← h.1, hr.nextPos hs hfit, h.1, behind_behind]
      exact ih (fun q hq => hintact q (List.mem_cons_of_mem _ hq)) h.2

theorem Live.chained {s : Logged} {live : List Rec} {x : Nat} (h : Live s live x)
    (hne : live ≠ []) : Chained s live := by
  cases live with
  | nil => exact absurd rfl hne
  | cons r rs =>
      have holdest : s.man.u32OldestFramePos =
          behind s.man.u32BuffSize s.man.u32WritePos x := h.oldest.trans h.laid.1
      have htotal := h.laid.total
      refine ⟨hne, ?_, h.numbered, h.newest, h.suffix, by omega⟩
      rw [holdest]
      exact Laid.walks h.sized h.intact h.laid

theorem Live.oldestRight {s : Logged} {live : List Rec} {x : Nat} (h : Live s live x) :
    OldestRight s := by
  by_cases hlive : live = []
  · rw [hlive] at h
    exact .inl h.oldest
  · exact .inr ⟨live, h.chained hlive⟩

theorem Live.size_le {s : Logged} {live : List Rec} {x : Nat} {r : Rec} (h : Live s live x)
    (hr : r ∈ live) : r.size ≤ s.man.u32BuffSize := by
  obtain ⟨z, -, -, hz⟩ := h.laid.place hr
  omega

/-! ## Freeing -/

/-- What is in the way of a write is less than its length behind the write
position, or just there. -/
theorem inWriteRange_iff {m : JpoolMan} {n x : Nat} (hs : m.Sized) (hn : n < m.u32BuffSize)
    (hx : x < m.u32BuffSize) :
    m.inWriteRange n (behind m.u32BuffSize m.u32WritePos x) ↔ x ≤ n := by
  have hw := hs.write_lt
  have hplace := behind_eq hw hx.le
  rw [hplace, JpoolMan.inWriteRange]
  split
  · next h =>
      rw [Bool.and_eq_true, decide_eq_true_eq, decide_eq_true_eq]
      split <;> omega
  · next h =>
      have hstop : (m.u32WritePos + n) % m.u32BuffSize = m.u32WritePos + n - m.u32BuffSize :=
        (behind_eq hw hn.le).trans (if_neg (by omega))
      rw [Bool.or_eq_true, decide_eq_true_eq, decide_eq_true_eq, hstop]
      split <;> omega

/-- The frames that are left when those in the way of `n` bytes are gone. -/
def keep (n : Nat) : Nat → List Rec → List Rec
  | _, [] => []
  | x, r :: rs => if x ≤ n then keep n (x + r.size) rs else r :: rs

theorem keep_suffix (n x : Nat) (rs : List Rec) : keep n x rs <:+ rs := by
  induction rs generalizing x with
  | nil => exact List.suffix_rfl
  | cons r rs ih =>
      rw [keep]
      split
      · exact (ih _).trans (List.suffix_cons ..)
      · exact List.suffix_rfl

/-- What is left lies behind the bytes. -/
theorem laid_keep {size w n x y : Nat} {rs : List Rec}
    (h : Laid Rec.pos Rec.size size w x rs y) (hy : n < y) :
    ∃ z, n < z ∧ Laid Rec.pos Rec.size size w z (keep n x rs) y := by
  induction rs generalizing x with
  | nil => exact ⟨y, hy, rfl⟩
  | cons r rs ih =>
      rw [keep]
      split
      · exact ih h.2
      · next hx => exact ⟨x, Nat.lt_of_not_le hx, h⟩

/-- The last frame is left when it begins behind the bytes. -/
theorem keep_ne_nil {n x y size w : Nat} {rs : List Rec} {r : Rec}
    (h : Laid Rec.pos Rec.size size w x (rs ++ [r]) y) (hy : n + r.size < y) :
    keep n x (rs ++ [r]) ≠ [] := by
  induction rs generalizing x with
  | nil =>
      have hx : x + r.size = y := h.2
      rw [List.nil_append, keep, if_neg (by omega)]
      exact List.cons_ne_nil _ _
  | cons q rs ih =>
      rw [List.cons_append, keep]
      split
      · exact ih h.2
      · exact List.cons_ne_nil _ _

/-- The loop stops at the first frame that is left. -/
theorem refresh_live {m : JpoolMan} {n x fuel : Nat} {upd : Bool} {r : Rec} {rs : List Rec}
    (hs : m.Sized) (hn : n < m.u32BuffSize) (hintact : ∀ q ∈ r :: rs, Intact m q)
    (hlaid : Laid Rec.pos Rec.size m.u32BuffSize m.u32WritePos x (r :: rs) m.u32BuffSize)
    (hfuel : (r :: rs).length < fuel) (hne : keep n x (r :: rs) ≠ []) :
    ∃ q ∈ (keep n x (r :: rs)).head?,
      m.refresh n fuel r.pos upd = some (.at q.pos (upd || decide (x ≤ n))) := by
  induction rs generalizing x fuel upd r with
  | nil =>
      obtain ⟨fuel, rfl⟩ : ∃ k, fuel = k + 1 := ⟨fuel - 1, by omega⟩
      have hx : x < m.u32BuffSize := by
        have := hlaid.total
        have := r.size_pos
        simp only [List.map_cons, List.map_nil, List.sum_cons, List.sum_nil] at *
        omega
      have hrange := inWriteRange_iff hs hn hx
      rw [← hlaid.1] at hrange
      by_cases hin : x ≤ n
      · rw [keep, if_pos hin] at hne
        exact absurd rfl hne
      · rw [keep, if_neg hin, JpoolMan.refresh, if_neg (mt hrange.1 hin)]
        exact ⟨r, rfl, by rw [decide_eq_false hin, Bool.or_false]⟩
  | cons q rs ih =>
      obtain ⟨fuel, rfl⟩ : ∃ k, fuel = k + 1 := ⟨fuel - 1, by omega⟩
      have htotal := hlaid.total
      have hpos := r.size_pos
      rw [List.map_cons, List.sum_cons] at htotal
      have hx : x < m.u32BuffSize := by omega
      have hrange := inWriteRange_iff hs hn hx
      rw [← hlaid.1] at hrange
      by_cases hin : x ≤ n
      · -- on to the next frame of the chain
        have hr := hintact r (List.mem_cons_self ..)
        have hq := hintact q (List.mem_cons_of_mem _ (List.mem_cons_self ..))
        have hnext : m.nextPos r.pos = q.pos := by
          rw [hr.nextPos hs (by omega), hlaid.1, behind_behind]
          exact hlaid.2.1.symm
        rw [keep, if_pos hin] at hne ⊢
        rw [JpoolMan.refresh, if_pos (hrange.2 hin)]
        simp only
        rw [hnext, if_pos hq.isFrame, decide_eq_true hin, Bool.or_true]
        obtain ⟨p, hp, hrefresh⟩ := ih (fun p hp => hintact p (List.mem_cons_of_mem _ hp)) hlaid.2
          (Nat.lt_of_succ_lt_succ hfuel) hne
        exact ⟨p, hp, hrefresh⟩
      · rw [keep, if_neg hin, JpoolMan.refresh, if_neg (mt hrange.1 hin)]
        exact ⟨r, rfl, by rw [decide_eq_false hin, Bool.or_false]⟩

/-- Refreshing the oldest frame changes what is noted of it. -/
theorem avPoolRefreshOldestFramePos_eq {m m' : JpoolMan} {n : Nat}
    (h : m.avPoolRefreshOldestFramePos n = some m') :
    ∃ no pos pts, m' =
      { m with u32OldestFrameNo := no, u32OldestFramePos := pos, u64OldestFramePts := pts } := by
  obtain ⟨r, -, rfl⟩ := Option.map_eq_some_iff.1 h
  cases r with
  | lost => exact ⟨_, _, _, rfl⟩
  | «at» pos upd =>
      cases upd with
      | false => exact ⟨_, _, _, rfl⟩
      | true => exact ⟨_, _, _, rfl⟩

theorem searchIframe_eq {m m' : JpoolMan} {fuel pos len : Nat}
    (h : m.searchIframe fuel pos len = some m') :
    ∃ no pos pts, m' =
      { m with u32OldestIFrameNo := no, u32OldestIFramePos := pos, u64OldestIFramePts := pts } := by
  induction fuel generalizing pos len with
  | zero => cases h
  | succ fuel ih =>
      rw [JpoolMan.searchIframe] at h
      split at h
      · split at h
        · obtain rfl := Option.some.inj h
          exact ⟨_, _, _, rfl⟩
        · simp only at h
          split at h
          · exact ih h
          · obtain rfl := Option.some.inj h
            exact ⟨_, _, _, rfl⟩
      · obtain rfl := Option.some.inj h
        exact ⟨_, _, _, rfl⟩

/-- Refreshing the oldest I frame changes what is noted of it. -/
theorem avPoolRefreshOldestIframePos_eq {m m' : JpoolMan} {n : Nat}
    (h : m.avPoolRefreshOldestIframePos n = some m') :
    ∃ no pos pts, m' =
      { m with u32OldestIFrameNo := no, u32OldestIFramePos := pos, u64OldestIFramePts := pts } := by
  obtain ⟨r, -, hr⟩ := Option.bind_eq_some_iff.1 h
  cases r with
  | lost =>
      obtain rfl := Option.some.inj hr
      exact ⟨_, _, _, rfl⟩
  | «at» pos upd =>
      cases upd with
      | false =>
          obtain rfl := Option.some.inj hr
          exact ⟨_, _, _, rfl⟩
      | true => exact searchIframe_eq hr

/-- What `noteNewest` leaves alone. -/
theorem noteNewest_ring (m : JpoolMan) (f : Frame) :
    SameRing m (m.noteNewest f) ∧ (m.noteNewest f).u32OldestFramePos = m.u32OldestFramePos ∧
      (m.noteNewest f).u32OldestIFramePos = m.u32OldestIFramePos ∧
      (m.noteNewest f).u32NewestFramePos = m.u32WritePos := by
  unfold JpoolMan.noteNewest
  split
  · exact ⟨⟨rfl, rfl, rfl, rfl, rfl⟩, rfl, rfl, rfl⟩
  · exact ⟨⟨rfl, rfl, rfl, rfl, rfl⟩, rfl, rfl, rfl⟩

/-- What `noteOldest` comes to. -/
theorem noteOldest_ring (m : JpoolMan) (f : Frame) :
    SameRing m (m.noteOldest f) ∧
      (m.noteOldest f).u32NewestFramePos = m.u32NewestFramePos ∧
      (m.noteOldest f).u32OldestFramePos =
        if m.u32OldestFramePos = noPos then m.u32WritePos else m.u32OldestFramePos := by
  unfold JpoolMan.noteOldest
  by_cases hpos : m.u32OldestFramePos = noPos
  · simp only [hpos, if_true]
    split <;> exact ⟨⟨rfl, rfl, rfl, rfl, rfl⟩, rfl, rfl⟩
  · simp only [hpos, if_false]
    split <;> exact ⟨⟨rfl, rfl, rfl, rfl, rfl⟩, rfl, rfl⟩

theorem Live.length_lt {s : Logged} {live : List Rec} {x : Nat} (h : Live s live x) :
    live.length < s.man.fuel := by
  have htotal := h.laid.total
  have hlen := List.length_le_sum_of_one_le (live.map Rec.size) fun i hi => by
    obtain ⟨r, -, rfl⟩ := List.mem_map.1 hi
    exact r.size_pos
  rw [List.length_map] at hlen
  unfold JpoolMan.fuel
  omega

/-- The newest frame is not in the way. -/
theorem Live.keep_ne {s : Logged} {live : List Rec} {x : Nat} {f : Frame} (h : Live s live x)
    (hfit : FitsBehind s f) (hne : live ≠ []) :
    f.needSize < s.man.u32BuffSize ∧ keep f.needSize x live ≠ [] := by
  obtain ⟨rs, r, rfl⟩ := List.eq_nil_or_concat live |>.resolve_left hne
  obtain ⟨older, hlog⟩ := h.suffix
  have hlast : r ∈ s.log.getLast? := by
    rw [← hlog, List.concat_eq_append, ← List.append_assoc, List.getLast?_concat]
    rfl
  have hsum := hfit.2 r hlast
  have hlaid := h.laid
  rw [List.concat_eq_append] at hlaid ⊢
  exact ⟨by omega, keep_ne_nil hlaid (by omega)⟩

theorem refreshOldest_live {m : JpoolMan} {n x : Nat} {live : List Rec} (hs : m.Sized)
    (hn : n < m.u32BuffSize) (hintact : ∀ q ∈ live, Intact m q)
    (hlaid : Laid Rec.pos Rec.size m.u32BuffSize m.u32WritePos x live m.u32BuffSize)
    (hfuel : live.length < m.fuel) (hne : keep n x live ≠ [])
    (holdest : m.u32OldestFramePos = (live.head?.map Rec.pos).getD noPos) :
    ∃ m', m.avPoolRefreshOldestFramePos n = some m' ∧
      m'.u32OldestFramePos = ((keep n x live).head?.map Rec.pos).getD noPos := by
  cases live with
  | nil => exact absurd rfl hne
  | cons r rs =>
      obtain ⟨q, hq, hrefresh⟩ := @refresh_live m n x m.fuel false r rs hs hn hintact hlaid
        hfuel hne
      have holdest' : m.u32OldestFramePos = r.pos := holdest
      rw [Bool.false_or] at hrefresh
      rw [JpoolMan.avPoolRefreshOldestFramePos, holdest', hrefresh, Option.mem_def.1 hq]
      by_cases hin : x ≤ n
      · rw [decide_eq_true hin]
        exact ⟨_, rfl, rfl⟩
      · rw [decide_eq_false hin]
        rw [keep, if_neg hin] at hq
        obtain rfl : r = q := Option.some.inj hq
        exact ⟨_, rfl, holdest'⟩

/-- Freeing moves the two oldest positions and nothing else. -/
theorem freeOldest_ring {m m' : JpoolMan} {n : Nat} (h : m.freeOldest n = some m') :
    SameRing m m' ∧ m'.u32NewestFramePos = m.u32NewestFramePos := by
  rw [JpoolMan.freeOldest] at h
  split at h
  · obtain ⟨m₁, hm₁, hrest⟩ := Option.bind_eq_some_iff.1 h
    obtain ⟨no, pos, pts, rfl⟩ := avPoolRefreshOldestFramePos_eq hm₁
    split at hrest
    · obtain ⟨no', pos', pts', rfl⟩ := avPoolRefreshOldestIframePos_eq hrest
      exact ⟨⟨rfl, rfl, rfl, rfl, rfl⟩, rfl⟩
    · obtain rfl := Option.some.inj hrest
      exact ⟨⟨rfl, rfl, rfl, rfl, rfl⟩, rfl⟩
  · obtain rfl := Option.some.inj h
    exact ⟨⟨rfl, rfl, rfl, rfl, rfl⟩, rfl⟩

/-- A write puts the frame into the ring that it finds. -/
theorem avPoolWriteAvData_ring {m m' : JpoolMan} {f : Frame}
    (h : m.avPoolWriteAvData f = some m') :
    ∃ m₁, SameRing m m₁ ∧ m' = m₁.putFrame f := by
  obtain ⟨m₀, hfree, rfl⟩ := Option.map_eq_some_iff.1 h
  exact ⟨_, ((noteNewest_ring m f).1.trans (freeOldest_ring hfree).1).trans
    (noteOldest_ring m₀ f).1, rfl⟩

/-- The first half of freeing, in a pool with frames. -/
theorem Live.refreshOldest {s : Logged} {live : List Rec} {x : Nat} {f : Frame}
    (h : Live s live x) (hfit : FitsBehind s f) (hne : live ≠ []) :
    (s.man.noteNewest f).u32OldestFramePos ≠ noPos ∧
      ∃ m', (s.man.noteNewest f).avPoolRefreshOldestFramePos f.needSize = some m' ∧
        m'.u32OldestFramePos = ((keep f.needSize x live).head?.map Rec.pos).getD noPos := by
  obtain ⟨hring, holdest, -⟩ := noteNewest_ring s.man f
  obtain ⟨hn, hkeep⟩ := h.keep_ne hfit hne
  rw [h.oldest] at holdest
  have hlaid := h.laid
  rw [← hring.size, ← hring.write] at hlaid
  have hfuel := h.length_lt
  rw [JpoolMan.fuel, ← hring.size] at hfuel
  refine ⟨?_, refreshOldest_live (hring.sized h.sized) (by rwa [hring.size])
    (fun q hq => hring.intact (h.intact q hq)) hlaid hfuel hkeep holdest⟩
  cases live with
  | nil => exact absurd rfl hne
  | cons r rs =>
      have hlt := (h.intact r (List.mem_cons_self ..)).lt
      have hle := h.sized.le
      rw [holdest]
      show r.pos ≠ noPos
      unfold noPos
      omega

/-- The oldest frame that is noted when the way is free. -/
theorem Live.freeOldest {s : Logged} {live : List Rec} {x : Nat} {f : Frame} {m' : JpoolMan}
    (h : Live s live x) (hfit : FitsBehind s f)
    (hfree : (s.man.noteNewest f).freeOldest f.needSize = some m') :
    m'.u32OldestFramePos = ((keep f.needSize x live).head?.map Rec.pos).getD noPos := by
  cases hlive : live with
  | nil =>
      obtain ⟨-, holdest, -⟩ := noteNewest_ring s.man f
      rw [h.oldest, hlive] at holdest
      have hnone : (s.man.noteNewest f).u32OldestFramePos = noPos := holdest
      rw [JpoolMan.freeOldest, if_neg (not_not.2 hnone)] at hfree
      obtain rfl := Option.some.inj hfree
      exact hnone
  | cons r rs =>
      rw [← hlive]
      obtain ⟨hsome, m₁, hm₁, hpos⟩ := h.refreshOldest hfit (hlive ▸ List.cons_ne_nil _ _)
      rw [JpoolMan.freeOldest, if_pos hsome, hm₁, Option.bind_some] at hfree
      split at hfree
      · obtain ⟨no, pos, pts, rfl⟩ := avPoolRefreshOldestIframePos_eq hfree
        exact hpos
      · obtain rfl := Option.some.inj hfree
        exact hpos

/-- Room for the new frame in front of what is left. -/
theorem Live.room {s : Logged} {live : List Rec} {x : Nat} {f : Frame} (h : Live s live x)
    (hfit : FitsBehind s f) :
    ∃ z, f.needSize ≤ z ∧ z ≤ s.man.u32BuffSize ∧
      Laid Rec.pos Rec.size s.man.u32BuffSize s.man.u32WritePos z (keep f.needSize x live)
        s.man.u32BuffSize := by
  cases hlive : live with
  | nil => exact ⟨_, hfit.1, le_rfl, rfl⟩
  | cons r rs =>
      obtain ⟨hn, -⟩ := h.keep_ne hfit (by rw [hlive]; exact List.cons_ne_nil _ _)
      rw [← hlive]
      obtain ⟨z, hz, hlaid⟩ := laid_keep h.laid hn
      have htotal := hlaid.total
      exact ⟨z, hz.le, by omega, hlaid⟩

/-- The chain after a write: what is left of it, and the new frame. -/
theorem Live.write {s t : Logged} {live : List Rec} {x : Nat} {f : Frame} (h : Live s live x)
    (hfit : FitsBehind s f) (hstep : WriteStep s f t) :
    ∃ z, Live t (keep f.needSize x live ++ [s.man.next f]) z := by
  obtain ⟨-, hwrite⟩ := hstep
  obtain ⟨_, hdata, rfl⟩ := Option.map_eq_some_iff.1 hwrite
  obtain ⟨m', hfree, rfl⟩ := Option.map_eq_some_iff.1 hdata
  have holdest' := h.freeOldest hfit hfree
  obtain ⟨hnote', -, -, hnewest₀⟩ := noteNewest_ring s.man f
  obtain ⟨hfree', hnewest₁⟩ := freeOldest_ring hfree
  obtain ⟨hnote, hnewest₂, holdest⟩ := noteOldest_ring m' f
  have hring' := hnote'.trans hfree'
  have hring := hring'.trans hnote
  have hs := hring.sized h.sized
  obtain ⟨z, hz, hzle, hlaid⟩ := h.room hfit
  have hkeep := keep_suffix f.needSize x live
  have hnext : (m'.noteOldest f).next f = s.man.next f := by
    rw [JpoolMan.next, hring.write, hring.no]
    rfl
  have hle : f.needSize ≤ (m'.noteOldest f).u32BuffSize := by
    rw [hring.size]
    exact hfit.1
  -- the largest size noted at last changes nothing of this
  have hlast (n : Nat) : SameRing ((m'.noteOldest f).putFrame f)
      { (m'.noteOldest f).putFrame f with u32MaxSize := n } := ⟨rfl, rfl, rfl, rfl, rfl⟩
  refine ⟨z - f.needSize, (hlast _).sized (hs.putFrame f), ?_, fun _ => ?_, ?_, ?_, ?_, ?_, ?_⟩
  · obtain ⟨older, hlog⟩ := hkeep.trans h.suffix
    exact ⟨older, by rw [← hlog, List.append_assoc]⟩
  · exact List.append_ne_nil_of_right_ne_nil _ (List.cons_ne_nil _ _)
  · intro r hr
    refine (hlast _).intact ?_
    obtain hr | hr := List.mem_append.1 hr
    · obtain ⟨y, hzy, hplace, hend⟩ := hlaid.place hr
      have hkept := hring.intact (h.intact r (hkeep.mem hr))
      refine hkept.putFrame hs hle (x := y) ?_ (hz.trans hzy) ?_
      · rw [hring.size, hring.write]
        exact hplace
      · rw [hring.size]
        exact hend
    · obtain rfl := List.mem_singleton.1 hr
      rw [← hnext]
      exact Intact.putFrame_self hs.aligned hle
  · have hconcat := hlaid.concat (r := s.man.next f) hz hzle h.sized.write_lt rfl
    show Laid _ _ (m'.noteOldest f).u32BuffSize
      ((f.needSize + (m'.noteOldest f).u32WritePos) % (m'.noteOldest f).u32BuffSize) _ _
      (m'.noteOldest f).u32BuffSize
    rw [hring.size, hring.write, Nat.add_comm]
    exact hconcat
  · obtain ⟨no, hno⟩ := h.numbered
    obtain ⟨dropped, hlive⟩ := hkeep
    rw [← hlive] at hno
    obtain ⟨k, -, hk⟩ := numbered_append.1 hno
    refine ⟨k, numbered_append.2 ⟨_, hk, rfl, ?_⟩⟩
    show s.man.u32FrameNo + 1 = (m'.noteOldest f).u32FrameNo + 1
    rw [hring.no]
  · show (m'.noteOldest f).u32OldestFramePos = _
    rw [holdest, holdest']
    cases hk : keep f.needSize x live with
    | nil => exact (if_pos rfl).trans hring'.write
    | cons q qs =>
        have hlt := (h.intact q (hkeep.mem (hk ▸ List.mem_cons_self ..))).lt
        have hsize := h.sized.le
        refine if_neg ?_
        show q.pos ≠ noPos
        unfold noPos
        omega
  · intro r hr
    rw [List.getLast?_concat] at hr
    obtain rfl := Option.some.inj hr
    exact ((hnewest₂.trans hnewest₁).trans hnewest₀).symm

/-- A new pool. -/
theorem live_init (video : Bool) (size : PoolSize) (mem : ByteFile) :
    Live (.init video size mem) [] size.bytes where
  sized := ⟨size.pos, size.aligned, size.le, Nat.dvd_zero 64, size.pos⟩
  suffix := List.suffix_rfl
  ne h := absurd rfl h
  intact _ h := absurd h List.not_mem_nil
  laid := rfl
  numbered := ⟨0, rfl⟩
  oldest := rfl
  newest _ h := nomatch h

theorem WriteStep.video {s t : Logged} {f : Frame} (h : WriteStep s f t) :
    t.man.u8VideoPool = s.man.u8VideoPool := by
  obtain ⟨-, hwrite⟩ := h
  obtain ⟨_, hdata, rfl⟩ := Option.map_eq_some_iff.1 hwrite
  obtain ⟨m', hring, rfl⟩ := avPoolWriteAvData_ring hdata
  exact hring.video

theorem WriteStep.size {s t : Logged} {f : Frame} (h : WriteStep s f t) :
    t.man.u32BuffSize = s.man.u32BuffSize := by
  obtain ⟨-, hwrite⟩ := h
  obtain ⟨_, hdata, rfl⟩ := Option.map_eq_some_iff.1 hwrite
  obtain ⟨m', hring, rfl⟩ := avPoolWriteAvData_ring hdata
  exact hring.size

/-- A write returns when freeing does. -/
theorem WriteStep.of_freeOldest {s : Logged} {f : Frame} (haccepts : s.man.Accepts f)
    (h : ((s.man.noteNewest f).freeOldest f.needSize).isSome) : ∃ t, WriteStep s f t := by
  have hwrite : (s.man.avPoolWriteFrame f).isSome := by
    rw [JpoolMan.avPoolWriteFrame, JpoolMan.avPoolWriteAvData, Option.isSome_map,
      Option.isSome_map]
    exact h
  obtain ⟨m, hm⟩ := Option.isSome_iff_exists.1 hwrite
  exact ⟨_, .write haccepts hm⟩

/-- A write returns when there is no I frame to move. -/
theorem Live.returns {s : Logged} {live : List Rec} {x : Nat} {f : Frame} (h : Live s live x)
    (hfit : FitsBehind s f) (haccepts : s.man.Accepts f) (hvideo : s.man.u8VideoPool = false) :
    ∃ t, WriteStep s f t := by
  refine WriteStep.of_freeOldest haccepts ?_
  obtain ⟨hring, holdest, -⟩ := noteNewest_ring s.man f
  cases hlive : live with
  | nil =>
      rw [h.oldest, hlive] at holdest
      have hnone : (s.man.noteNewest f).u32OldestFramePos = noPos := holdest
      rw [JpoolMan.freeOldest, if_neg (not_not.2 hnone)]
      rfl
  | cons r rs =>
      obtain ⟨hsome, m₁, hm₁, -⟩ := h.refreshOldest hfit (hlive ▸ List.cons_ne_nil _ _)
      obtain ⟨no, pos, pts, rfl⟩ := avPoolRefreshOldestFramePos_eq hm₁
      rw [JpoolMan.freeOldest, if_pos hsome, hm₁, Option.bind_some, if_neg]
      · rfl
      · rintro ⟨hv, -⟩
        have hv' : (s.man.noteNewest f).u8VideoPool = true := hv
        rw [hring.video, hvideo] at hv'
        cases hv'

/-- In every run of writes that each leave a byte between themselves and the
frame in front of them, the oldest frame is right, and in an audio pool each of
these writes returns. -/
theorem oldestRight_of_fitsBehind {video : Bool} {size : PoolSize} {mem : ByteFile}
    {fs : List Frame} {s : Logged}
    (hrun : Run (Restrict WriteStep FitsBehind) (.init video size mem) fs s) :
    OldestRight s ∧
      (video = false → ∀ f, s.man.Accepts f → FitsBehind s f → ∃ t, WriteStep s f t) := by
  have hlive : (∃ live x, Live s live x) ∧ s.man.u8VideoPool = video := hrun.invariant
    (I := fun s => (∃ live x, Live s live x) ∧ s.man.u8VideoPool = video)
    (fun ⟨⟨_, _, h⟩, hvideo⟩ hstep =>
      ⟨⟨_, h.write hstep.2 hstep.1⟩, hstep.1.video.trans hvideo⟩)
    ⟨⟨_, _, live_init video size mem⟩, rfl⟩
  obtain ⟨⟨live, x, h⟩, hvideo⟩ := hlive
  exact ⟨h.oldestRight, fun hv f haccepts hfit => h.returns hfit haccepts (hvideo.trans hv)⟩

/-! ## Two frames -/

/-- A frame in one piece. -/
def pieceFrame (nFrameType : UInt8) (piece : List UInt8) : Frame where
  pHdrData := []
  ppPicsData := [piece]
  nFrameType := nFrameType
  u64Pts := 0
  u32CurFrameNo := 0
  hdr_lt := by decide

/-- Writing by execution. -/
def Logged.exec (s : Logged) (f : Frame) : Option Logged :=
  if s.man.Accepts f then (s.man.avPoolWriteFrame f).map (⟨·, s.log ++ [s.man.next f]⟩) else none

theorem Logged.exec_writeStep {s t : Logged} {f : Frame} (h : s.exec f = some t) :
    WriteStep s f t := by
  rw [exec] at h
  split at h
  · next haccepts =>
      obtain ⟨m, hwrite, rfl⟩ := Option.map_eq_some_iff.1 h
      exact .write haccepts hwrite
  · cases h

instance (s : Logged) (f : Frame) : Decidable (FitsBehind s f) := inferInstanceAs (Decidable (_ ∧ _))

/-- Writing by execution, where the condition is met. -/
def Logged.execFits (s : Logged) (f : Frame) : Option Logged :=
  if FitsBehind s f then s.exec f else none

theorem Logged.execFits_step {s t : Logged} {f : Frame} (h : s.execFits f = some t) :
    Restrict WriteStep FitsBehind s f t := by
  rw [execFits] at h
  split at h
  · next hfit => exact ⟨exec_writeStep h, hfit⟩
  · cases h

/-- A pool of 512 bytes. -/
def poolSize512 : PoolSize := ⟨512, by decide, by decide, by decide⟩

/-- Five frames, and the fifth begins the second lap. -/
theorem oldestRight_of_fitsBehind_lap :
    ∃ s, Run (Restrict WriteStep FitsBehind) (.init false poolSize512 fun _ => 0)
        (List.replicate 5 (pieceFrame 0xA (List.replicate 64 1))) s ∧ OldestRight s := by
  have hexec : ((List.replicate 5 (pieceFrame 0xA (List.replicate 64 1))).foldlM Logged.execFits
      (.init false poolSize512 fun _ => 0)).isSome := by decide +kernel
  obtain ⟨s, hs⟩ := Option.isSome_iff_exists.1 hexec
  have hrun := Run.of_foldlM Logged.execFits_step hs
  exact ⟨s, hrun, (oldestRight_of_fitsBehind hrun).1⟩

/-- A pool of 192 bytes. -/
def poolSize192 : PoolSize := ⟨192, by decide, by decide, by decide⟩

/-- Two frames of half the pool and more: the loop frees the first, looks where
the second will be, finds no frame there, and leaves the position 0, where the
second frame comes to have its data. -/
theorem not_oldestRight :
    ¬ ∀ (video : Bool) (size : PoolSize) (mem : ByteFile) (fs : List Frame) (s : Logged),
      Run WriteStep (.init video size mem) fs s → OldestRight s := by
  intro h
  have hexec : (([pieceFrame 0xA (List.replicate 64 1), pieceFrame 0xA (List.replicate 64 1)]
      ).foldlM Logged.exec (.init false poolSize192 fun _ => 0)).map
        (fun s => decide (s.man.u32OldestFramePos = 0) && !s.man.avPoolCheckIsFrame 0) =
      some true := by decide +kernel
  obtain ⟨s, hs, hbad⟩ := Option.map_eq_some_iff.1 hexec
  rw [Bool.and_eq_true, decide_eq_true_eq, Bool.not_eq_true'] at hbad
  obtain ⟨hpos, hframe⟩ := hbad
  obtain hnone | ⟨live, hlive⟩ := h _ _ _ _ s (Run.of_foldlM Logged.exec_writeStep hs)
  · rw [hpos] at hnone
    cases hnone
  · have hwalks := hlive.walks
    cases live with
    | nil => exact hlive.ne rfl
    | cons r rs =>
        have hintact := hwalks.2.1.isFrame
        rw [hwalks.1, hpos, hframe] at hintact
        cases hintact

end Nvr.AvPool
