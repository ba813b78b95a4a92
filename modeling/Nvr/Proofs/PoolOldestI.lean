import Mathlib.Data.List.Infix
import Nvr.Proofs.PoolChain
import Nvr.Proofs.PoolRead

/-!
# The oldest I frame of a video pool

The position of the oldest I frame moves over the same chain as that of the
oldest frame, and then goes on to the first I frame that is left. There is one
to come to when the newest I frame is not in the way of the write
(`KeepsIframe`). When it is, the search goes on over the write position into
what is left there of an older lap, and takes an I frame of that lap, or leaves
the position 0 for none.
-/

namespace Nvr.AvPool

open RingBuffer

def Rec.isIframe (r : Rec) : Bool := r.frame.nFrameType == avVideoFrameI

/-- The first of these is the last I frame. -/
def fromNewestI : List Rec → Bool
  | [] => false
  | r :: rs => r.isIframe && rs.all (!·.isIframe)

/-- The newest I frame is not in the way of the frame. -/
def KeepsIframe (s : Logged) (f : Frame) : Prop :=
  ∀ rs ∈ s.log.tails, fromNewestI rs → (rs.map Rec.size).sum + f.needSize < s.man.u32BuffSize

/-- The position of the oldest I frame is none when no I frame is intact, and
else that of an intact I frame with no other in front of it from the oldest
frame on. -/
def OldestIframeRight (s : Logged) : Prop :=
  (s.man.u32OldestIFramePos = noPos ∧ ∀ r ∈ s.log, r.isIframe → ¬ Intact s.man r) ∨
    ∃ pre r post, Chained s (pre ++ r :: post) ∧ (∀ q ∈ pre, ¬ q.isIframe) ∧ r.isIframe ∧
      Intact s.man r ∧ s.man.u32OldestIFramePos = r.pos

/-- A read of the oldest I frame fails or gives an intact I frame, unless the
buffer is too small for that frame. -/
def OldestReadRight (s : Logged) : Prop :=
  ∀ a : ReadArgs, a.u32NeedFrameNo = 0xFFFFFFFF → a.nNextPos = noPos →
    s.man.avPoolReadAvData a = .eagain ∨
      ∃ r ∈ s.log, r.isIframe ∧ Intact s.man r ∧
        if a.nBufLen < r.frame.dataLen then
          s.man.avPoolReadAvData a = .enomem r.frame.dataLen
        else ∃ d, s.man.avPoolReadAvData a = .frame d ∧ d.Carries r

/-! ## What is left of a chain -/

section Keep

variable {n x : Nat} {pre post rs : List Rec} {r : Rec}

/-- All of a part that ends in the way is in the way. -/
theorem keep_append_of_le (h : x + (pre.map Rec.size).sum ≤ n) :
    keep n x (pre ++ rs) = keep n (x + (pre.map Rec.size).sum) rs := by
  induction pre generalizing x with
  | nil => rfl
  | cons q pre ih =>
      rw [List.map_cons, List.sum_cons, ← Nat.add_assoc] at h ⊢
      rw [List.cons_append, keep, if_pos (by omega), ih h]

/-- What begins behind the bytes is left. -/
theorem keep_append_of_lt (h : n < x + (pre.map Rec.size).sum) :
    keep n x (pre ++ r :: rs) = keep n x pre ++ r :: rs := by
  induction pre generalizing x with
  | nil =>
      have hx : n < x := h
      show keep n x (r :: rs) = r :: rs
      rw [keep, if_neg (Nat.not_le.2 hx)]
  | cons q pre ih =>
      rw [List.map_cons, List.sum_cons, ← Nat.add_assoc] at h
      rw [List.cons_append, keep, keep]
      split
      · exact ih h
      · rfl

end Keep

theorem fromNewestI_iff {r : Rec} {rs : List Rec} :
    fromNewestI (r :: rs) ↔ r.isIframe ∧ ∀ q ∈ rs, ¬ q.isIframe := by
  simp [fromNewestI]

/-- The last I frame of a list. -/
theorem exists_newestI {rs : List Rec} (h : ∃ r ∈ rs, r.isIframe) :
    ∃ pre r post, rs = pre ++ r :: post ∧ fromNewestI (r :: post) := by
  induction rs with
  | nil =>
      obtain ⟨r, hr, -⟩ := h
      cases hr
  | cons q rs ih =>
      by_cases hrest : ∃ r ∈ rs, r.isIframe
      · obtain ⟨pre, r, post, rfl, hlast⟩ := ih hrest
        exact ⟨q :: pre, r, post, rfl, hlast⟩
      · obtain ⟨r, hr, hi⟩ := h
        obtain rfl | hr := List.mem_cons.1 hr
        · refine ⟨[], r, rs, rfl, fromNewestI_iff.2 ⟨hi, ?_⟩⟩
          intro p hp hpi
          exact hrest ⟨p, hp, hpi⟩
        · exact absurd ⟨r, hr, hi⟩ hrest

/-- The newest I frame is left. -/
theorem Live.keep_iframe {s : Logged} {live : List Rec} {x : Nat} {f : Frame}
    (h : Live s live x) (hkeeps : KeepsIframe s f) (hi : ∃ r ∈ live, r.isIframe) :
    ∃ r ∈ keep f.needSize x live, r.isIframe := by
  obtain ⟨pre, r, post, rfl, hlast⟩ := exists_newestI hi
  have hroom := hkeeps (r :: post)
    ((List.mem_tails _ _).2 ((List.suffix_append _ _).trans h.suffix)) hlast
  have htotal := h.laid.total
  rw [List.map_append, List.sum_append] at htotal
  rw [keep_append_of_lt (by omega)]
  exact ⟨r, List.mem_append_right _ (List.mem_cons_self ..), (fromNewestI_iff.1 hlast).1⟩

/-! ## The search -/

/-- From an intact frame on, the search comes to the first I frame of the
chain. -/
theorem searchIframe_live {m : JpoolMan} {w x len fuel : Nat} {q r : Rec} {qs : List Rec}
    (hs : m.Sized) (hintact : ∀ p ∈ q :: qs, Intact m p)
    (hlaid : Laid Rec.pos Rec.size m.u32BuffSize w x (q :: qs) m.u32BuffSize)
    (hlen : len + ((q :: qs).map Rec.size).sum ≤ m.u32BuffSize)
    (hfuel : (q :: qs).length < fuel) (hfind : (q :: qs).find? Rec.isIframe = some r) :
    ∃ m', m.searchIframe fuel q.pos len = some m' ∧ m'.u32OldestIFramePos = r.pos := by
  induction qs generalizing q x len fuel with
  | nil =>
      obtain ⟨fuel, rfl⟩ : ∃ k, fuel = k + 1 := ⟨fuel - 1, by omega⟩
      have hq := hintact q (List.mem_cons_self ..)
      have hiq : q.isIframe := by
        by_contra hi
        rw [List.find?_cons_of_neg hi] at hfind
        cases hfind
      rw [List.find?_cons_of_pos hiq] at hfind
      obtain rfl := Option.some.inj hfind
      have htype : (m.hdr q.pos).u8FrameType = avVideoFrameI := by
        rw [hq.hdr]
        exact eq_of_beq hiq
      rw [JpoolMan.searchIframe, if_pos hq.isFrame, if_pos htype]
      exact ⟨_, rfl, rfl⟩
  | cons p ps ih =>
      obtain ⟨fuel, rfl⟩ : ∃ k, fuel = k + 1 := ⟨fuel - 1, by omega⟩
      have hq := hintact q (List.mem_cons_self ..)
      rw [JpoolMan.searchIframe, if_pos hq.isFrame]
      by_cases hiq : q.isIframe
      · rw [List.find?_cons_of_pos hiq] at hfind
        obtain rfl := Option.some.inj hfind
        have htype : (m.hdr q.pos).u8FrameType = avVideoFrameI := by
          rw [hq.hdr]
          exact eq_of_beq hiq
        rw [if_pos htype]
        exact ⟨_, rfl, rfl⟩
      · -- on to the next frame, the offset being the size of this one
        rw [List.find?_cons_of_neg hiq] at hfind
        have htype : (m.hdr q.pos).u8FrameType ≠ avVideoFrameI := by
          rw [hq.hdr]
          exact fun hi => hiq (beq_of_eq hi)
        have hle := hs.le
        have hpos := p.size_pos
        simp only [List.map_cons, List.sum_cons] at hlen
        have hfit : q.size ≤ m.u32BuffSize := by omega
        have hnext : m.nextPos q.pos = p.pos := by
          rw [hq.nextPos hs hfit, hlaid.1, behind_behind]
          exact hlaid.2.1.symm
        rw [if_neg htype]
        simp only
        rw [hq.offset (hs.le.trans_lt (by decide)) hfit, Nat.mod_eq_of_lt (by omega),
          if_pos (by omega), hnext]
        refine ih (fun c hc => hintact c (List.mem_cons_of_mem _ hc)) hlaid.2 ?_
          (Nat.lt_of_succ_lt_succ hfuel) hfind
        simp only [List.map_cons, List.sum_cons]
        omega

/-- Refreshing the oldest I frame of a chain in which one is left. -/
theorem refreshOldestI_live {m : JpoolMan} {n x : Nat} {live : List Rec} (hs : m.Sized)
    (hn : n < m.u32BuffSize) (hintact : ∀ q ∈ live, Intact m q)
    (hlaid : Laid Rec.pos Rec.size m.u32BuffSize m.u32WritePos x live m.u32BuffSize)
    (hfuel : live.length < m.fuel) (hi : ∃ q ∈ keep n x live, q.isIframe)
    (hoi : m.u32OldestIFramePos = ((live.find? Rec.isIframe).map Rec.pos).getD noPos) :
    ∃ m', m.avPoolRefreshOldestIframePos n = some m' ∧
      m'.u32OldestIFramePos = (((keep n x live).find? Rec.isIframe).map Rec.pos).getD noPos := by
  obtain ⟨q, hq, hqi⟩ := hi
  obtain ⟨r, hr⟩ := Option.isSome_iff_exists.1
    (List.find?_isSome.2 ⟨q, (keep_suffix n x live).mem hq, hqi⟩)
  obtain ⟨c, hc⟩ := Option.isSome_iff_exists.1 (List.find?_isSome.2 ⟨q, hq, hqi⟩)
  obtain ⟨hri, pre, post, hlive, hpre⟩ := List.find?_eq_some_iff_append.1 hr
  have hoi' : m.u32OldestIFramePos = r.pos := by
    rw [hoi, hr]
    rfl
  rw [hlive] at hintact hlaid hfuel
  obtain ⟨y, hbefore, hafter⟩ := laid_append.1 hlaid
  have hy := hbefore.total
  have hintact' : ∀ p ∈ r :: post, Intact m p := fun p hp => hintact p (List.mem_append_right _ hp)
  have hfuel' : (r :: post).length < m.fuel := by
    rw [List.length_append] at hfuel
    omega
  rw [hc, JpoolMan.avPoolRefreshOldestIframePos, hoi']
  by_cases hin : y ≤ n
  · -- all in front of the first I frame is gone with it
    have hkeep : keep n x live = keep n y (r :: post) := by
      rw [hlive, keep_append_of_le (by omega), hy]
    rw [hkeep] at hq hc
    have hne : keep n y (r :: post) ≠ [] := List.ne_nil_of_mem hq
    obtain ⟨p, hp, hrefresh⟩ := @refresh_live m n y m.fuel false r post hs hn hintact'
      hafter hfuel' hne
    obtain ⟨ps, hps⟩ := List.head?_eq_some_iff.1 hp
    rw [hrefresh, decide_eq_true hin, Bool.or_true, Option.bind_some]
    rw [hps] at hc
    obtain ⟨z, hz, hleft⟩ := laid_keep hafter hn
    rw [hps] at hleft
    have htotal := hleft.total
    have hsuffix : p :: ps <:+ r :: post := hps ▸ keep_suffix n y (r :: post)
    have hlength := hsuffix.length_le
    have hsearch := Nat.le_mul_self m.u32BuffSize
    unfold JpoolMan.fuel at hfuel'
    unfold JpoolMan.searchFuel
    exact searchIframe_live hs (fun b hb => hintact' b (hsuffix.mem hb)) hleft (by omega)
      (by omega) hc
  · have hkeep : keep n x live = keep n x pre ++ r :: post := by
      rw [hlive, keep_append_of_lt (by omega)]
    have hfirst : (keep n x pre ++ r :: post).find? Rec.isIframe = some r := by
      refine List.find?_eq_some_iff_append.2 ⟨hri, keep n x pre, post, rfl, ?_⟩
      intro p hp
      exact hpre p ((keep_suffix n x pre).mem hp)
    rw [hkeep, hfirst] at hc
    obtain rfl := Option.some.inj hc
    have hne : keep n y (r :: post) ≠ [] := by
      rw [keep, if_neg hin]
      exact List.cons_ne_nil _ _
    obtain ⟨p, hp, hrefresh⟩ := @refresh_live m n y m.fuel false r post hs hn hintact'
      hafter hfuel' hne
    rw [hrefresh, decide_eq_false hin, Bool.or_false, Option.bind_some]
    exact ⟨m, rfl, hoi'⟩

/-! ## Over a run -/

/-- The chain of a video pool, with its oldest I frame. -/
structure LiveI (s : Logged) (live : List Rec) (x : Nat) : Prop where
  chain : Live s live x
  video : s.man.u8VideoPool = true
  oldestI : s.man.u32OldestIFramePos = ((live.find? Rec.isIframe).map Rec.pos).getD noPos
  kept : (∃ r ∈ s.log, r.isIframe) → ∃ r ∈ live, r.isIframe

/-- A chain without an I frame, and one with. -/
theorem LiveI.cases {s : Logged} {live : List Rec} {x : Nat} (h : LiveI s live x) :
    (s.man.u32OldestIFramePos = noPos ∧ (∀ r ∈ live, ¬ r.isIframe) ∧ ∀ r ∈ s.log, ¬ r.isIframe) ∨
      ∃ pre r post, live = pre ++ r :: post ∧ (∀ q ∈ pre, ¬ q.isIframe) ∧ r.isIframe ∧
        s.man.u32OldestIFramePos = r.pos := by
  have hoi := h.oldestI
  cases hfind : live.find? Rec.isIframe with
  | none =>
      rw [hfind] at hoi
      have hnone := List.find?_eq_none.1 hfind
      refine .inl ⟨hoi, hnone, ?_⟩
      intro r hr hri
      obtain ⟨q, hq, hqi⟩ := h.kept ⟨r, hr, hri⟩
      exact hnone q hq hqi
  | some r =>
      rw [hfind] at hoi
      obtain ⟨hri, pre, post, hlive, hpre⟩ := List.find?_eq_some_iff_append.1 hfind
      refine .inr ⟨pre, r, post, hlive, ?_, hri, hoi⟩
      intro q hq hqi
      have := hpre q hq
      rw [hqi] at this
      cases this

/-- Refreshing the oldest frame leaves the ring and the oldest I frame alone. -/
theorem avPoolRefreshOldestFramePos_ring {m m' : JpoolMan} {n : Nat}
    (h : m.avPoolRefreshOldestFramePos n = some m') :
    SameRing m m' ∧ m'.u32OldestIFramePos = m.u32OldestIFramePos := by
  obtain ⟨no, pos, pts, rfl⟩ := avPoolRefreshOldestFramePos_eq h
  exact ⟨⟨rfl, rfl, rfl, rfl, rfl⟩, rfl⟩

/-- Freeing in a video pool: the write goes on, to the oldest I frame that is
left. -/
theorem LiveI.freeOldest {s : Logged} {live : List Rec} {x : Nat} {f : Frame}
    (h : LiveI s live x) (hfit : FitsBehind s f) (hkeeps : KeepsIframe s f) :
    ∃ m', (s.man.noteNewest f).freeOldest f.needSize = some m' ∧
      m'.u32OldestIFramePos =
        (((keep f.needSize x live).find? Rec.isIframe).map Rec.pos).getD noPos := by
  obtain ⟨hring, holdest, holdestI, -⟩ := noteNewest_ring s.man f
  by_cases hempty : live = []
  · have hnone : (s.man.noteNewest f).u32OldestFramePos = noPos := by
      rw [holdest, h.chain.oldest, hempty]
      rfl
    rw [JpoolMan.freeOldest, if_neg (not_not.2 hnone)]
    refine ⟨_, rfl, ?_⟩
    rw [holdestI, h.oldestI, hempty]
    rfl
  · obtain ⟨hsome, m₁, hm₁, -⟩ := h.chain.refreshOldest hfit hempty
    obtain ⟨hn, -⟩ := h.chain.keep_ne hfit hempty
    obtain ⟨hring₁, hoi₁⟩ := avPoolRefreshOldestFramePos_ring hm₁
    have hring' := hring.trans hring₁
    have hvideo := hring'.video.trans h.video
    have hoi := hoi₁.trans holdestI
    rw [JpoolMan.freeOldest, if_pos hsome, hm₁, Option.bind_some]
    obtain ⟨hnone, hlive, -⟩ | ⟨pre, r, post, hlive, hpre, hri, hpos⟩ := h.cases
    · rw [if_neg (fun hi => hi.2 (hoi.trans hnone))]
      refine ⟨_, rfl, ?_⟩
      have hleft : (keep f.needSize x live).find? Rec.isIframe = none :=
        List.find?_eq_none.2 fun q hq => hlive q ((keep_suffix _ _ _).mem hq)
      rw [hoi, hnone, hleft]
      rfl
    · have hr : r ∈ live := by
        rw [hlive]
        exact List.mem_append_right _ (List.mem_cons_self ..)
      have hlt := (h.chain.intact r hr).lt
      have hle := h.chain.sized.le
      have hne : m₁.u32OldestIFramePos ≠ noPos := by
        rw [hoi, hpos]
        unfold noPos
        omega
      rw [if_pos ⟨hvideo, hne⟩]
      have hlaid := h.chain.laid
      rw [← hring'.size, ← hring'.write] at hlaid
      have hfuel := h.chain.length_lt
      rw [JpoolMan.fuel, ← hring'.size] at hfuel
      exact refreshOldestI_live (hring'.sized h.chain.sized) (by rwa [hring'.size])
        (fun q hq => hring'.intact (h.chain.intact q hq)) hlaid hfuel
        (h.chain.keep_iframe hkeeps ⟨r, hr, hri⟩) (hoi.trans h.oldestI)

/-- What `noteOldest` makes of the oldest I frame. -/
theorem noteOldest_iframe (m : JpoolMan) (f : Frame) :
    (m.noteOldest f).u32OldestIFramePos =
      if f.nFrameType = avVideoFrameI ∧ m.u8VideoPool ∧ m.u32OldestIFramePos = noPos then
        m.u32WritePos
      else m.u32OldestIFramePos := by
  unfold JpoolMan.noteOldest
  by_cases hpos : m.u32OldestFramePos = noPos
  · simp only [hpos, if_true]
    split <;> rfl
  · simp only [hpos, if_false]
    split <;> rfl

theorem LiveI.write {s t : Logged} {live : List Rec} {x : Nat} {f : Frame} (h : LiveI s live x)
    (hfit : FitsBehind s f) (hkeeps : KeepsIframe s f)
    (hstep : WriteStep s f t) :
    ∃ live' z, LiveI t live' z := by
  obtain ⟨z, hlive⟩ := h.chain.write hfit hstep
  have hvideo := hstep.video.trans h.video
  refine ⟨_, z, hlive, hvideo, ?_, ?_⟩
  · obtain ⟨-, hwrite⟩ := hstep
    obtain ⟨_, hdata, rfl⟩ := Option.map_eq_some_iff.1 hwrite
    obtain ⟨m', hfree, rfl⟩ := Option.map_eq_some_iff.1 hdata
    obtain ⟨m'', hfree', hoi⟩ := h.freeOldest hfit hkeeps
    obtain rfl := Option.some.inj (hfree.symm.trans hfree')
    have hring := (noteNewest_ring s.man f).1.trans (freeOldest_ring hfree).1
    show (m'.noteOldest f).u32OldestIFramePos = _
    rw [noteOldest_iframe, hring.video, hring.write, h.video, hoi, List.find?_append]
    cases hfind : (keep f.needSize x live).find? Rec.isIframe with
    | none =>
        by_cases hfi : f.nFrameType = avVideoFrameI
        · have hnext : (s.man.next f).isIframe := beq_of_eq hfi
          rw [if_pos ⟨hfi, rfl, rfl⟩, List.find?_cons_of_pos hnext]
          rfl
        · have hnext : ¬ (s.man.next f).isIframe := fun hi => hfi (eq_of_beq hi)
          rw [if_neg (fun hi => hfi hi.1), List.find?_cons_of_neg hnext]
          rfl
    | some r =>
        have hr := (keep_suffix _ _ _).mem (List.mem_of_find?_eq_some hfind)
        have hlt := (h.chain.intact r hr).lt
        have hle := h.chain.sized.le
        refine if_neg ?_
        rintro ⟨-, -, hpos⟩
        have hpos' : r.pos = noPos := hpos
        unfold noPos at hpos'
        omega
  · rintro ⟨r, hr, hri⟩
    obtain ⟨-, -⟩ := hstep
    obtain hr | hr := List.mem_append.1 hr
    · obtain ⟨q, hq, hqi⟩ := h.chain.keep_iframe hkeeps (h.kept ⟨r, hr, hri⟩)
      exact ⟨q, List.mem_append_left _ hq, hqi⟩
    · exact ⟨r, List.mem_append_right _ hr, hri⟩

theorem LiveI.returns {s : Logged} {live : List Rec} {x : Nat} {f : Frame} (h : LiveI s live x)
    (haccepts : s.man.Accepts f) (hfit : FitsBehind s f) (hkeeps : KeepsIframe s f) :
    ∃ t, WriteStep s f t := by
  obtain ⟨m', hfree, -⟩ := h.freeOldest hfit hkeeps
  refine WriteStep.of_freeOldest haccepts ?_
  rw [hfree]
  rfl

theorem LiveI.oldestIframeRight {s : Logged} {live : List Rec} {x : Nat} (h : LiveI s live x) :
    OldestIframeRight s := by
  obtain ⟨hnone, -, hlog⟩ | ⟨pre, r, post, rfl, hpre, hri, hpos⟩ := h.cases
  · refine .inl ⟨hnone, ?_⟩
    intro r hr hri
    exact absurd hri (hlog r hr)
  · have hr := h.chain.intact r (List.mem_append_right _ (List.mem_cons_self ..))
    refine .inr ⟨pre, r, post, h.chain.chained ?_, hpre, hri, hr, hpos⟩
    exact List.append_ne_nil_of_right_ne_nil _ (List.cons_ne_nil _ _)

/-- The oldest read goes where the position says. -/
theorem LiveI.oldestReadRight {s : Logged} {live : List Rec} {x : Nat} (h : LiveI s live x) :
    OldestReadRight s := by
  intro a hno hpos
  by_cases hyet : s.man.nothingYet a.u32NeedFrameNo
  · left
    rw [JpoolMan.avPoolReadAvData, if_pos hyet]
  · have hreadPos : s.man.nReadPos a = JpoolMan.posOrNone s.man.u32OldestIFramePos := by
      rw [JpoolMan.nReadPos, hno, hpos, if_neg (by decide), if_pos ⟨rfl, rfl⟩, h.video, if_pos rfl]
    rw [JpoolMan.avPoolReadAvData, if_neg hyet, hreadPos]
    obtain ⟨hnone, -, -⟩ | ⟨pre, r, post, rfl, -, hri, hoi⟩ := h.cases
    · left
      rw [hnone]
      rfl
    · right
      have hmem : r ∈ pre ++ r :: post := List.mem_append_right _ (List.mem_cons_self ..)
      have hr := h.chain.intact r hmem
      have hlt := hr.lt
      have hle := h.chain.sized.le
      have hsize : r.size ≤ s.man.u32BuffSize := h.chain.size_le hmem
      have hposition : JpoolMan.posOrNone s.man.u32OldestIFramePos = some r.pos := by
        rw [hoi]
        refine if_neg ?_
        unfold noPos
        omega
      refine ⟨r, h.chain.suffix.mem hmem, hri, hr, ?_⟩
      rw [hposition]
      simp only
      rw [if_pos hr.isFrame]
      have hcopy := hr.copy h.chain.sized.dvd (h.chain.sized.le.trans (by decide)) hsize a.nBufLen
      by_cases hbuf : a.nBufLen < r.frame.dataLen
      · rw [if_pos hbuf] at hcopy ⊢
        exact hcopy
      · rw [if_neg hbuf] at hcopy ⊢
        obtain ⟨d, hd, hcarries, -⟩ := hcopy
        exact ⟨d, hd, hcarries⟩

/-- A new video pool. -/
theorem liveI_init (size : PoolSize) (mem : ByteFile) :
    LiveI (.init true size mem) [] size.bytes where
  chain := live_init true size mem
  video := rfl
  oldestI := rfl
  kept := by
    rintro ⟨r, hr, -⟩
    cases hr

/-- What a write to a video pool must leave alone: the newest frame and the
newest I frame. -/
def KeepsNewest (s : Logged) (f : Frame) : Prop := FitsBehind s f ∧ KeepsIframe s f

/-- In every run of writes to a video pool that reach neither the newest frame
nor the newest I frame, the oldest I frame is right, a read of it gives an
intact I frame or fails, and each of these writes returns. -/
theorem oldestIframeRight_of_keepsNewest {size : PoolSize} {mem : ByteFile} {fs : List Frame}
    {s : Logged} (hrun : Run (Restrict WriteStep KeepsNewest) (.init true size mem) fs s) :
    OldestIframeRight s ∧ OldestReadRight s ∧
      ∀ f, s.man.Accepts f → KeepsNewest s f → ∃ t, WriteStep s f t := by
  have hlive : ∃ live x, LiveI s live x := hrun.invariant (I := fun s => ∃ live x, LiveI s live x)
    (fun ⟨_, _, h⟩ hstep => h.write hstep.2.1 hstep.2.2 hstep.1) ⟨_, _, liveI_init size mem⟩
  obtain ⟨live, x, h⟩ := hlive
  refine ⟨h.oldestIframeRight, h.oldestReadRight, ?_⟩
  intro f haccepts hkeeps
  exact h.returns haccepts hkeeps.1 hkeeps.2

/-! ## Two laps -/

instance (s : Logged) (f : Frame) : Decidable (KeepsIframe s f) :=
  inferInstanceAs (Decidable (∀ rs ∈ s.log.tails, _))

instance (s : Logged) (f : Frame) : Decidable (KeepsNewest s f) :=
  inferInstanceAs (Decidable (_ ∧ _))

/-- Writing by execution, where the newest I frame is left alone. -/
def Logged.execKeeps (s : Logged) (f : Frame) : Option Logged :=
  if KeepsNewest s f then s.exec f else none

theorem Logged.execKeeps_step {s t : Logged} {f : Frame} (h : s.execKeeps f = some t) :
    Restrict WriteStep KeepsNewest s f t := by
  rw [execKeeps] at h
  split at h
  · next hkeeps => exact ⟨exec_writeStep h, hkeeps⟩
  · cases h

/-- `AV_VIDEO_FRAME_P`. -/
def avVideoFrameP : UInt8 := 0x8

/-- Two I frames with another behind each, and the second lap takes the first
of them. -/
theorem oldestIframeRight_of_keepsNewest_lap :
    ∃ s, Run (Restrict WriteStep KeepsNewest) (.init true poolSize512 fun _ => 0)
        ([avVideoFrameI, avVideoFrameP, avVideoFrameI, avVideoFrameP, avVideoFrameP].map
          (pieceFrame · (List.replicate 64 1))) s ∧ OldestIframeRight s := by
  have hexec : (([avVideoFrameI, avVideoFrameP, avVideoFrameI, avVideoFrameP, avVideoFrameP].map
      (pieceFrame · (List.replicate 64 1))).foldlM Logged.execKeeps
        (.init true poolSize512 fun _ => 0)).isSome := by decide +kernel
  obtain ⟨s, hs⟩ := Option.isSome_iff_exists.1 hexec
  have hrun := Run.of_foldlM Logged.execKeeps_step hs
  exact ⟨s, hrun, (oldestIframeRight_of_keepsNewest hrun).1⟩

/-- A read of the oldest I frame. -/
def oldestArgs : ReadArgs := ⟨1024, 1, 0xFFFFFFFF, noPos, 1000⟩

/-- The type of the frame that is read. -/
def ReadResult.type : ReadResult → Option UInt32
  | .frame d => some d.u32IFrame
  | _ => none

/-- An I frame at the beginning of the ring and others behind it: the fifth
frame is to take its place, and the search for the next I frame comes around to
it while it still stands there. A read of the oldest I frame is given the fifth
frame. -/
theorem not_oldestIframeRight :
    ¬ ∀ (size : PoolSize) (mem : ByteFile) (fs : List Frame) (s : Logged),
      Run WriteStep (.init true size mem) fs s → OldestIframeRight s ∧ OldestReadRight s := by
  intro h
  have hexec : (([avVideoFrameI, avVideoFrameP, avVideoFrameP, avVideoFrameP, avVideoFrameP].map
      (pieceFrame · (List.replicate 64 1))).foldlM Logged.exec
        (.init true poolSize512 fun _ => 0)).bind
          (fun s => (s.man.avPoolReadAvData oldestArgs).type) =
      some avVideoFrameP.toUInt32 := by decide +kernel
  obtain ⟨s, hs, htype⟩ := Option.bind_eq_some_iff.1 hexec
  obtain ⟨-, hread⟩ := h _ _ _ s (Run.of_foldlM Logged.exec_writeStep hs)
  obtain hagain | ⟨r, -, hri, -, hgiven⟩ := hread oldestArgs rfl rfl
  · rw [hagain] at htype
    cases htype
  · split at hgiven
    · rw [hgiven] at htype
      cases htype
    · obtain ⟨d, hd, hcarries⟩ := hgiven
      rw [hd] at htype
      have hd' : d.u32IFrame = avVideoFrameP.toUInt32 := Option.some.inj htype
      rw [hcarries.type, eq_of_beq hri] at hd'
      exact absurd hd' (by decide)

end Nvr.AvPool
