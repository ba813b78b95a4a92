import Mathlib.Data.Nat.Find
import Nvr.Proofs.FrameStream
import Nvr.Storage.BasketScan

/-!
# What the scan of a fragment recovers

`strg_basket_scan_iframe` walks the index records of a fragment. Each record is
measured against the first one, not against the one before it, so a fragment is
recovered only as far as it stays within ten seconds and 200 frame numbers of
its own beginning.

`GopRun` describes the index a recording leaves behind: records close to their
neighbours, and then a slot that does not count. The walk over it never runs
out of rounds, because every slot it reads lies in the file.
-/

namespace Nvr.Storage

/-- The index of a fragment that was being written: `recs`, each close to the
one before it, and then a slot that is invalid or of another generation. -/
structure GopRun (dev : Dev) (idx : Nat) (bf : BasketFragment) (recs : List BasketIFrame) :
    Prop where
  writing : bf.status &&& useStatusWriting ≠ 0
  iframeNum : bf.iframeNum = 0
  fragmentSize : bf.fragmentSize = 0
  count : 2 ≤ recs.length
  reads : ∀ j (h : j < recs.length),
    strgBasketReadIframe dev idx (bf.firstIframeIdx + Int32.ofNat j) = some recs[j]
  useCnt : ∀ r ∈ recs, r.useCnt = bf.useCnt
  begin : ∀ r, recs.head? = some r →
    bf.beginTime.toInt ≤ r.ts.tvSec.toInt ∧ r.ts.tvSec.toInt ≤ bf.beginTime.toInt + 10
  frameNo : ∀ j (h : j + 1 < recs.length), recs[j].frameNo.toInt < recs[j + 1].frameNo.toInt ∧
    recs[j + 1].frameNo.toInt ≤ recs[j].frameNo.toInt + 200
  tvSec : ∀ j (h : j + 1 < recs.length), recs[j].ts.tvSec.toInt ≤ recs[j + 1].ts.tvSec.toInt ∧
    recs[j + 1].ts.tvSec.toInt ≤ recs[j].ts.tvSec.toInt + 10
  stop : ∀ r, strgBasketReadIframe dev idx (bf.firstIframeIdx + Int32.ofNat recs.length) =
    some r → r.useCnt ≠ bf.useCnt

/-- The scan recovers everything up to the last record. -/
def RecoversAll (dev : Dev) (idx : Nat) (bf : BasketFragment) (recs : List BasketIFrame) : Prop :=
  ∃ bf' first last, recs.head? = some first ∧ recs.getLast? = some last ∧
    strgBasketScanIframe dev idx bf = some bf' ∧
    bf'.iframeNum = Int32.ofNat (recs.length - 1) ∧
    bf'.fragmentSize = last.framePos - first.framePos ∧ bf'.endTime = last.ts.tvSec

/-- The last record is within ten seconds and 200 frame numbers of the first. -/
def WithinFirst (recs : List BasketIFrame) : Prop :=
  ∀ first last, recs.head? = some first → recs.getLast? = some last →
    last.ts.tvSec.toInt ≤ first.ts.tvSec.toInt + 10 ∧
    last.frameNo.toInt ≤ first.frameNo.toInt + 200

/-! ## Slots in the file -/

theorem iframeOft_add_one {ifIdx : Int32} (h : iframeOft ifIdx + basketIframeLen < 2 ^ 32) :
    iframeOft (ifIdx + 1) = iframeOft ifIdx + basketIframeLen := by
  have hlen : (UInt32.ofNat basketIframeLen).toNat = basketIframeLen := rfl
  have heq : UInt32.ofNat basketIframeOft + UInt32.ofNat basketIframeLen *
      (ifIdx + 1).toUInt32 = (UInt32.ofNat basketIframeOft +
        UInt32.ofNat basketIframeLen * ifIdx.toUInt32) + UInt32.ofNat basketIframeLen := by
    rw [Int32.toUInt32_add, UInt32.mul_add, UInt32.add_assoc]
    rfl
  unfold iframeOft at h ⊢
  rw [heq, UInt32.toNat_add_of_lt' (by rw [hlen]; exact h), hlen]

/-- A record that was read lies inside the file. -/
theorem strgBasketReadIframe_inside {dev : Dev} {idx : Nat} {ifIdx : Int32} {r : BasketIFrame}
    (h : strgBasketReadIframe dev idx ifIdx = some r) :
    iframeOft ifIdx + basketIframeLen ≤ basketSize := by
  unfold strgBasketReadIframe strgRead at h
  split at h
  · next hin => exact hin.2
  · simp at h

theorem ofNat_succ_assoc (a : Int32) (j : Nat) :
    a + Int32.ofNat (j + 1) = a + Int32.ofNat j + 1 := by
  rw [Int32.ofNat_add, ← Int32.add_assoc]
  rfl

/-- A run of records that can be read is no longer than the file has room for. -/
theorem run_length_le {dev : Dev} {idx : Nat} {first : Int32} {recs : List BasketIFrame}
    (h : ∀ j (h : j < recs.length),
      strgBasketReadIframe dev idx (first + Int32.ofNat j) = some recs[j]) :
    recs.length < scanRounds := by
  have hoft : ∀ j, j < recs.length →
      iframeOft (first + Int32.ofNat j) = iframeOft first + basketIframeLen * j := by
    intro j
    induction j with
    | zero =>
        intro _
        show iframeOft (first + 0) = _
        rw [Int32.add_zero, Nat.mul_zero, Nat.add_zero]
    | succ j ih =>
        intro hj
        have hin := strgBasketReadIframe_inside (h j (by omega))
        have hsize : basketSize < 2 ^ 32 := by decide
        rw [ofNat_succ_assoc, iframeOft_add_one (by omega), ih (by omega), Nat.mul_add,
          Nat.mul_one, Nat.add_assoc]
  by_cases hzero : recs.length = 0
  · rw [hzero]
    decide
  · have hin := strgBasketReadIframe_inside (h (recs.length - 1) (by omega))
    rw [hoft _ (by omega)] at hin
    have hrounds : scanRounds = 24403224 := rfl
    rw [hrounds]
    unfold basketSize basketIframeLen at hin
    omega

/-! ## The walk -/

section Walk

variable {dev : Dev} {idx : Nat} {bf : BasketFragment} {recs : List BasketIFrame}

/-- The walk counts the records before place `m` and stops there. -/
theorem scanIframes_walk {bif₁ : BasketIFrame} {m : Nat} (hm : m ≤ recs.length)
    (hreads : ∀ j (h : j < m),
      strgBasketReadIframe dev idx (bf.firstIframeIdx + Int32.ofNat j) = some recs[j])
    (haccepts : ∀ j (h : j < m), 1 ≤ j → scanAccepts bf bif₁ recs[j] = true)
    (hstop : ∀ r, strgBasketReadIframe dev idx (bf.firstIframeIdx + Int32.ofNat m) = some r →
      scanAccepts bf bif₁ r = false) :
    ∀ (d n fuel : Nat) (h : n < m), n + 1 + d = m → d < fuel →
      scanIframes dev idx bf bif₁ fuel (Int32.ofNat n) (Int32.ofNat (n + 1)) recs[n] =
        (Int32.ofNat (m - 1), recs[m - 1]) := by
  intro d
  induction d with
  | zero =>
      intro n fuel h hd hfuel
      obtain ⟨fuel, rfl⟩ : ∃ k, fuel = k + 1 := ⟨fuel - 1, by omega⟩
      obtain rfl : m = n + 1 := by omega
      rw [scanIframes]
      split
      · rfl
      · next r hr =>
          rw [hstop r hr]
          rfl
  | succ d ih =>
      intro n fuel h hd hfuel
      obtain ⟨fuel, rfl⟩ : ∃ k, fuel = k + 1 := ⟨fuel - 1, by omega⟩
      rw [scanIframes, hreads (n + 1) (by omega)]
      simp only [haccepts (n + 1) (by omega) (by omega), if_true]
      have hnum : Int32.ofNat n + 1 = Int32.ofNat (n + 1) := (Int32.ofNat_add n 1).symm
      have hbif : Int32.ofNat (n + 1) + 1 = Int32.ofNat (n + 1 + 1) :=
        (Int32.ofNat_add (n + 1) 1).symm
      rw [hnum, hbif]
      exact ih (n + 1) fuel (by omega) (by omega) (by omega)

/-- What the scan makes of a run that it counts up to place `m`. -/
theorem strgBasketScanIframe_walk (h : GopRun dev idx bf recs) {first : BasketIFrame}
    {tail : List BasketIFrame} (hrecs : recs = first :: tail) {m : Nat} (hpos : 1 ≤ m)
    (hm : m ≤ recs.length)
    (haccepts : ∀ j (h : j < m), 1 ≤ j → scanAccepts bf first recs[j] = true)
    (hstop : ∀ r, strgBasketReadIframe dev idx (bf.firstIframeIdx + Int32.ofNat m) = some r →
      scanAccepts bf first r = false) :
    strgBasketScanIframe dev idx bf =
      if m = 1 then none
      else some (bf.recovered (Int32.ofNat (m - 1)) first recs[m - 1]) := by
  subst hrecs
  have hfirst : strgBasketReadIframe dev idx bf.firstIframeIdx = some first := by
    have hread := h.reads 0 (by simp)
    have hzero : bf.firstIframeIdx + Int32.ofNat 0 = bf.firstIframeIdx := by
      show bf.firstIframeIdx + 0 = _
      rw [Int32.add_zero]
    rw [hzero] at hread
    exact hread
  have hrounds := run_length_le h.reads
  have hsize : scanRounds = 24403224 := rfl
  have hwalk := scanIframes_walk hm (fun j hj => h.reads j (by omega)) haccepts hstop
    (m - 1) 0 scanRounds (by omega) (by omega) (by omega)
  have huse : ¬first.useCnt ≠ bf.useCnt := not_not.2 (h.useCnt first List.mem_cons_self)
  have hbegin := h.begin first rfl
  have hlt := first.ts.tvSec.toInt_lt
  have hle := first.ts.tvSec.le_toInt
  have hsub : (first.ts.tvSec - bf.beginTime).toInt =
      first.ts.tvSec.toInt - bf.beginTime.toInt :=
    Int32.toInt_sub_of_range (by omega) (by omega)
  have htime : ¬(first.ts.tvSec - bf.beginTime < 0 ∨ first.ts.tvSec - bf.beginTime > 10) := by
    have hzero : (0 : Int32).toInt = 0 := rfl
    have hten : (10 : Int32).toInt = 10 := rfl
    rw [gt_iff_lt, Int32.lt_iff_toInt_lt, Int32.lt_iff_toInt_lt, hsub, hzero, hten]
    omega
  have hnum : (Int32.ofNat (m - 1) = 0) ↔ m = 1 := by
    rw [← Int32.toInt_inj, Int32.toInt_ofNat_of_lt (by omega)]
    show ((m - 1 : Nat) : Int) = 0 ↔ _
    omega
  unfold strgBasketScanIframe
  rw [if_neg h.writing, hfirst]
  simp only [if_neg huse, if_neg htime]
  have hstart : scanIframes dev idx bf first scanRounds 0 1 first =
      (Int32.ofNat (m - 1), (first :: tail)[m - 1]) := hwalk
  simp only [hstart, hnum]

end Walk

/-! ## How far the first record reaches -/

/-- Sums of the steps between neighbours: a later record is no earlier than a
former one, in time and in number. -/
theorem GopRun.monotone {dev : Dev} {idx : Nat} {bf : BasketFragment}
    {recs : List BasketIFrame} (h : GopRun dev idx bf recs) {i : Nat} :
    ∀ {j : Nat} (hij : i ≤ j) (hj : j < recs.length),
      recs[i].ts.tvSec.toInt ≤ recs[j].ts.tvSec.toInt ∧
        recs[i].frameNo.toInt + (j - i : Nat) ≤ recs[j].frameNo.toInt := by
  intro j hij
  induction j, hij using Nat.le_induction with
  | base =>
      intro _
      simp
  | succ j hij ih =>
      intro hj
      obtain ⟨hts, hno⟩ := ih (by omega)
      have hstep := h.frameNo j hj
      have htime := h.tvSec j hj
      refine ⟨by omega, ?_⟩
      have hsub : j + 1 - i = (j - i) + 1 := by omega
      rw [hsub]
      push_cast
      omega

theorem scanAccepts_iff (bf : BasketFragment) {first r : BasketIFrame}
    (huse : r.useCnt = bf.useCnt) (hts : first.ts.tvSec.toInt ≤ r.ts.tvSec.toInt)
    (hno : first.frameNo.toInt < r.frameNo.toInt)
    (hnear : r.frameNo.toInt ≤ first.frameNo.toInt + 400) :
    scanAccepts bf first r = true ↔ r.ts.tvSec.toInt ≤ first.ts.tvSec.toInt + 10 ∧
      r.frameNo.toInt ≤ first.frameNo.toInt + 200 := by
  have hzero : (0 : Int32).toInt = 0 := rfl
  have hten : (10 : Int32).toInt = 10 := rfl
  have htwo : (200 : Int32).toInt = 200 := rfl
  have hsubNo : (r.frameNo ≤ first.frameNo ∨ r.frameNo - first.frameNo > 200) ↔
      ¬r.frameNo.toInt ≤ first.frameNo.toInt + 200 := by
    rw [gt_iff_lt, Int32.le_iff_toInt_le, Int32.lt_iff_toInt_lt, htwo,
      Int32.toInt_sub_of_range (by omega) (by omega)]
    omega
  have hlt := r.ts.tvSec.toInt_lt
  have hge := first.ts.tvSec.le_toInt
  -- the difference of the seconds may wrap, but then it comes out negative
  have hsubTs : (r.ts.tvSec - first.ts.tvSec < 0 ∨ r.ts.tvSec - first.ts.tvSec > 10) ↔
      ¬r.ts.tvSec.toInt ≤ first.ts.tvSec.toInt + 10 := by
    rw [gt_iff_lt, Int32.lt_iff_toInt_lt, Int32.lt_iff_toInt_lt, hzero, hten, Int32.toInt_sub]
    by_cases hwrap : r.ts.tvSec.toInt - first.ts.tvSec.toInt < 2 ^ 31
    · rw [Int.bmod_eq_of_le (by omega) (by omega)]
      omega
    · rw [Int.bmod_def]
      have hmod : (r.ts.tvSec.toInt - first.ts.tvSec.toInt) % ((2 ^ 32 : Nat) : Int) =
          r.ts.tvSec.toInt - first.ts.tvSec.toInt := Int.emod_eq_of_lt (by omega) (by omega)
      rw [hmod]
      split <;> omega
  unfold scanAccepts
  rw [if_neg (not_not.2 huse)]
  simp only [hsubTs, hsubNo]
  split
  · next hfar => simp [hfar]
  · next hnearTs =>
      split
      · next hfar => simp [hfar]
      · next hnearNo => simp [not_not.1 hnearTs, not_not.1 hnearNo]

theorem scanAccepts_of_useCnt_ne {bf : BasketFragment} {first r : BasketIFrame}
    (h : r.useCnt ≠ bf.useCnt) : scanAccepts bf first r = false := if_pos h

section Stop

variable {dev : Dev} {idx : Nat} {bf : BasketFragment} {recs : List BasketIFrame}

/-- As far as the records are accepted they are within reach of the first. -/
theorem GopRun.accepted_within (h : GopRun dev idx bf recs) (hpos : 0 < recs.length) {m : Nat}
    (hm : m ≤ recs.length)
    (haccepts : ∀ j (h : j < m), 1 ≤ j → scanAccepts bf recs[0] recs[j] = true) :
    ∀ j (h : j < m), recs[j].ts.tvSec.toInt ≤ recs[0].ts.tvSec.toInt + 10 ∧
      recs[j].frameNo.toInt ≤ recs[0].frameNo.toInt + 200 := by
  intro j
  induction j with
  | zero =>
      intro _
      omega
  | succ j ih =>
      intro hj
      have hprev := ih (by omega)
      have hstep := h.frameNo j (by omega)
      have hmono := h.monotone (Nat.zero_le (j + 1)) (by omega)
      refine (scanAccepts_iff bf (h.useCnt _ (List.getElem_mem _)) hmono.1 ?_ ?_).1
        (haccepts (j + 1) hj (by omega))
      · have := hmono.2
        omega
      · omega

/-- The place where the walk stops: the first record too far from the first
one, or the end of the run. -/
theorem GopRun.stops (h : GopRun dev idx bf recs) (hpos : 0 < recs.length) :
    ∃ m, 1 ≤ m ∧ ∃ hm : m ≤ recs.length,
      (∀ j (h : j < m), 1 ≤ j → scanAccepts bf recs[0] recs[j] = true) ∧
      (∀ r, strgBasketReadIframe dev idx (bf.firstIframeIdx + Int32.ofNat m) = some r →
        scanAccepts bf recs[0] r = false) ∧
      (m = recs.length ↔ WithinFirst recs) := by
  have hhead : recs.head? = some recs[0] := List.head?_eq_getElem?.trans (by simp)
  have hlast : recs.getLast? = some recs[recs.length - 1] :=
    List.getLast?_eq_getElem?.trans (by simp)
  by_cases hbad : ∃ j, ∃ h : j < recs.length, 1 ≤ j ∧ scanAccepts bf recs[0] recs[j] = false
  · have hspec := Nat.find_spec hbad
    have hmin := fun j => Nat.find_min hbad (m := j)
    generalize Nat.find hbad = m at hspec hmin
    obtain ⟨hm, hone, hreject⟩ := hspec
    refine ⟨m, hone, by omega, ?_, ?_, ?_⟩
    · intro j hj hj1
      by_contra hne
      exact hmin j hj ⟨by omega, hj1, Bool.eq_false_iff.2 hne⟩
    · intro r hr
      obtain rfl := Option.some.inj ((h.reads m hm).symm.trans hr)
      exact hreject
    · refine ⟨fun hend => absurd hend (by omega), fun hwithin => ?_⟩
      -- a record before a last one within reach is within reach itself
      obtain ⟨hts, hno⟩ := hwithin _ _ hhead hlast
      have hfirst := h.monotone (Nat.zero_le m) hm
      have hrest := h.monotone (show m ≤ recs.length - 1 by omega) (by omega)
      have haccept := (scanAccepts_iff bf (h.useCnt _ (List.getElem_mem hm)) hfirst.1
        (by omega) (by omega)).2 ⟨by omega, by omega⟩
      rw [hreject] at haccept
      cases haccept
  · have haccepts : ∀ j (h : j < recs.length), 1 ≤ j → scanAccepts bf recs[0] recs[j] = true := by
      intro j hj hj1
      by_contra hne
      exact hbad ⟨j, hj, hj1, Bool.eq_false_iff.2 hne⟩
    refine ⟨recs.length, hpos, Nat.le_refl _, haccepts, ?_, ?_⟩
    · exact fun r hr => scanAccepts_of_useCnt_ne (h.stop r hr)
    · refine ⟨fun _ first last hf hl => ?_, fun _ => rfl⟩
      obtain rfl := Option.some.inj (hhead.symm.trans hf)
      obtain rfl := Option.some.inj (hlast.symm.trans hl)
      exact h.accepted_within hpos (Nat.le_refl _) haccepts _ (by omega)

end Stop

/-- The scan recovers a fragment up to its last record if and only if the whole
run is within ten seconds and 200 frame numbers of its first record. -/
theorem recoversAll_iff {dev : Dev} {idx : Nat} {bf : BasketFragment}
    {recs : List BasketIFrame} (h : GopRun dev idx bf recs) :
    RecoversAll dev idx bf recs ↔ WithinFirst recs := by
  have hcount := h.count
  have hpos : 0 < recs.length := by omega
  have hrounds := run_length_le h.reads
  have hsize : scanRounds = 24403224 := rfl
  obtain ⟨m, hone, hm, haccepts, hstop, hend⟩ := h.stops hpos
  have hhead : recs.head? = some recs[0] := List.head?_eq_getElem?.trans (by simp)
  have hlast : recs.getLast? = some recs[recs.length - 1] :=
    List.getLast?_eq_getElem?.trans (by simp)
  obtain ⟨first, tail, hrecs⟩ := List.exists_cons_of_length_pos hpos
  have hzero : recs[0] = first := by simp [hrecs]
  have hscan := strgBasketScanIframe_walk h hrecs hone hm (hzero ▸ haccepts) (hzero ▸ hstop)
  rw [← hend]
  constructor
  · rintro ⟨bf', _, _, _, _, hbf', hnum, _, _⟩
    rw [hscan] at hbf'
    split at hbf'
    · cases hbf'
    · obtain rfl := Option.some.inj hbf'
      have hnum' := congrArg Int32.toInt hnum
      simp only [BasketFragment.recovered] at hnum'
      rw [Int32.toInt_ofNat_of_lt (by omega), Int32.toInt_ofNat_of_lt (by omega)] at hnum'
      omega
  · rintro rfl
    rw [if_neg (by omega)] at hscan
    exact ⟨_, _, _, hzero ▸ hhead, hlast, hscan, rfl, rfl, rfl⟩

/-- An I-frame every six seconds, 150 frames apart. -/
def steadyRun : List BasketIFrame :=
  [⟨basketIframeMagic, 1, 1, 67174440, ⟨1000, 0⟩⟩,
    ⟨basketIframeMagic, 1, 151, 67200000, ⟨1006, 0⟩⟩,
    ⟨basketIframeMagic, 1, 301, 67230000, ⟨1012, 0⟩⟩]

/-- A disk whose first basket has these records in its first slots. -/
def devWithIndex (recs : List BasketIFrame) : Dev :=
  recs.zipIdx.foldl (fun dev r => dev.putIframe 0 r.1 (Int32.ofNat r.2)) .blank

/-- A fragment of generation 1 cut off while it was being written. -/
def cutFragment : BasketFragment where
  magic := basketFragmentMagic
  status := useStatusWriting
  useCnt := 1
  beginTime := 1000
  endTime := 1000
  totalFrameCnt := 0
  firstIframeIdx := 0
  iframeNum := 0
  beginFramePos := 67174440
  fragmentSize := 0
  recordType := recordVideo

theorem gopRun_steadyRun : GopRun (devWithIndex steadyRun) 0 cutFragment steadyRun where
  writing := by decide
  iframeNum := rfl
  fragmentSize := rfl
  count := by decide
  reads := by decide +kernel
  useCnt := by decide
  begin r hr := by
    obtain rfl := Option.some.inj hr
    decide
  frameNo
    | 0, _ => by
        simp only [steadyRun, List.getElem_cons_zero, List.getElem_cons_succ]
        decide
    | 1, _ => by
        simp only [steadyRun, List.getElem_cons_zero, List.getElem_cons_succ]
        decide
    | j + 2, h => absurd h (by
        show ¬j + 3 < 3
        omega)
  tvSec
    | 0, _ => by
        simp only [steadyRun, List.getElem_cons_zero, List.getElem_cons_succ]
        decide
    | 1, _ => by
        simp only [steadyRun, List.getElem_cons_zero, List.getElem_cons_succ]
        decide
    | j + 2, h => absurd h (by
        show ¬j + 3 < 3
        omega)
  stop r hr := by
    have hnone : strgBasketReadIframe (devWithIndex steadyRun) 0
        (cutFragment.firstIframeIdx + Int32.ofNat steadyRun.length) = none := by decide +kernel
    rw [hnone] at hr
    cases hr

theorem recoversAll_steadyRun :
    RecoversAll (devWithIndex steadyRun) 0 cutFragment steadyRun ↔ WithinFirst steadyRun :=
  recoversAll_iff gopRun_steadyRun

/-- The third record of a steady recording is already out of reach of the
first, and the group of pictures before it is lost with it. -/
theorem steadyRun_not_recovered :
    GopRun (devWithIndex steadyRun) 0 cutFragment steadyRun ∧
      ¬RecoversAll (devWithIndex steadyRun) 0 cutFragment steadyRun := by
  refine ⟨gopRun_steadyRun, ?_⟩
  rintro ⟨bf', _, _, _, _, hbf', hnum, _, _⟩
  have hscan : (strgBasketScanIframe (devWithIndex steadyRun) 0 cutFragment).map
      (fun bf => bf.iframeNum) = some 1 := by decide +kernel
  rw [hbf', Option.map_some, hnum] at hscan
  exact absurd (Option.some.inj hscan) (by decide)

end Nvr.Storage
