import Nvr.Lib.Floor
import Nvr.Proofs.GopSteps

/-!
# Seeking by time

The search begins at a guess between the first record and the last and walks
from there, towards later records or earlier ones, until the seconds of two
records have the time between them. The walk is right from any slot of the
range; whether the guess is one is a matter of a product of two `int`s.
-/

namespace Nvr.Storage

open ByteFile

/-- The records of a session's range, which is in the index table, as they are in
the file. -/
structure Indexed (dev : Dev) (file : Nat) (bri : BasketReadInfo) (records : List BasketIFrame) :
    Prop where
  first_nonneg : 0 ≤ bri.beginIframeIdx.toInt
  length : records.length = bri.iframeNum.toInt.toNat
  inTable : bri.beginIframeIdx.toInt + records.length ≤ basketIframeNum
  magic : ∀ r ∈ records, r.magic = basketIframeMagic
  holds : ∀ j r, records[j]? = some r → Holds (dev.file (.basket file))
    (slotOft (bri.beginIframeIdx.toInt + (j : Nat))) (BasketIFrame.format.encode r)

/-- The seconds of the records. -/
def secondsOf (records : List BasketIFrame) : List Int := records.map (·.ts.tvSec.toInt)

/-- The cursor is at a record of the range with the largest second that is not
after `t`, or at the first one if all of them are later. -/
def AtTime (records : List BasketIFrame) (t : Int32) (bri bri' : BasketReadInfo) : Prop :=
  ∃ (j : Nat) (r : BasketIFrame) (slot : Int32), records[j]? = some r ∧
    slot.toInt = bri.beginIframeIdx.toInt + j ∧ bri' = bri.moveTo slot r ∧
    (FloorAt (secondsOf records) t.toInt j r.ts.tvSec.toInt ∨
      j = 0 ∧ ∀ sec ∈ secondsOf records, t.toInt < sec)

/-- A slot of the range. -/
def SlotOf (bri : BasketReadInfo) (slot : Int32) : Prop :=
  bri.beginIframeIdx.toInt ≤ slot.toInt ∧
    slot.toInt < bri.beginIframeIdx.toInt + bri.iframeNum.toInt

/-- Every slot that is probed is in the range, and a success positions the cursor
at the time. -/
structure SetRight (dev : Dev) (bgi : BasketGlobalInfo) (bri : BasketReadInfo)
    (records : List BasketIFrame) (t : Int32) : Prop where
  probes : ∀ slot ∈ strgBasketReadSetSlots dev bgi bri t, SlotOf bri slot
  lands : (strgBasketReadSet dev bgi bri t).1 = true →
    AtTime records t bri (strgBasketReadSet dev bgi bri t).2

/-- The guess for a time between two times, `steps` records apart: the product of
the way and the steps, as an `int`, does not take it before the first record. -/
def Guessed (b e t steps : Int) : Prop :=
  e ≤ b ∨ b + 2 ^ 31 ≤ e ∨ b - e < ((t - b) * steps).bmod (2 ^ 32)

instance (b e t steps : Int) : Decidable (Guessed b e t steps) :=
  inferInstanceAs (Decidable (_ ∨ _ ∨ _))

/-- There are records, and the guess for the time is one of them. -/
def Guessable (records : List BasketIFrame) (t : Int32) : Prop :=
  ∃ first ∈ records.head?, ∃ last ∈ records.getLast?,
    Guessed first.ts.tvSec.toInt last.ts.tvSec.toInt
      (clampTime first.ts.tvSec last.ts.tvSec t).toInt (records.length - 1)

section Range

variable {dev : Dev} {file : Nat} {bri : BasketReadInfo} {records : List BasketIFrame}

/-- A read of a record of the range either fails or gives it. -/
theorem Indexed.read (hi : Indexed dev file bri records) {slot : Int32} {j : Nat}
    {r : BasketIFrame} (hslot : slot.toInt = bri.beginIframeIdx.toInt + j)
    (hr : records[j]? = some r) :
    strgBasketReadIframe dev file slot = none ∨ strgBasketReadIframe dev file slot = some r := by
  have hlt := (List.getElem?_eq_some_iff.1 hr).1
  have h0 := hi.first_nonneg
  have hmax := hi.inTable
  have hholds := hi.holds j r hr
  rw [← hslot] at hholds
  exact strgBasketReadIframe_cases (hi.magic r (List.mem_of_getElem? hr)) (by omega) (by omega)
    hholds

theorem Indexed.read_reliable (hi : Indexed dev file bri records) (henv : dev.env.Reliable)
    {slot : Int32} {j : Nat} {r : BasketIFrame}
    (hslot : slot.toInt = bri.beginIframeIdx.toInt + j) (hr : records[j]? = some r) :
    strgBasketReadIframe dev file slot = some r := by
  have hlt := (List.getElem?_eq_some_iff.1 hr).1
  have h0 := hi.first_nonneg
  have hmax := hi.inTable
  have hholds := hi.holds j r hr
  rw [← hslot] at hholds
  exact strgBasketReadIframe_holds henv (hi.magic r (List.mem_of_getElem? hr)) (by omega)
    (by omega) hholds

theorem Indexed.num (hi : Indexed dev file bri records) (hne : records ≠ []) :
    bri.iframeNum.toInt = records.length := by
  have hlen := hi.length
  have hpos := List.length_pos_of_ne_nil hne
  omega

/-- The end of the range, and its last slot. -/
theorem Indexed.ends (hi : Indexed dev file bri records) (hne : records ≠ []) :
    (bri.beginIframeIdx + bri.iframeNum).toInt = bri.beginIframeIdx.toInt + records.length ∧
      (bri.beginIframeIdx + bri.iframeNum - 1).toInt =
        bri.beginIframeIdx.toInt + (records.length - 1 : Nat) := by
  have h0 := hi.first_nonneg
  have hmax := hi.inTable
  have hnum := hi.num hne
  have hpos := List.length_pos_of_ne_nil hne
  have hone : (1 : Int32).toInt = 1 := rfl
  rw [basketIframeNum_eq] at hmax
  have hend : (bri.beginIframeIdx + bri.iframeNum).toInt =
      bri.beginIframeIdx.toInt + records.length := by
    rw [Int32.toInt_add_of_range (by omega) (by omega), hnum]
  refine ⟨hend, ?_⟩
  rw [Int32.toInt_sub_of_range (by omega) (by omega), hend, hone]
  omega

theorem Indexed.slotOf (hi : Indexed dev file bri records) {slot : Int32} {j : Nat}
    (hslot : slot.toInt = bri.beginIframeIdx.toInt + j) (hj : j < records.length) :
    SlotOf bri slot := by
  have hlen := hi.length
  unfold SlotOf
  omega

theorem Indexed.place (hi : Indexed dev file bri records) (hne : records ≠ []) {slot : Int32}
    (hslot : SlotOf bri slot) :
    ∃ j : Nat, slot.toInt = bri.beginIframeIdx.toInt + j ∧ j < records.length := by
  have hnum := hi.num hne
  unfold SlotOf at hslot
  exact ⟨(slot.toInt - bri.beginIframeIdx.toInt).toNat, by omega, by omega⟩

theorem secondsOf_get {j : Nat} {r : BasketIFrame} (hr : records[j]? = some r) :
    (secondsOf records)[j]? = some r.ts.tvSec.toInt := by
  unfold secondsOf
  rw [List.getElem?_map, hr]
  rfl

/-! ## The walk -/

/-- What a walk keeps: it probes slots of the range, and it ends at the floor. -/
structure Walks (records : List BasketIFrame) (t : Int32) (bri : BasketReadInfo)
    (slots : List Int32) (moved : Moved) : Prop where
  probes : ∀ slot ∈ slots, SlotOf bri slot
  lands : moved.1 = true → ∃ (j : Nat) (r : BasketIFrame) (slot : Int32),
    records[j]? = some r ∧ slot.toInt = bri.beginIframeIdx.toInt + j ∧
    moved.2 = bri.moveTo slot r ∧ FloorAt (secondsOf records) t.toInt j r.ts.tvSec.toInt

theorem walks_fail {t : Int32} : Walks records t bri [] (false, bri) :=
  ⟨fun _ h => (List.not_mem_nil h).elim, fun h => (by cases h)⟩

theorem Walks.cons {t : Int32} {slots : List Int32} {moved : Moved} {slot : Int32}
    (h : Walks records t bri slots moved) (hslot : SlotOf bri slot) :
    Walks records t bri (slot :: slots) moved := by
  refine ⟨fun s hs => ?_, h.lands⟩
  rcases List.mem_cons.1 hs with rfl | hs
  · exact hslot
  · exact h.probes s hs

theorem walks_moveTo {t : Int32} {j : Nat} {r : BasketIFrame} {slot : Int32}
    (hr : records[j]? = some r) (hslot : slot.toInt = bri.beginIframeIdx.toInt + j)
    (hfloor : FloorAt (secondsOf records) t.toInt j r.ts.tvSec.toInt) :
    Walks records t bri [] (true, bri.moveTo slot r) :=
  ⟨fun _ h => (List.not_mem_nil h).elim, fun _ => ⟨j, r, slot, hr, hslot, rfl, hfloor⟩⟩

/-- Towards later records, from one that is before the time. -/
theorem setForward_walks (hi : Indexed dev file bri records)
    (hs : (secondsOf records).Pairwise (· ≤ ·)) {t : Int32} :
    ∀ (rounds : Nat) {idx : Int32} {j : Nat} {r₁ : BasketIFrame},
      idx.toInt = bri.beginIframeIdx.toInt + (j + 1 : Nat) → records[j]? = some r₁ →
      r₁.ts.tvSec < t →
      Walks records t bri (setForwardSlots dev file bri t rounds idx)
        (setForward dev file bri t rounds idx r₁) := by
  intro rounds
  induction rounds with
  | zero => exact fun _ _ _ => walks_fail
  | succ rounds ih =>
      intro idx j r₁ hidx hr₁ hbefore
      have hjlt := (List.getElem?_eq_some_iff.1 hr₁).1
      have hne : records ≠ [] := List.ne_nil_of_length_pos (by omega)
      obtain ⟨hend, hlast⟩ := hi.ends hne
      have h0 := hi.first_nonneg
      have hmax := hi.inTable
      rw [basketIframeNum_eq] at hmax
      have hone : (1 : Int32).toInt = 1 := rfl
      have hprev : (idx - 1).toInt = bri.beginIframeIdx.toInt + j := by
        rw [Int32.toInt_sub_of_range (by omega) (by omega), hone]
        omega
      have hle := hbefore
      rw [Int32.lt_iff_toInt_lt] at hle
      unfold setForward setForwardSlots
      by_cases hmore : idx < bri.beginIframeIdx + bri.iframeNum
      · rw [if_pos hmore, if_pos hmore]
        rw [Int32.lt_iff_toInt_lt, hend] at hmore
        obtain ⟨r₂, hr₂⟩ : ∃ r, records[j + 1]? = some r :=
          ⟨_, List.getElem?_eq_getElem (by omega)⟩
        refine Walks.cons ?_ (hi.slotOf hidx (by omega))
        rcases hi.read hidx hr₂ with hread | hread
        · rw [hread]
          exact walks_fail
        rw [hread]
        dsimp only
        by_cases hlater : r₂.ts.tvSec > t
        · rw [if_pos hlater, if_pos hlater]
          rw [gt_iff_lt, Int32.lt_iff_toInt_lt] at hlater
          refine walks_moveTo hr₁ hprev (.of_next hs (secondsOf_get hr₁) (by omega) ?_)
          intro k' hk'
          rw [secondsOf_get hr₂] at hk'
          obtain rfl := Option.some.inj hk'
          exact hlater
        rw [if_neg hlater, if_neg hlater]
        by_cases heq : r₂.ts.tvSec = t
        · rw [if_pos heq, if_pos heq]
          refine walks_moveTo hr₂ hidx ?_
          rw [heq]
          exact .of_eq (heq ▸ secondsOf_get hr₂)
        · rw [if_neg heq, if_neg heq]
          refine ih ?_ hr₂ ?_
          · rw [Int32.toInt_add_of_range (by omega) (by omega), hone]
            omega
          · rw [gt_iff_lt, Int32.lt_iff_toInt_lt] at hlater
            rw [← Int32.toInt_inj] at heq
            rw [Int32.lt_iff_toInt_lt]
            omega
      · rw [if_neg hmore, if_neg hmore]
        rw [Int32.lt_iff_toInt_lt, hend] at hmore
        have hjlast : j + 1 = records.length := by omega
        have hidxEnd : idx = bri.beginIframeIdx + bri.iframeNum := by
          rw [← Int32.toInt_inj]
          omega
        rw [if_pos hidxEnd]
        refine walks_moveTo hr₁ (by omega) (.of_next hs (secondsOf_get hr₁) (by omega) ?_)
        intro k' hk'
        have hlt := (List.getElem?_eq_some_iff.1 hk').1
        unfold secondsOf at hlt
        rw [List.length_map] at hlt
        omega

/-- Towards earlier records, from one that is after the time; the first record is
not. -/
theorem setBack_walks (hi : Indexed dev file bri records)
    (hs : (secondsOf records).Pairwise (· ≤ ·)) {t : Int32} {first : BasketIFrame}
    (hfirst : records[0]? = some first) (hle : first.ts.tvSec ≤ t) :
    ∀ (rounds : Nat) {idx : Int32} {j : Nat} {r₁ : BasketIFrame},
      idx.toInt = bri.beginIframeIdx.toInt + j - 1 → records[j]? = some r₁ → t < r₁.ts.tvSec →
      Walks records t bri (setBackSlots dev file bri t rounds idx)
        (setBack dev file bri t rounds idx r₁) := by
  intro rounds
  induction rounds with
  | zero => exact fun _ _ _ => walks_fail
  | succ rounds ih =>
      intro idx j r₁ hidx hr₁ hafter
      have hjlt := (List.getElem?_eq_some_iff.1 hr₁).1
      have h0 := hi.first_nonneg
      have hmax := hi.inTable
      rw [basketIframeNum_eq] at hmax
      have hone : (1 : Int32).toInt = 1 := rfl
      rw [Int32.lt_iff_toInt_lt] at hafter
      rw [Int32.le_iff_toInt_le] at hle
      unfold setBack setBackSlots
      cases j with
      | zero =>
          rw [hfirst] at hr₁
          obtain rfl := Option.some.inj hr₁
          omega
      | succ j =>
          have hmore : idx ≥ bri.beginIframeIdx := by
            rw [ge_iff_le, Int32.le_iff_toInt_le]
            omega
          rw [if_pos hmore, if_pos hmore]
          obtain ⟨r₂, hr₂⟩ : ∃ r, records[j]? = some r := ⟨_, List.getElem?_eq_getElem (by omega)⟩
          have hat : idx.toInt = bri.beginIframeIdx.toInt + j := by omega
          refine Walks.cons ?_ (hi.slotOf hat (by omega))
          rcases hi.read hat hr₂ with hread | hread
          · rw [hread]
            exact walks_fail
          rw [hread]
          dsimp only
          by_cases hfound : r₂.ts.tvSec ≤ t
          · rw [if_pos hfound, if_pos hfound]
            rw [Int32.le_iff_toInt_le] at hfound
            refine walks_moveTo hr₂ hat (.of_next hs (secondsOf_get hr₂) hfound ?_)
            intro k' hk'
            rw [secondsOf_get hr₁] at hk'
            obtain rfl := Option.some.inj hk'
            exact hafter
          · rw [if_neg hfound, if_neg hfound]
            refine ih ?_ hr₂ (Int32.not_le.1 hfound)
            rw [Int32.toInt_sub_of_range (by omega) (by omega), hone]
            omega

/-- From a record of the range. -/
theorem setFrom_walks (hi : Indexed dev file bri records)
    (hs : (secondsOf records).Pairwise (· ≤ ·)) {t : Int32} {first : BasketIFrame}
    (hfirst : records[0]? = some first) (hle : first.ts.tvSec ≤ t) {iframeIdx : Int32} {j : Nat}
    {r : BasketIFrame} (hidx : iframeIdx.toInt = bri.beginIframeIdx.toInt + j)
    (hr : records[j]? = some r) :
    Walks records t bri (setFromSlots dev file bri t iframeIdx r)
      (setFrom dev file bri t iframeIdx r) := by
  have hjlt := (List.getElem?_eq_some_iff.1 hr).1
  have h0 := hi.first_nonneg
  have hmax := hi.inTable
  rw [basketIframeNum_eq] at hmax
  have hone : (1 : Int32).toInt = 1 := rfl
  unfold setFrom setFromSlots
  by_cases heq : r.ts.tvSec = t
  · rw [if_pos heq, if_pos heq]
    refine walks_moveTo hr hidx ?_
    rw [heq]
    exact .of_eq (heq ▸ secondsOf_get hr)
  rw [if_neg heq, if_neg heq]
  by_cases hbefore : r.ts.tvSec < t
  · rw [if_pos hbefore, if_pos hbefore]
    refine setForward_walks hi hs _ ?_ hr hbefore
    rw [Int32.toInt_add_of_range (by omega) (by omega), hone]
    omega
  · rw [if_neg hbefore, if_neg hbefore]
    refine setBack_walks hi hs hfirst hle _ ?_ hr ?_
    · rw [Int32.toInt_sub_of_range (by omega) (by omega), hone]
      omega
    · rw [Int32.lt_iff_toInt_lt] at hbefore ⊢
      rw [← Int32.toInt_inj] at heq
      omega

/-! ## The guess -/

theorem tdiv_of_neg {p d : Int} (hp : p < 0) : p.tdiv d = -((-p) / d) := by
  rw [← Int.tdiv_eq_ediv_of_nonneg (by omega), Int.neg_tdiv, Int.neg_neg]

theorem tdiv_le {p d n : Int} (hd : 0 < d) (hn : 0 ≤ n) (hp : p ≤ d * n) : p.tdiv d ≤ n := by
  by_cases hnonneg : 0 ≤ p
  · rw [Int.tdiv_eq_ediv_of_nonneg hnonneg]
    refine Int.ediv_le_of_le_mul hd ?_
    rw [Int.mul_comm]
    exact hp
  · have hquot := Int.ediv_nonneg (a := -p) (b := d) (by omega) (by omega)
    rw [tdiv_of_neg (by omega)]
    omega

/-- A quotient towards zero is negative only from the divisor on. -/
theorem tdiv_nonneg_iff {p d : Int} (hd : 0 < d) : 0 ≤ p.tdiv d ↔ -d < p := by
  by_cases hnonneg : 0 ≤ p
  · exact iff_of_true (Int.tdiv_nonneg hnonneg (Int.le_of_lt hd)) (by omega)
  · rw [tdiv_of_neg (by omega)]
    constructor
    · intro h
      by_contra hlow
      have hone : 1 ≤ (-p) / d := Int.le_ediv_of_mul_le hd (by omega)
      omega
    · intro h
      rw [Int.ediv_eq_zero_of_lt (by omega) (by omega)]
      omega

theorem tdiv_lower {p d : Int} (hd : 0 < d) (hp : -2 ^ 31 ≤ p) : -2 ^ 31 ≤ p.tdiv d := by
  by_cases hnonneg : 0 ≤ p
  · have hlow := Int.tdiv_nonneg hnonneg (Int.le_of_lt hd)
    omega
  · have hle := Int.ediv_le_self d (a := -p) (by omega)
    rw [tdiv_of_neg (by omega)]
    omega

theorem bmod_le {p : Int} (hp : 0 ≤ p) : p.bmod (2 ^ 32) ≤ p ∧ -2 ^ 31 ≤ p.bmod (2 ^ 32) := by
  unfold Int.bmod
  dsimp only
  split
  · omega
  · omega

/-- A difference of times in order that is not positive as an `int`. -/
theorem sub_not_pos {b e : Int32} (h : ¬ e - b > 0) : e.toInt ≤ b.toInt ∨ b.toInt + 2 ^ 31 ≤ e.toInt := by
  by_contra hbetween
  have hsub : (e - b).toInt = e.toInt - b.toInt :=
    Int32.toInt_sub_of_range (by omega) (by omega)
  have hzero : (0 : Int32).toInt = 0 := rfl
  rw [gt_iff_lt, Int32.lt_iff_toInt_lt, hsub, hzero] at h
  omega

theorem setIdx_slotOf (hi : Indexed dev file bri records) (hne : records ≠ []) {b e t : Int32}
    (hbt : b.toInt ≤ t.toInt) (hte : t.toInt ≤ e.toInt) :
    SlotOf bri (setIdx bri b e t) ↔
      Guessed b.toInt e.toInt t.toInt (records.length - 1) := by
  have h0 := hi.first_nonneg
  have hmax := hi.inTable
  have hnum := hi.num hne
  have hpos := List.length_pos_of_ne_nil hne
  rw [basketIframeNum_eq] at hmax
  have hone : (1 : Int32).toInt = 1 := rfl
  unfold setIdx
  split
  next hlater =>
    have hsub := toInt_sub_of_pos (Int32.le_iff_toInt_le.2 (by omega)) hlater
    have hlt := (e - b).toInt_lt
    have hzero : (0 : Int32).toInt = 0 := rfl
    rw [gt_iff_lt, Int32.lt_iff_toInt_lt, hsub, hzero] at hlater
    have hway : (t - b).toInt = t.toInt - b.toInt :=
      Int32.toInt_sub_of_range (by omega) (by omega)
    have hsteps : (bri.iframeNum - 1).toInt = records.length - 1 := by
      rw [Int32.toInt_sub_of_range (by omega) (by omega), hone, hnum]
    have hminus : e - b ≠ -1 := by
      intro heq
      rw [heq] at hsub
      have hone' : (-1 : Int32).toInt = -1 := rfl
      omega
    have hdiv : ((t - b) * (bri.iframeNum - 1) / (e - b)).toInt =
        (((t.toInt - b.toInt) * (records.length - 1)).bmod (2 ^ 32)).tdiv
          (e.toInt - b.toInt) := by
      rw [Int32.toInt_div_of_ne_right _ _ hminus, Int32.toInt_mul, hway, hsteps, hsub]
    have hprod : 0 ≤ (t.toInt - b.toInt) * ((records.length : Int) - 1) :=
      Int.mul_nonneg (by omega) (by omega)
    have hbound : (t.toInt - b.toInt) * ((records.length : Int) - 1) ≤
        (e.toInt - b.toInt) * ((records.length : Int) - 1) :=
      Int.mul_le_mul_of_nonneg_right (by omega) (by omega)
    obtain ⟨hle, hlow⟩ := bmod_le hprod
    have hquot := tdiv_nonneg_iff
      (p := ((t.toInt - b.toInt) * ((records.length : Int) - 1)).bmod (2 ^ 32)) hlater
    have hquotLow := tdiv_lower hlater hlow
    have hquotHigh := tdiv_le hlater (n := (records.length : Int) - 1) (by omega)
      (Int.le_trans hle hbound)
    unfold SlotOf Guessed
    rw [Int32.toInt_add_of_range (by omega) (by omega), hdiv, hnum]
    omega
  next hnot =>
    refine iff_of_true ⟨Int.le_refl _, by omega⟩ ?_
    rcases sub_not_pos hnot with hle | hfar
    · exact .inl hle
    · exact .inr (.inl hfar)

end Range

/-! ## A call -/

section Call

variable {dev : Dev} {bgi : BasketGlobalInfo} {bri : BasketReadInfo} {records : List BasketIFrame}

theorem clampTime_cases {b e : Int32} (h : b.toInt ≤ e.toInt) (t : Int32) :
    (t.toInt < b.toInt ∧ clampTime b e t = b) ∨ (e.toInt < t.toInt ∧ clampTime b e t = e) ∨
      (b.toInt ≤ t.toInt ∧ t.toInt ≤ e.toInt ∧ clampTime b e t = t) := by
  unfold clampTime
  by_cases hlow : t < b
  · have hnot : ¬ b > e := by
      rw [gt_iff_lt, Int32.lt_iff_toInt_lt]
      omega
    simp only [if_pos hlow, if_neg hnot]
    exact .inl ⟨Int32.lt_iff_toInt_lt.1 hlow, trivial⟩
  · simp only [if_neg hlow]
    rw [Int32.lt_iff_toInt_lt] at hlow
    by_cases hhigh : t > e
    · rw [if_pos hhigh]
      exact .inr (.inl ⟨Int32.lt_iff_toInt_lt.1 hhigh, rfl⟩)
    · rw [if_neg hhigh]
      rw [gt_iff_lt, Int32.lt_iff_toInt_lt] at hhigh
      exact .inr (.inr ⟨by omega, by omega, rfl⟩)

/-- The seconds of the records are between those of the first and the last. -/
theorem seconds_between (hs : (secondsOf records).Pairwise (· ≤ ·)) {first last : BasketIFrame}
    (hfirst : records[0]? = some first) (hlast : records[records.length - 1]? = some last) :
    ∀ sec ∈ secondsOf records, first.ts.tvSec.toInt ≤ sec ∧ sec ≤ last.ts.tvSec.toInt := by
  intro sec hsec
  obtain ⟨i, hi⟩ := List.mem_iff_getElem?.1 hsec
  have hlt := (List.getElem?_eq_some_iff.1 hi).1
  unfold secondsOf at hlt
  rw [List.length_map] at hlt
  exact ⟨le_of_places hs (secondsOf_get hfirst) hi (Nat.zero_le _),
    le_of_places hs hi (secondsOf_get hlast) (by omega)⟩

/-- A walk to the time moved between the first record and the last is right for
the time itself. -/
theorem Walks.atTime (hs : (secondsOf records).Pairwise (· ≤ ·)) {first last : BasketIFrame}
    (hfirst : records[0]? = some first) (hlast : records[records.length - 1]? = some last)
    {t : Int32} {slots : List Int32} {moved : Moved}
    (hzero : t.toInt < first.ts.tvSec.toInt → moved.1 = true →
      moved.2.iframeIdx = bri.beginIframeIdx)
    (h : Walks records (clampTime first.ts.tvSec last.ts.tvSec t) bri slots moved)
    (hmoved : moved.1 = true) : AtTime records t bri moved.2 := by
  have hbetween := seconds_between hs hfirst hlast
  have hle : first.ts.tvSec.toInt ≤ last.ts.tvSec.toInt :=
    (hbetween _ (List.mem_of_getElem? (secondsOf_get hlast))).1
  obtain ⟨j, r, slot, hr, hslot, heq, hfloor⟩ := h.lands hmoved
  refine ⟨j, r, slot, hr, hslot, heq, ?_⟩
  rcases clampTime_cases hle t with ⟨hlow, -⟩ | ⟨hhigh, hclamp⟩ | ⟨-, -, hclamp⟩
  · have hat := hzero hlow hmoved
    rw [heq] at hat
    have hat' : slot = bri.beginIframeIdx := hat
    rw [hat'] at hslot
    exact .inr ⟨by omega, fun sec hsec => Int.lt_of_lt_of_le hlow (hbetween sec hsec).1⟩
  · rw [hclamp] at hfloor
    exact .inl (hfloor.mono (by omega) fun sec hsec _ => (hbetween sec hsec).2)
  · rw [hclamp] at hfloor
    exact .inl hfloor

/-- A time before the first record is looked for at its slot. -/
theorem setIdx_first (b e : Int32) : setIdx bri b e b = bri.beginIframeIdx := by
  unfold setIdx
  rw [Int32.sub_self, Int32.zero_mul, Int32.zero_div, Int32.zero_add, ite_self]

theorem head_eq {first : BasketIFrame} (h : records.head? = some first) :
    records[0]? = some first := by
  rw [← h, List.head?_eq_getElem?]

theorem last_eq {last : BasketIFrame} (h : records.getLast? = some last) :
    records[records.length - 1]? = some last := by
  rw [← h, List.getLast?_eq_getElem?]

/-- From a guess in the range, the search is right. -/
theorem setRight_of_guessable (hi : Indexed dev bgi.basketIdx bri records)
    (hs : (secondsOf records).Pairwise (· ≤ ·)) {t : Int32}
    (hbegin : (bgi.bfList.getD bri.bf default).beginTime < t)
    (hend : t < (bgi.bfList.getD bri.bf default).endTime) (h : Guessable records t) :
    SetRight dev bgi bri records t := by
  obtain ⟨first, hhead, last, hlast, hguess⟩ := h
  have hne : records ≠ [] := by
    rintro rfl
    cases hhead
  have hpos := List.length_pos_of_ne_nil hne
  have hfirst := head_eq hhead
  have hlast := last_eq hlast
  have hle : first.ts.tvSec.toInt ≤ last.ts.tvSec.toInt :=
    (seconds_between hs hfirst hlast _ (List.mem_of_getElem? (secondsOf_get hlast))).1
  obtain ⟨hlow, hhigh⟩ := clampTime_bounds (Int32.le_iff_toInt_le.2 hle) t
  have hbeginSlot : SlotOf bri bri.beginIframeIdx := hi.slotOf (j := 0) (by omega) hpos
  have hlastSlot : SlotOf bri (bri.beginIframeIdx + bri.iframeNum - 1) :=
    hi.slotOf (hi.ends hne).2 (by omega)
  have hidx := (setIdx_slotOf hi hne hlow hhigh).2 hguess
  obtain ⟨j, hj, hjlt⟩ := hi.place hne hidx
  obtain ⟨r, hr⟩ : ∃ r, records[j]? = some r := ⟨_, List.getElem?_eq_getElem hjlt⟩
  have hnotBegin : ¬ t ≤ (bgi.bfList.getD bri.bf default).beginTime := Int32.not_le.2 hbegin
  have hnotEnd : ¬ t ≥ (bgi.bfList.getD bri.bf default).endTime := Int32.not_le.2 hend
  suffices hwalks : Walks records (clampTime first.ts.tvSec last.ts.tvSec t) bri
      (strgBasketReadSetSlots dev bgi bri t) (strgBasketReadSet dev bgi bri t) ∧
      (t.toInt < first.ts.tvSec.toInt → (strgBasketReadSet dev bgi bri t).1 = true →
        (strgBasketReadSet dev bgi bri t).2.iframeIdx = bri.beginIframeIdx) from
    ⟨hwalks.1.probes, hwalks.1.atTime hs hfirst hlast hwalks.2⟩
  unfold strgBasketReadSet strgBasketReadSetSlots
  simp only [if_neg hnotBegin, if_neg hnotEnd]
  have hbegin : bri.beginIframeIdx.toInt = bri.beginIframeIdx.toInt + (0 : Nat) := by omega
  rcases hi.read hbegin hfirst with hread | hread
  · rw [hread]
    exact ⟨walks_fail.cons hbeginSlot, fun _ h => (by cases h)⟩
  rw [hread]
  rcases hi.read (hi.ends hne).2 hlast with hread | hread
  · rw [hread]
    exact ⟨(walks_fail.cons hlastSlot).cons hbeginSlot, fun _ h => (by cases h)⟩
  rw [hread]
  dsimp only
  rcases hi.read hj hr with hread | hread
  · rw [hread]
    exact ⟨((walks_fail.cons hidx).cons hlastSlot).cons hbeginSlot, fun _ h => (by cases h)⟩
  rw [hread]
  refine ⟨(((setFrom_walks hi hs hfirst (Int32.le_iff_toInt_le.2 hlow) hj hr).cons hidx).cons
    hlastSlot).cons hbeginSlot, fun hbefore _ => ?_⟩
  -- the search ends where it begins
  have hclamp : clampTime first.ts.tvSec last.ts.tvSec t = first.ts.tvSec := by
    rcases clampTime_cases hle t with ⟨-, hclamp⟩ | ⟨hafter, -⟩ | ⟨hafter, -⟩
    · exact hclamp
    · omega
    · omega
  rw [hclamp, setIdx_first] at hj ⊢
  have hzero : j = 0 := by omega
  rw [hzero, hfirst] at hr
  obtain rfl := Option.some.inj hr
  unfold setFrom
  dsimp only
  rw [if_pos rfl]
  rfl

/-- A search that probes nothing else has had a guess in the range. -/
theorem guessable_of_setRight (hi : Indexed dev bgi.basketIdx bri records)
    (hs : (secondsOf records).Pairwise (· ≤ ·)) (henv : dev.env.Reliable) {t : Int32}
    (hbegin : (bgi.bfList.getD bri.bf default).beginTime < t)
    (hend : t < (bgi.bfList.getD bri.bf default).endTime) (h : SetRight dev bgi bri records t) :
    Guessable records t := by
  have hprobes := h.probes
  have hnotBegin : ¬ t ≤ (bgi.bfList.getD bri.bf default).beginTime := Int32.not_le.2 hbegin
  have hnotEnd : ¬ t ≥ (bgi.bfList.getD bri.bf default).endTime := Int32.not_le.2 hend
  unfold strgBasketReadSetSlots at hprobes
  simp only [if_neg hnotBegin, if_neg hnotEnd] at hprobes
  have hne : records ≠ [] := by
    rintro rfl
    have hlen := hi.length
    have hslot := hprobes _ List.mem_cons_self
    unfold SlotOf at hslot
    rw [List.length_nil] at hlen
    omega
  have hpos := List.length_pos_of_ne_nil hne
  obtain ⟨first, hhead⟩ : ∃ r, records.head? = some r :=
    Option.isSome_iff_exists.1 (List.isSome_head?.2 hne)
  obtain ⟨last, hlast⟩ : ∃ r, records.getLast? = some r :=
    ⟨_, List.getLast?_eq_some_getLast hne⟩
  have hbegin : bri.beginIframeIdx.toInt = bri.beginIframeIdx.toInt + (0 : Nat) := by omega
  have hreadFirst := hi.read_reliable henv hbegin (head_eq hhead)
  have hreadLast := hi.read_reliable henv (hi.ends hne).2 (last_eq hlast)
  rw [hreadFirst, hreadLast] at hprobes
  have hidx := hprobes _ (List.mem_cons_of_mem _ (List.mem_cons_of_mem _ List.mem_cons_self))
  have hle : first.ts.tvSec.toInt ≤ last.ts.tvSec.toInt :=
    (seconds_between hs (head_eq hhead) (last_eq hlast) _
      (List.mem_of_getElem? (secondsOf_get (last_eq hlast)))).1
  obtain ⟨hlow, hhigh⟩ := clampTime_bounds (Int32.le_iff_toInt_le.2 hle) t
  exact ⟨first, hhead, last, hlast, (setIdx_slotOf hi hne hlow hhigh).1 hidx⟩

/-- Seeking by time is right if the guess is in the range, and on a device whose
reads succeed only then. -/
theorem setRight_iff (hi : Indexed dev bgi.basketIdx bri records)
    (hs : (secondsOf records).Pairwise (· ≤ ·)) {t : Int32}
    (hbegin : (bgi.bfList.getD bri.bf default).beginTime < t)
    (hend : t < (bgi.bfList.getD bri.bf default).endTime) :
    (Guessable records t → SetRight dev bgi bri records t) ∧
      (dev.env.Reliable → SetRight dev bgi bri records t → Guessable records t) :=
  ⟨setRight_of_guessable hi hs hbegin hend,
    fun henv => guessable_of_setRight hi hs henv hbegin hend⟩

end Call

/-! ## Sessions on whole fragments -/

/-- A session on a whole fragment has the records that were stored with it. -/
theorem Recorded.indexed {dev : Dev} {idx : Nat} {bf : BasketFragment} {ss : List StoredFrame}
    (hrec : Recorded (dev.file (.basket idx)) bf ss) (hp : InFile bf) {bri : BasketReadInfo}
    (hfirst : bri.beginIframeIdx.toInt = bf.slot) (hnum : bri.iframeNum.toInt = bf.slots) :
    Indexed dev idx bri (recordsOf bf.pos ss) where
  first_nonneg := by
    rw [hfirst]
    exact hp.slot_nonneg
  length := by
    rw [length_recordsOf, hnum, hrec.slots_eq]
    rfl
  inTable := by
    rw [hfirst, length_recordsOf, ← hrec.slots_eq]
    exact hp.slots_le
  magic := by
    intro r hr
    obtain ⟨j, hj⟩ := List.mem_iff_getElem?.1 hr
    exact recordsOf_magic hj
  holds := by
    intro j r hr
    rw [hfirst]
    exact hrec.holds_record hp hr

theorem setRight_iff_between :
    SetRight threeIframes.dev threeIframes.bgi allThreeOpened
      (recordsOf threeFragment.pos [storedAt 1000, storedAt 1100, storedAt 1200]) 1150 :=
  (setRight_iff (allThree_recorded.indexed
    (threeIframes_layout.1.inFile (List.mem_of_getElem? allThree_bf)) rfl
    (by decide)) (by decide) (by decide) (by decide)).1
    ⟨_, rfl, _, rfl, by decide⟩

/-- Two I-frames before the clock was set and one after. -/
def farIframes : Basket := recordedAt [100000, 200000, 1200100000]

def farFragment : BasketFragment := farIframes.bgi.bfList.getD 0 default

/-- The session on all of it. -/
def farOpened : BasketReadInfo :=
  openedAt { allThree with iframeNum := 3 } farIframes.bgi.basketIdx farFragment.beginFramePos

theorem farIframes_recorded :
    Recorded (farIframes.dev.file (.basket farIframes.bgi.basketIdx)) farFragment
      [storedAt 100000, storedAt 200000, storedAt 1200100000] where
  bytes := by decide +kernel
  slots := rfl
  frames := by
    unfold Holds
    decide +kernel
  index := by
    unfold Holds
    decide +kernel

theorem farIframes_layout : Layout farIframes.bgi ∧ farIframes.dev.env.Reliable :=
  recordedAt_layout rfl

/-- 34 years into a fragment of 38, the product is not an `int` and the guess is
before the first record. -/
theorem not_setRight :
    ¬∀ (dev : Dev) (bgi : BasketGlobalInfo) (bri : BasketReadInfo) (records : List BasketIFrame)
      (t : Int32), Indexed dev bgi.basketIdx bri records →
      (secondsOf records).Pairwise (· ≤ ·) →
      (bgi.bfList.getD bri.bf default).beginTime < t →
      t < (bgi.bfList.getD bri.bf default).endTime → SetRight dev bgi bri records t := by
  intro h
  have hindexed : Indexed farIframes.dev farIframes.bgi.basketIdx farOpened
      (recordsOf farFragment.pos [storedAt 100000, storedAt 200000, storedAt 1200100000]) :=
    farIframes_recorded.indexed (farIframes_layout.1.inFile
      (List.mem_of_getElem? (i := 0) rfl)) rfl rfl
  have hprobes := (h _ _ _ _ 1100100000 hindexed (by decide) (by decide)
    (by decide +kernel)).probes (-1) (by decide +kernel)
  exact absurd hprobes.1 (by decide)

end Nvr.Storage
