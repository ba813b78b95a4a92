import Mathlib.Tactic.FieldSimp
import Mathlib.Tactic.Ring
import Mathlib.Tactic.Linarith
import Mathlib.Tactic.Positivity
import Nvr.Lib.Run
import Nvr.Gui.RecInfoBar

/-!
# The window on the playback timeline

Every message but one keeps the window inside the day, as wide as its zoom level asks for and
around the position. The day is a multiple of each of the parts that the window is of it, so
that the two ends of a zoomed window, which are cut separately, are cut by the same amount.

`RIBM_SETINDCPOS` with a position outside of the day cuts the position to the day and leaves the
window where it is. That is harmless only where the window ends with the day on that side, and
those are the runs in which the law holds.
-/

namespace Nvr.Gui

/-! ## Whole numbers out of fractions -/

theorem truncInt_div {a : Int} (b : Nat) (ha : 0 ≤ a) : truncInt ((a : ℚ) / b) = a / b := by
  have hpos : (0 : ℚ) ≤ (a : ℚ) / b := by positivity
  rw [truncInt, if_pos hpos, Rat.floor_intCast_div_natCast]

theorem truncInt_add_div {c a : Int} {b : Nat} (hc : 0 ≤ c) (ha : 0 ≤ a) :
    truncInt ((c : ℚ) + (a : ℚ) / b) = c + a / b := by
  have hpos : (0 : ℚ) ≤ (c : ℚ) + (a : ℚ) / b := by positivity
  rw [truncInt, if_pos hpos, Int.floor_intCast_add, Rat.floor_intCast_div_natCast]

namespace RecInfoBar

/-! ## The law and its invariant -/

/-- What is claimed of the window in every state. -/
structure WindowLaw (d : RecInfoBar) : Prop where
  min_le : d.nMin ≤ d.nCurMin
  le_pos : d.nCurMin ≤ d.nPos
  pos_le : d.nPos ≤ d.nCurMax
  le_max : d.nCurMax ≤ d.nMax
  width : d.nCurMax - d.nCurMin = d.getCurMaxMinIntval
  divisor : d.nCurMax - d.nCurMin ≠ 0
  /-- The window is accepted by any bar over the same range with the same zoom. -/
  accepted : ∀ other : RecInfoBar, other.nMin = d.nMin → other.nMax = d.nMax →
    other.ucZoomout = d.ucZoomout → (other.setCurrentMaxMin d.nCurMin d.nCurMax).2 = 0

/-- The part of the day that a zoom level shows. -/
def zoomDivisor : UInt8 → Int
  | 1 => 3
  | 2 => 6
  | 3 => 12
  | 4 => 24
  | 5 => 48
  | _ => 1

/-- The range of the bar is the day that it was created with. -/
structure Day (d : RecInfoBar) : Prop where
  nMin_eq : d.nMin = 0
  nMax_eq : d.nMax = 86400

/-- A window of the right width inside the day, with the position in it. -/
structure Window (d : RecInfoBar) : Prop extends Day d where
  min_le : 0 ≤ d.nCurMin
  le_pos : d.nCurMin ≤ d.nPos
  pos_le : d.nPos ≤ d.nCurMax
  le_max : d.nCurMax ≤ 86400
  width : d.nCurMax - d.nCurMin = 86400 / zoomDivisor d.ucZoomout

theorem getCurMaxMinIntval_of_day {d : RecInfoBar} (h : Day d) :
    d.getCurMaxMinIntval = 86400 / zoomDivisor d.ucZoomout := by
  have hpart : ∀ k : Nat, truncInt ((86400 : Int) / (k : ℚ)) = 86400 / k := fun k =>
    truncInt_div k (by decide)
  simp only [getCurMaxMinIntval, h.nMin_eq, h.nMax_eq, Int.sub_zero]
  unfold zoomDivisor
  split
  · next h0 => simp [h0]
  · next h0 => simpa [h0] using hpart 3
  · next h0 => simpa [h0] using hpart 6
  · next h0 => simpa [h0] using hpart 12
  · next h0 => simpa [h0] using hpart 24
  · next h0 => simpa [h0] using hpart 48
  · simp

theorem zoomDivisor_share_pos (z : UInt8) : 0 < 86400 / zoomDivisor z := by
  unfold zoomDivisor
  split <;> decide

theorem Window.law {d : RecInfoBar} (h : Window d) : WindowLaw d := by
  have hmin := h.nMin_eq
  have hmax := h.nMax_eq
  have hwidth := h.width
  have hshare := zoomDivisor_share_pos d.ucZoomout
  have hlow := h.min_le
  have hhigh := h.le_max
  refine ⟨by omega, h.le_pos, h.pos_le, by omega, ?_, by omega, ?_⟩
  · rw [getCurMaxMinIntval_of_day h.toDay, hwidth]
  · intro other hmin' hmax' hzoom
    have hother : Day other := ⟨hmin'.trans hmin, hmax'.trans hmax⟩
    have hintval : d.nCurMax - d.nCurMin = other.getCurMaxMinIntval := by
      rw [getCurMaxMinIntval_of_day hother, hzoom, hwidth]
    have hpass : (d.nCurMin < other.nMin || d.nCurMax > other.nMax || d.nCurMax ≤ d.nCurMin ||
        d.nCurMax - d.nCurMin ≠ other.getCurMaxMinIntval) = false := by
      rw [hmin', hmax', hmin, hmax]
      simp only [Bool.or_eq_false_iff, decide_eq_false_iff_not, not_lt, not_le, not_not]
      exact ⟨⟨⟨hlow, hhigh⟩, by omega⟩, hintval⟩
    rw [setCurrentMaxMin, hpass]
    rfl

theorem window_create : Window create := by
  refine ⟨⟨rfl, rfl⟩, ?_, ?_, ?_, ?_, ?_⟩ <;> decide

/-! ## The messages, one by one -/

theorem zoomWindow_nCurMin {d : RecInfoBar} (h : Day d) (hpos : 0 ≤ d.nPos) (m n : Nat) :
    (d.zoomWindow m n).nCurMin = d.nPos * m / n := by
  have hprod : 0 ≤ d.nPos * (m : Int) := Int.mul_nonneg hpos (Int.natCast_nonneg m)
  have hcut := @truncInt_add_div 0 (d.nPos * m) n le_rfl hprod
  simp only [zoomWindow, h.nMin_eq, Int.sub_zero]
  push_cast at hcut ⊢
  rw [hcut, zero_add]

theorem zoomWindow_nCurMax {d : RecInfoBar} (h : Day d) (hpos : 0 ≤ d.nPos)
    (hle : d.nPos ≤ 86400) (part : ℚ) (n : Nat) :
    (d.zoomWindow part n).nCurMax = d.nPos + (86400 - d.nPos) / n := by
  have hcut := @truncInt_add_div d.nPos (86400 - d.nPos) n hpos (by omega)
  simp only [zoomWindow, h.nMax_eq, mul_one]
  exact hcut

/-- Both ends of a zoomed window are cut by the same amount, and so the window has its width. -/
theorem zoomWindow_window {d : RecInfoBar} (h : Day d) (hpos : 0 ≤ d.nPos)
    (hle : d.nPos ≤ 86400) {m n : Nat} (hz : zoomDivisor d.ucZoomout = n)
    (hends : 0 ≤ d.nPos * m / n ∧ d.nPos * m / n ≤ d.nPos ∧ 0 ≤ (86400 - d.nPos) / n ∧
      d.nPos + (86400 - d.nPos) / n ≤ 86400 ∧
      d.nPos + (86400 - d.nPos) / n - d.nPos * m / n = 86400 / n) :
    Window (d.zoomWindow m n) := by
  have hmin := zoomWindow_nCurMin h hpos m n
  have hmax := zoomWindow_nCurMax h hpos hle m n
  have hposn : (d.zoomWindow m n).nPos = d.nPos := rfl
  have hzoom : (d.zoomWindow m n).ucZoomout = d.ucZoomout := rfl
  obtain ⟨hlow, hleft, hright, hhigh, hwidth⟩ := hends
  refine ⟨⟨h.nMin_eq, h.nMax_eq⟩, ?_, ?_, ?_, ?_, ?_⟩
  · rw [hmin]; exact hlow
  · rw [hmin, hposn]; exact hleft
  · rw [hmax, hposn]; omega
  · rw [hmax]; exact hhigh
  · rw [hmin, hmax, hzoom, hz]; exact hwidth

theorem zoom_level {z : UInt8} (h : z ≤ 5) :
    z = 0 ∨ z = 1 ∨ z = 2 ∨ z = 3 ∨ z = 4 ∨ z = 5 := by
  rw [UInt8.le_iff_toNat_le] at h
  simp only [← UInt8.toNat_inj]
  simp only [UInt8.reduceToNat] at h ⊢
  omega

theorem setZoomout_window {d : RecInfoBar} (h : Window d) (z : UInt8) :
    Window (d.setZoomout z) := by
  have hmin := h.min_le
  have hleft := h.le_pos
  have hright := h.pos_le
  have hmax := h.le_max
  have hlow : 0 ≤ d.nPos := by omega
  have hhigh : d.nPos ≤ 86400 := by omega
  have hday : Day { d with ucZoomout := z } := ⟨h.nMin_eq, h.nMax_eq⟩
  unfold setZoomout
  split
  · exact h
  · next hrange =>
    split
    · split
      · exact ⟨⟨h.nMin_eq, h.nMax_eq⟩, by simp [h.nMin_eq], by simpa [h.nMin_eq] using hlow,
          by simpa [h.nMax_eq] using hhigh, by simp [h.nMax_eq],
          by simp [h.nMin_eq, h.nMax_eq, zoomDivisor]⟩
      · exact @zoomWindow_window _ hday hlow hhigh 2 3 rfl (by dsimp only; omega)
      · exact @zoomWindow_window _ hday hlow hhigh 5 6 rfl (by dsimp only; omega)
      · exact @zoomWindow_window _ hday hlow hhigh 11 12 rfl (by dsimp only; omega)
      · exact @zoomWindow_window _ hday hlow hhigh 23 24 rfl (by dsimp only; omega)
      · exact @zoomWindow_window _ hday hlow hhigh 47 48 rfl (by dsimp only; omega)
      · next h0 h1 h2 h3 h4 h5 =>
          -- the range check leaves no other level
          have hle : z ≤ 5 := by simpa [zoomOutX0, zoomOutX1_48] using hrange
          rcases zoom_level hle with rfl | rfl | rfl | rfl | rfl | rfl <;> contradiction
    · exact h

theorem normalizeMousePos_mem {d : RecInfoBar} (h : Window d) (rcClient : ClientRect)
    (mousepos : Int) : d.nCurMin ≤ d.normalizeMousePos rcClient mousepos ∧
      d.normalizeMousePos rcClient mousepos ≤ d.nCurMax := by
  have hlow := h.min_le
  have hle : 0 ≤ d.nCurMax - d.nCurMin := by
    have hleft := h.le_pos
    have hright := h.pos_le
    omega
  have hwide := rcClient.wide
  obtain ⟨len, hlen⟩ : ∃ len : Nat, rcClient.right - ribBorder * 2 = len :=
    ⟨(rcClient.right - ribBorder * 2).toNat, by unfold ribBorder; omega⟩
  have hlenpos : (0 : Int) < len := by unfold ribBorder at hlen; omega
  -- the point of the screen, between the borders
  obtain ⟨pos, hpos, hpos0, hposl⟩ : ∃ pos : Int,
      (if mousepos < 0 then 0 else if mousepos > (len : Int) then (len : Int) else mousepos) = pos ∧
        0 ≤ pos ∧ pos ≤ len := by
    refine ⟨_, rfl, ?_, ?_⟩ <;> split <;> (try split) <;> omega
  have hprod : 0 ≤ (d.nCurMax - d.nCurMin) * pos := Int.mul_nonneg hle hpos0
  have heq : d.normalizeMousePos rcClient mousepos =
      d.nCurMin + (d.nCurMax - d.nCurMin) * pos / len := by
    rw [← truncInt_add_div hlow hprod, add_comm (d.nCurMin : ℚ)]
    simp only [normalizeMousePos, hlen, hpos]
    push_cast
    rfl
  have hquot : (d.nCurMax - d.nCurMin) * pos / len ≤ d.nCurMax - d.nCurMin := by
    apply Int.ediv_le_of_le_mul hlenpos
    exact Int.mul_le_mul_of_nonneg_left hposl hle
  have hnonneg : 0 ≤ (d.nCurMax - d.nCurMin) * pos / len :=
    Int.ediv_nonneg hprod (Int.natCast_nonneg len)
  omega

/-- A window of the same width at another place. -/
theorem Window.moved {d : RecInfoBar} (h : Window d) {a b p : Int} (hmin : 0 ≤ a)
    (hleft : a ≤ p) (hright : p ≤ b) (hmax : b ≤ 86400)
    (hwidth : b - a = d.nCurMax - d.nCurMin) :
    Window { d with nCurMin := a, nCurMax := b, nPos := p } :=
  ⟨⟨h.nMin_eq, h.nMax_eq⟩, hmin, hleft, hright, hmax, hwidth.trans h.width⟩

/-- A position inside the day takes the window along, by no more than it has moved itself. -/
theorem setIndicatorPos_window {d : RecInfoBar} (h : Window d) {p : Int}
    (hlow : p < d.nMin → d.nCurMin = d.nMin) (hhigh : d.nMax < p → d.nCurMax = d.nMax) :
    Window (d.setIndicatorPos p) := by
  have hday0 := h.nMin_eq
  have hday1 := h.nMax_eq
  have hmin := h.min_le
  have hleft := h.le_pos
  have hright := h.pos_le
  have hmax := h.le_max
  simp only [setIndicatorPos, Bool.and_eq_true, decide_eq_true_eq]
  split
  · next hp =>
      have hedge := hlow hp
      exact h.moved hmin (by omega) (by omega) hmax rfl
  · split
    · next hp =>
        split
        · next hroom => exact h.moved (by omega) (by omega) (by omega) (by omega) (by omega)
        · next hroom => exact h.moved (by omega) (by omega) (by omega) (by omega) (by omega)
    · split
      · next hp =>
          split
          · next hroom => exact h.moved (by omega) (by omega) (by omega) (by omega) (by omega)
          · next hroom => exact h.moved (by omega) (by omega) (by omega) (by omega) (by omega)
      · split
        · next hp =>
            have hedge := hhigh hp
            exact h.moved hmin (by omega) (by omega) hmax rfl
        · exact h.moved hmin (by omega) (by omega) hmax rfl

theorem clampPos_window {d : RecInfoBar} (h : Day d) (hmin : 0 ≤ d.nCurMin)
    (hmax : d.nCurMax ≤ 86400)
    (hwidth : d.nCurMax - d.nCurMin = 86400 / zoomDivisor d.ucZoomout) : Window d.clampPos := by
  have hshare := zoomDivisor_share_pos d.ucZoomout
  unfold clampPos
  split
  · exact ⟨⟨h.nMin_eq, h.nMax_eq⟩, hmin, by dsimp only; omega, le_rfl, hmax, hwidth⟩
  · split
    · exact ⟨⟨h.nMin_eq, h.nMax_eq⟩, hmin, le_rfl, by dsimp only; omega, hmax, hwidth⟩
    · exact ⟨h, hmin, by omega, by omega, hmax, hwidth⟩

theorem setCurrentMaxMin_window {d : RecInfoBar} (h : Window d) (nCurMin nCurMax : Int) :
    Window (d.setCurrentMaxMin nCurMin nCurMax).1 := by
  have hday0 := h.nMin_eq
  have hday1 := h.nMax_eq
  unfold setCurrentMaxMin
  split
  · exact h
  · next hpass =>
      simp only [Bool.or_eq_true, decide_eq_true_eq, not_or, not_lt, not_le, not_not] at hpass
      obtain ⟨⟨⟨hmin, hmax⟩, -⟩, hwidth⟩ := hpass
      rw [getCurMaxMinIntval_of_day h.toDay] at hwidth
      exact clampPos_window ⟨hday0, hday1⟩ (by dsimp only; omega) (by dsimp only; omega) hwidth

theorem setCurrentMaxMinOffset_window {d : RecInfoBar} (h : Window d) (new_din : Int) :
    Window (d.setCurrentMaxMinOffset new_din) := by
  have hday0 := h.nMin_eq
  have hday1 := h.nMax_eq
  have hmin := h.min_le
  have hleft := h.le_pos
  have hright := h.pos_le
  have hmax := h.le_max
  have hwidth := h.width
  -- the cut offset keeps both ends inside of the day
  obtain ⟨din, hdin, hlow, hhigh⟩ : ∃ din : Int,
      (if new_din ≥ 0 && d.nCurMax + new_din ≥ d.nMax then d.nMax - d.nCurMax
        else if new_din < 0 && d.nCurMin + new_din ≤ d.nMin then d.nMin - d.nCurMin
        else new_din) = din ∧ 0 ≤ d.nCurMin + din ∧ d.nCurMax + din ≤ 86400 := by
    refine ⟨_, rfl, ?_, ?_⟩ <;> simp only [Bool.and_eq_true, decide_eq_true_eq] <;> split <;>
      (try split) <;> omega
  simp only [setCurrentMaxMinOffset, hdin]
  exact clampPos_window ⟨hday0, hday1⟩ hlow hhigh (by dsimp only; omega)

/-! ## Runs -/

/-- A position outside of the day comes only while the window ends with the day there. -/
def PosInReach (d : RecInfoBar) : BarMessage → Prop
  | .setIndcPos new_pos =>
      (new_pos < d.nMin → d.nCurMin = d.nMin) ∧ (d.nMax < new_pos → d.nCurMax = d.nMax)
  | _ => True

theorem recinfoBarProc_window {rcClient : ClientRect} {d : RecInfoBar} {m : BarMessage}
    (h : Window d) (hm : PosInReach d m) : Window (recinfoBarProc rcClient d m) := by
  have hday0 := h.nMin_eq
  have hday1 := h.nMax_eq
  cases m with
  | zoomOut z => exact setZoomout_window h z
  | setZoomOutParam z => exact setZoomout_window h z
  | setIndcPos p => exact setIndicatorPos_window h hm.1 hm.2
  | lButtonDblClk mouseX =>
      have hmem := normalizeMousePos_mem h rcClient mouseX
      have hmin := h.min_le
      have hmax := h.le_max
      exact setIndicatorPos_window h (by omega) (by omega)
  | drag din => exact setCurrentMaxMinOffset_window h din
  | setCurMinMax nCurMin nCurMax => exact setCurrentMaxMin_window h nCurMin nCurMax

/-- The position that is cut to the day is outside of a window that does not reach there. -/
theorem not_law_of_not_posInReach {rcClient : ClientRect} {d : RecInfoBar} {m : BarMessage}
    (h : Window d) (hm : ¬PosInReach d m) : ¬WindowLaw (recinfoBarProc rcClient d m) := by
  have hday0 := h.nMin_eq
  have hday1 := h.nMax_eq
  have hmin := h.min_le
  have hmax := h.le_max
  have hwindow := h.le_pos.trans h.pos_le
  intro hlaw
  have hleft := hlaw.le_pos
  have hright := hlaw.pos_le
  cases m with
  | setIndcPos p =>
      simp only [PosInReach, Classical.not_and_iff_not_or_not, Classical.not_imp] at hm
      simp only [recinfoBarProc, setIndicatorPos, Bool.and_eq_true, decide_eq_true_eq]
        at hleft hright
      rcases hm with ⟨hp, hedge⟩ | ⟨hp, hedge⟩
      · rw [if_pos hp] at hleft
        dsimp only at hleft
        omega
      · rw [if_neg (by omega), if_neg (by omega), if_neg (by omega), if_pos (by omega)] at hright
        dsimp only at hright
        omega
  | zoomOut z => exact hm trivial
  | setZoomOutParam z => exact hm trivial
  | lButtonDblClk mouseX => exact hm trivial
  | drag din => exact hm trivial
  | setCurMinMax nCurMin nCurMax => exact hm trivial

/-- The law holds in all states of a run if and only if no position outside of the day comes
while the window ends short of the day on that side. -/
theorem window_law_iff (rcClient : ClientRect) (ms : List BarMessage) :
    (∀ pre, pre <+: ms → WindowLaw (pre.foldl (recinfoBarProc rcClient) create)) ↔
      ∀ pre m, pre ++ [m] <+: ms →
        PosInReach (pre.foldl (recinfoBarProc rcClient) create) m :=
  @Run.good_iff_meets_foldl _ _ (recinfoBarProc rcClient) Window WindowLaw PosInReach Window.law
    recinfoBarProc_window not_law_of_not_posInReach create window_create ms

/-- Half an hour around noon is shown when a position before the day is set. -/
theorem not_window_law : ¬∀ (rcClient : ClientRect) (ms : List BarMessage),
    WindowLaw (ms.foldl (recinfoBarProc rcClient) create) := by
  intro hall
  have hlaw := hall ⟨700, by decide⟩ [.setIndcPos 43200, .zoomOut 5, .setIndcPos (-1)]
  exact absurd hlaw.le_pos (by decide +kernel)

end RecInfoBar

end Nvr.Gui
