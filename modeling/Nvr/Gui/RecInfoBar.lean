import Mathlib.Data.Rat.Floor

/-!
# The recording bar of the playback window

The window of `ctrl_recinfobar.c`: the part of the day that the bar shows and the position of
its indicator in it. Arithmetic is that of the rationals where the source uses a `double` or a
`float`, and what is stored in an `int` is cut towards zero. The intervals of the bar, its
colours and what is only drawn are left out.
-/

namespace Nvr.Gui

/-- The conversion of a floating number to an `int`. -/
def truncInt (x : ℚ) : Int :=
  if 0 ≤ x then ⌊x⌋ else ⌈x⌉

/-- `INTRL_MIN`. -/
def intrlMin : Int := 0

/-- `INTRL_MAX`, the seconds of a day. -/
def intrlMax : Int := 86400

/-- `ZOOM_OUT_X0`. -/
def zoomOutX0 : UInt8 := 0

/-- `ZOOM_OUT_X1_48`. -/
def zoomOutX1_48 : UInt8 := 5

/-- `RIB_BORDER`. -/
def ribBorder : Int := 1

/-- What `GetClientRect` reports; its left side is 0, and there is room between the borders. -/
structure ClientRect where
  right : Int
  wide : 2 < right

/-- `RECINFOBARDATA`. -/
structure RecInfoBar where
  nMin : Int
  nMax : Int
  nCurMin : Int
  nCurMax : Int
  nPos : Int
  ucZoomout : UInt8
  deriving DecidableEq

/-- `MSG_CREATE`. -/
def RecInfoBar.create : RecInfoBar where
  nMin := intrlMin
  nMax := intrlMax
  nCurMin := intrlMin
  nCurMax := intrlMax
  nPos := 0
  ucZoomout := zoomOutX0

/-- A message to the bar: `RIBM_ZOOMOUT` and `RIBM_SET_ZOOMOUT_PARAM` with the low byte of
`wParam`, `RIBM_SETINDCPOS`, a double click at a point of the screen, a movement of the mouse
that drags the window by an offset, and `RIBM_SET_CUR_MINMAX`. -/
inductive BarMessage
  | zoomOut (wParam : UInt8)
  | setZoomOutParam (wParam : UInt8)
  | setIndcPos (new_pos : Int)
  | lButtonDblClk (mouseX : Int)
  | drag (new_din : Int)
  | setCurMinMax (nCurMin nCurMax : Int)
  deriving DecidableEq

namespace RecInfoBar

variable (pData : RecInfoBar)

/-- The two assignments of a case of `RecinfoBarSetZoomout`. -/
def zoomWindow (part whole : ℚ) : RecInfoBar :=
  { pData with
    nCurMin := truncInt (pData.nMin + (pData.nPos - pData.nMin : Int) * part / whole)
    nCurMax := truncInt (pData.nPos + (pData.nMax - pData.nPos : Int) * 1 / whole) }

/-- `RecinfoBarSetZoomout`. -/
def setZoomout (ucZoomout : UInt8) : RecInfoBar :=
  if ucZoomout < zoomOutX0 || ucZoomout > zoomOutX1_48 then pData
  else if pData.ucZoomout ≠ ucZoomout then
    let zoomed := { pData with ucZoomout := ucZoomout }
    match ucZoomout with
    | 0 => { zoomed with nCurMin := pData.nMin, nCurMax := pData.nMax }
    | 1 => zoomed.zoomWindow 2 3
    | 2 => zoomed.zoomWindow 5 6
    | 3 => zoomed.zoomWindow 11 12
    | 4 => zoomed.zoomWindow 23 24
    | 5 => zoomed.zoomWindow 47 48
    | _ => zoomed
  else pData

/-- `NormalizeMousePos`. -/
def normalizeMousePos (rcClient : ClientRect) (mousepos : Int) : Int :=
  let len := rcClient.right - ribBorder * 2
  let pos := if mousepos < 0 then 0 else if mousepos > len then len else mousepos
  truncInt (((pData.nCurMax - pData.nCurMin) * pos : Int) / (len : ℚ) + pData.nCurMin)

/-- `SetIndicatorPos`. The position is cut to the range of the bar without the window, where it
lies outside of it. -/
def setIndicatorPos (new_pos : Int) : RecInfoBar :=
  let nCurIntrvl := pData.nCurMax - pData.nCurMin
  if new_pos < pData.nMin then { pData with nPos := pData.nMin }
  else if new_pos ≥ pData.nMin && new_pos < pData.nCurMin then
    let nOffset := pData.nPos - new_pos
    let nCurMin :=
      if pData.nCurMin - pData.nMin > nOffset then pData.nCurMin - nOffset else pData.nMin
    { pData with nCurMin := nCurMin, nCurMax := nCurMin + nCurIntrvl, nPos := new_pos }
  else if new_pos > pData.nCurMax && new_pos ≤ pData.nMax then
    let nOffset := new_pos - pData.nPos
    let nCurMax :=
      if pData.nMax - pData.nCurMax > nOffset then pData.nCurMax + nOffset else pData.nMax
    { pData with nCurMin := nCurMax - nCurIntrvl, nCurMax := nCurMax, nPos := new_pos }
  else if new_pos > pData.nMax then { pData with nPos := pData.nMax }
  else { pData with nPos := new_pos }

/-- `GetCurMaxMinIntval`. -/
def getCurMaxMinIntval : Int :=
  let part (whole : ℚ) := truncInt ((pData.nMax - pData.nMin : Int) / whole)
  match pData.ucZoomout with
  | 0 => pData.nMax - pData.nMin
  | 1 => part 3
  | 2 => part 6
  | 3 => part 12
  | 4 => part 24
  | 5 => part 48
  | _ => pData.nMax - pData.nMin

/-- The position is taken along with the window, at the end of `SetCurrentMaxMin` and
`SetCurrentMaxMinOffset`. -/
def clampPos : RecInfoBar :=
  if pData.nPos > pData.nCurMax then { pData with nPos := pData.nCurMax }
  else if pData.nPos < pData.nCurMin then { pData with nPos := pData.nCurMin }
  else pData

/-- `SetCurrentMaxMin`. -/
def setCurrentMaxMin (nCurMin nCurMax : Int) : RecInfoBar × Int :=
  if nCurMin < pData.nMin || nCurMax > pData.nMax || nCurMax ≤ nCurMin ||
      nCurMax - nCurMin ≠ pData.getCurMaxMinIntval then
    (pData, -1)
  else ({ pData with nCurMin := nCurMin, nCurMax := nCurMax }.clampPos, 0)

/-- `SetCurrentMaxMinOffset`. -/
def setCurrentMaxMinOffset (new_din : Int) : RecInfoBar :=
  let nFixdin :=
    if new_din ≥ 0 && pData.nCurMax + new_din ≥ pData.nMax then pData.nMax - pData.nCurMax
    else if new_din < 0 && pData.nCurMin + new_din ≤ pData.nMin then
      pData.nMin - pData.nCurMin
    else new_din
  { pData with
    nCurMax := pData.nCurMax + nFixdin
    nCurMin := pData.nCurMin + nFixdin }.clampPos

end RecInfoBar

/-- The cases of `RecinfoBarProc` that move the window or the position. -/
def recinfoBarProc (rcClient : ClientRect) (pData : RecInfoBar) : BarMessage → RecInfoBar
  | .zoomOut wParam => pData.setZoomout wParam
  | .setZoomOutParam wParam => pData.setZoomout wParam
  | .setIndcPos new_pos => pData.setIndicatorPos new_pos
  | .lButtonDblClk mouseX => pData.setIndicatorPos (pData.normalizeMousePos rcClient mouseX)
  | .drag new_din => pData.setCurrentMaxMinOffset new_din
  | .setCurMinMax nCurMin nCurMax => (pData.setCurrentMaxMin nCurMin nCurMax).1

end Nvr.Gui
