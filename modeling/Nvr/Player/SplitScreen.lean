import Nvr.Lib.BlockCopy

/-!
# The picture of four channels

`copy_thr_copy_image`, the functions 2 and 3. The back image has 1280 by 736 pixels, and each
picture 640 by 360, both in tiles of 32 lines of 32 bytes, one tile behind the other. A channel has
a quarter of the back image. The lower quarters do not begin with a tile: their first line is the
ninth of a row of tiles in the luminance and the twenty-first in the chrominance, so that each tile
of the picture is put into two.

Every `memcpy` and `memset` is for some lines of 32 bytes.
-/

namespace Nvr.Player.SplitScreen

open BlockCopy

abbrev Ch : Type := Fin 4

/-- The pointers of a loop, and the lines it has copied. -/
structure Pen where
  dst : Nat
  src : Nat
  copies : List Copy

/-- `memcpy(dst + d, src + s, 32 * lines)`. -/
def Pen.memcpy (p : Pen) (d s lines : Nat) : Pen :=
  { p with copies := p.copies ++
      (List.range lines).map fun l => ⟨p.dst + d + 32 * l, p.src + s + 32 * l⟩ }

/-- `dst += d` and `src += s`. -/
def Pen.move (p : Pen) (d s : Nat) : Pen := { p with dst := p.dst + d, src := p.src + s }

/-- `for (i = 0; i < n; i++)`. -/
def loop (n : Nat) (body : Pen → Nat → Pen) (p : Pen) : Pen := (List.range n).foldl body p

/-- Some lines of 20 tiles, one tile after the other. -/
def tiles20 (d s lines : Nat) : Pen → Pen :=
  loop 20 fun p _ => (p.memcpy d s lines).move (32 * 32) (32 * 32)

/-- Where the luminance of a channel begins. -/
def yDst (ch : Ch) : Nat :=
  if ch.val = 0 then 0
  else if ch.val = 1 then 640 * 32
  else if ch.val = 2 then 1280 * 352
  else 1280 * 352 + 640 * 32

/-- Where its chrominance begins. -/
def uvDst (ch : Ch) : Nat :=
  if ch.val = 0 then 1280 * 736
  else if ch.val = 1 then 1280 * 736 + 640 * 32
  else if ch.val = 2 then 1280 * 736 + 1280 * 160
  else 1280 * 736 + 1280 * 160 + 640 * 32

/-- The 32 lines of a row of tiles. -/
def wholeRow (p : Pen) (_ : Nat) : Pen := (p.memcpy 0 0 640).move (1280 * 32) (640 * 32)

def yLowRow (p : Pen) (i : Nat) : Pen :=
  let src := p.src
  let p := (tiles20 256 0 24 p).move (640 * 32) 0
  let dst := p.dst
  let p := tiles20 0 768 8 { p with src := src }
  let p := { p with dst := dst }
  if i = 10 then (tiles20 256 0 8 p).move (640 * 32) 0 else p

/-- The luminance in function 2. -/
def yCopies (ch : Ch) : List Copy :=
  let p : Pen := ⟨yDst ch, 0, []⟩
  if ch.val ≤ 1 then (tiles20 0 0 8 (loop 11 wholeRow p)).copies
  else (loop 11 yLowRow p).copies

def uvLowRow (p : Pen) (i : Nat) : Pen :=
  let src := p.src
  let p := (tiles20 640 0 12 p).move (640 * 32) 0
  let dst := p.dst
  let p := tiles20 0 384 20 { p with src := src }
  let p := { p with dst := dst }
  if i = 4 then
    let src := p.src
    let p := tiles20 640 0 12 p
    let p := { p with src := src }.move (640 * 32) 0
    tiles20 0 384 8 p
  else p

/-- The chrominance in function 2. -/
def uvCopies (ch : Ch) : List Copy :=
  let p : Pen := ⟨uvDst ch, 0, []⟩
  if ch.val ≤ 1 then (tiles20 0 0 20 (loop 5 wholeRow p)).copies
  else (loop 5 uvLowRow p).copies

/-! ## The black screen -/

/-- `memset(dst + d, .., 32 * lines)`: lines that are all from the same place. -/
def Pen.memset (p : Pen) (d lines : Nat) : Pen :=
  { p with copies := p.copies ++ (List.range lines).map fun l => ⟨p.dst + d + 32 * l, 0⟩ }

def blackTiles20 (d lines : Nat) : Pen → Pen :=
  loop 20 fun p _ => (p.memset d lines).move (32 * 32) 0

def wholeBlack (p : Pen) (_ : Nat) : Pen := (p.memset 0 640).move (1280 * 32) 0

def yLowBlack (p : Pen) (i : Nat) : Pen :=
  let p := (blackTiles20 256 24 p).move (640 * 32) 0
  let dst := p.dst
  let p := { blackTiles20 0 8 p with dst := dst }
  if i = 10 then (blackTiles20 256 8 p).move (640 * 32) 0 else p

/-- The luminance in function 3. -/
def yBlack (ch : Ch) : List Copy :=
  let p : Pen := ⟨yDst ch, 0, []⟩
  if ch.val ≤ 1 then (blackTiles20 0 8 (loop 11 wholeBlack p)).copies
  else (loop 11 yLowBlack p).copies

def uvLowBlack (p : Pen) (i : Nat) : Pen :=
  let p := (blackTiles20 640 12 p).move (640 * 32) 0
  let dst := p.dst
  let p := { blackTiles20 0 20 p with dst := dst }
  if i = 4 then blackTiles20 0 8 ((blackTiles20 640 12 p).move (640 * 32) 0) else p

/-- The chrominance in function 3. -/
def uvBlack (ch : Ch) : List Copy :=
  let p : Pen := ⟨uvDst ch, 0, []⟩
  if ch.val ≤ 1 then (blackTiles20 0 20 (loop 5 wholeBlack p)).copies
  else (loop 5 uvLowBlack p).copies

/-! ## The two functions -/

/-- What is drawn for a channel: a picture, or nothing but black. -/
inductive Picture
  | tiled (ySrc uvSrc : ByteFile)
  | black

/-- `copy_thr_copy_image` with the function 2, or 3 for black. -/
def copyThrCopyImage (ch : Ch) (picture : Picture) (dst : ByteFile) : ByteFile :=
  match picture with
  | .tiled ySrc uvSrc => run 32 uvSrc (run 32 ySrc dst (yCopies ch)) (uvCopies ch)
  | .black => run 32 (fun _ => 0x80) (run 32 (fun _ => 0) dst (yBlack ch)) (uvBlack ch)

end Nvr.Player.SplitScreen
