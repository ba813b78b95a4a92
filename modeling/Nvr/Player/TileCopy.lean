import Nvr.Lib.BlockCopy

/-!
# Tiled pictures

`copy_normal2MB` and `copy_mb_2normal` of `copy.c`. The decoder has its pictures in tiles
of 32 lines of 32 bytes, one tile behind the other; everybody else has them line
by line. Both functions move 32 bytes at a time (a load and a store of four NEON
registers), and both read their source from the front to the back.
-/

namespace Nvr.Player

open BlockCopy

/-- The size of a picture. Its width is a multiple of 32, and a buffer of whole tiles for it
is not larger than the memory. -/
structure TiledSize where
  height : UInt32
  width : UInt32
  mul32 : width.toNat % 32 = 0
  fits : width.toNat * (32 * ((height.toNat + 31) / 32)) ≤ 2 ^ 32

/-- The luminance that `copy_720p_MB2normal` passes on. -/
example : TiledSize := ⟨720, 1280, by decide, by decide⟩

/-- `for (i = 0; i < n; i++)`. -/
def upTo (n : UInt32) (body : Cursor → UInt32 → Cursor) (c : Cursor) : Cursor :=
  (List.range n.toNat).foldl (fun c i => body c (UInt32.ofNat i)) c

/-- The load from `src` and the store to `dst + offset`, and `src += 32`. -/
def copy32 (c : Cursor) (offset : UInt32) : Cursor := c.copy 32 offset.toNat

/-- `copy_mb_2normal`. -/
def copyMb2normal (width height : UInt32) : List Copy :=
  let mul32Line := height / 32
  let remLine := height - mul32Line * 32
  let mul32Col := width / 32
  let line (i j l : UInt32) (c : Cursor) : Cursor :=
    let m := (i <<< 5) + l
    let n := j <<< 5
    copy32 c (m * width + n)
  let c := upTo mul32Line (fun c i => upTo mul32Col (fun c j =>
    upTo 32 (fun c l => line i j l c) c) c) ⟨0, []⟩
  let c := upTo mul32Col (fun c j =>
    (upTo remLine (fun c l => line mul32Line j l c) c).skip (32 * (32 - remLine)).toNat) c
  c.copies

/-- `copy_normal2MB`. -/
def copyNormal2MB (height width : UInt32) : List Copy :=
  let height32 := height / 32
  let width32 := width / 32
  let remainHeight := height - height32 * 32
  let c := upTo height32 (fun c i => upTo 32 (fun c j => upTo width32 (fun c m =>
    copy32 c (32 * 32 * m + j * 32 + width32 * 32 * 32 * i)) c) c) ⟨0, []⟩
  let c := upTo remainHeight (fun c j => upTo width32 (fun c m =>
    copy32 c (32 * 32 * m + j * 32 + width32 * 32 * 32 * height32)) c) c
  c.copies

end Nvr.Player
