import Mathlib.Data.Fintype.Basic
import Mathlib.Logic.Function.Basic
import Mathlib.Tactic.FinCases
import Nvr.Player.SplitScreen

/-!
# Four pictures side by side

The loops of `copy_thr_copy_image` come down to lines of tiles: each line of a picture goes to one
line of the back image, in the quarter of its channel. So each channel shows what was last drawn
for it, whatever is drawn for the others and in which order, and what is in no quarter is left
alone.
-/

namespace Nvr.Player.SplitScreen

open BlockCopy

/-! ## Loops -/

theorem loop_succ (n : Nat) (f : Pen → Nat → Pen) (p : Pen) :
    loop (n + 1) f p = f (loop n f p) n := by
  simp [loop, List.range_succ]

theorem loop_eq {f : Pen → Nat → Pen} {a b n : Nat} {g : Nat → Nat → List Copy}
    (hf : ∀ p i, i < n → f p i = ⟨p.dst + a, p.src + b, p.copies ++ g p.dst p.src⟩) (p : Pen) :
    loop n f p = ⟨p.dst + a * n, p.src + b * n,
      p.copies ++ (List.range n).flatMap fun i => g (p.dst + a * i) (p.src + b * i)⟩ := by
  induction n with
  | zero => simp [loop]
  | succ n ih =>
      have hn := ih fun p i hi => hf p i (Nat.lt_succ_of_lt hi)
      rw [loop_succ, hn, hf _ _ (Nat.lt_succ_self n)]
      simp only [List.range_succ, List.flatMap_append, List.flatMap_singleton, List.append_assoc,
        Nat.mul_succ, Nat.add_assoc]

/-- Some lines of 20 tiles. -/
def block (dst src lines : Nat) : List Copy :=
  (List.range 20).flatMap fun j =>
    (List.range lines).map fun l => ⟨dst + 1024 * j + 32 * l, src + 1024 * j + 32 * l⟩

theorem mem_block {dst src lines : Nat} {c : Copy} : c ∈ block dst src lines ↔
    ∃ j < 20, ∃ l < lines, c = ⟨dst + 1024 * j + 32 * l, src + 1024 * j + 32 * l⟩ := by
  simp only [block, List.mem_flatMap, List.mem_map, List.mem_range, eq_comm]

theorem tiles20_eq (d s lines : Nat) (p : Pen) : tiles20 d s lines p =
    ⟨p.dst + 20480, p.src + 20480, p.copies ++ block (p.dst + d) (p.src + s) lines⟩ := by
  have hloop : tiles20 d s lines p = _ := loop_eq (a := 1024) (b := 1024)
    (g := fun dst src => (List.range lines).map fun l => ⟨dst + d + 32 * l, src + s + 32 * l⟩)
    (fun _ _ _ => rfl) p
  rw [hloop]
  simp only [block, Nat.add_right_comm]

/-! ## The lines of a picture -/

/-- A line of a tile in a picture of some width. -/
def lineAt (width tx y : Nat) : Nat := y / 32 * (32 * width) + 1024 * tx + 32 * (y % 32)

/-- The copies of `h` lines at `s`, to the lines from the `k`-th of the row of tiles at `d` on. -/
def Fills (cs : List Copy) (d s k h : Nat) : Prop :=
  ∀ c, c ∈ cs ↔ ∃ tx < 20, ∃ y < h, c = ⟨d + lineAt 1280 tx (k + y), s + lineAt 640 tx y⟩

variable {cs last : List Copy} {d s k h n a b : Nat}

/-- The lines are in one row of tiles. -/
theorem fills_block (hk : k + h ≤ 32) : Fills (block (d + 32 * k) s h) d s k h := by
  intro c
  rw [mem_block]
  constructor
  · rintro ⟨j, hj, l, hl, rfl⟩
    refine ⟨j, hj, l, hl, ?_⟩
    simp only [Copy.mk.injEq, lineAt]
    omega
  · rintro ⟨tx, htx, y, hy, rfl⟩
    refine ⟨tx, htx, y, hy, ?_⟩
    simp only [Copy.mk.injEq, lineAt]
    omega

/-- The lines are in two rows. -/
theorem fills_two (hk : k + a = 32) (hb : a + b ≤ 32) :
    Fills (block (d + 32 * k) s a ++ block (d + 40960) (s + 32 * a) b) d s k (a + b) := by
  intro c
  rw [List.mem_append, mem_block, mem_block]
  constructor
  · rintro (⟨j, hj, l, hl, rfl⟩ | ⟨j, hj, l, hl, rfl⟩)
    · refine ⟨j, hj, l, by omega, ?_⟩
      simp only [Copy.mk.injEq, lineAt]
      omega
    · refine ⟨j, hj, a + l, by omega, ?_⟩
      simp only [Copy.mk.injEq, lineAt]
      omega
  · rintro ⟨tx, htx, y, hy, rfl⟩
    by_cases hfirst : y < a
    · refine .inl ⟨tx, htx, y, hfirst, ?_⟩
      simp only [Copy.mk.injEq, lineAt]
      omega
    · refine .inr ⟨tx, htx, y - a, by omega, ?_⟩
      simp only [Copy.mk.injEq, lineAt]
      omega

/-- A `memcpy` of a whole row of tiles. -/
theorem fills_whole :
    Fills ((List.range 640).map fun l => ⟨d + 32 * l, s + 32 * l⟩) d s 0 32 := by
  intro c
  rw [List.mem_map]
  constructor
  · rintro ⟨l, hl, rfl⟩
    have hl := List.mem_range.1 hl
    refine ⟨l / 32, by omega, l % 32, by omega, ?_⟩
    simp only [Copy.mk.injEq, lineAt]
    omega
  · rintro ⟨tx, htx, y, hy, rfl⟩
    refine ⟨32 * tx + y, List.mem_range.2 (by omega), ?_⟩
    simp only [Copy.mk.injEq, lineAt]
    omega

/-- Rows one below the other, and the lines after the last of them. -/
theorem Fills.rows {g : Nat → Nat → List Copy} (hg : ∀ d s, Fills (g d s) d s k 32)
    (hlast : Fills last (d + 40960 * n) (s + 20480 * n) k h) :
    Fills (((List.range n).flatMap fun i => g (d + 40960 * i) (s + 20480 * i)) ++ last)
      d s k (32 * n + h) := by
  intro c
  rw [List.mem_append, List.mem_flatMap, hlast c]
  constructor
  · rintro (⟨i, hi, hc⟩ | ⟨tx, htx, y, hy, rfl⟩)
    · obtain ⟨tx, htx, y, hy, rfl⟩ := (hg _ _ c).1 hc
      have hi := List.mem_range.1 hi
      refine ⟨tx, htx, 32 * i + y, by omega, ?_⟩
      simp only [Copy.mk.injEq, lineAt]
      omega
    · refine ⟨tx, htx, 32 * n + y, by omega, ?_⟩
      simp only [Copy.mk.injEq, lineAt]
      omega
  · rintro ⟨tx, htx, y, hy, rfl⟩
    by_cases hrow : y < 32 * n
    · refine .inl ⟨y / 32, List.mem_range.2 (by omega), (hg _ _ _).2 ?_⟩
      refine ⟨tx, htx, y % 32, by omega, ?_⟩
      simp only [Copy.mk.injEq, lineAt]
      omega
    · refine .inr ⟨tx, htx, y - 32 * n, by omega, ?_⟩
      simp only [Copy.mk.injEq, lineAt]
      omega

/-- The upper quarters. -/
theorem fills_top (n rest : Nat) (hrest : rest ≤ 32) :
    Fills (tiles20 0 0 rest (loop n wholeRow ⟨d, 0, []⟩)).copies d 0 0 (32 * n + rest) := by
  have hloop := loop_eq (f := wholeRow) (a := 40960) (b := 20480) (n := n)
    (g := fun dst src => (List.range 640).map fun l => ⟨dst + 32 * l, src + 32 * l⟩)
    (fun _ _ _ => rfl) ⟨d, 0, []⟩
  have hlast : Fills (block (d + 40960 * n) (0 + 20480 * n) rest)
      (d + 40960 * n) (0 + 20480 * n) 0 rest :=
    fills_block (k := 0) (by omega)
  have hrows := Fills.rows (fun _ _ => fills_whole) hlast
  rw [hloop, tiles20_eq]
  simpa only [List.nil_append, Nat.add_zero] using hrows

/-- The two parts of a row that is put into two rows of tiles. -/
def parts (k dst src : Nat) : List Copy :=
  block (dst + 32 * k) src (32 - k) ++ block (dst + 40960) (src + 32 * (32 - k)) k

theorem fills_parts (hk : k ≤ 32) : Fills (parts k d s) d s k 32 := by
  have htwo := fills_two (d := d) (s := s) (k := k) (a := 32 - k) (b := k) (by omega) (by omega)
  rwa [Nat.sub_add_cancel hk] at htwo

theorem yLowRow_eq {p : Pen} {i : Nat} (hi : i < 10) :
    yLowRow p i = ⟨p.dst + 40960, p.src + 20480, p.copies ++ parts 8 p.dst p.src⟩ := by
  simp only [yLowRow, tiles20_eq, Pen.move, if_neg (Nat.ne_of_lt hi), parts, List.append_assoc,
    Nat.add_zero, Nat.add_assoc, Nat.reduceAdd, Nat.reduceMul, Nat.reduceSub]

theorem copies_yLowRow_last (p : Pen) : (yLowRow p 10).copies =
    p.copies ++ parts 8 p.dst p.src ++ block (p.dst + 40960 + 32 * 8) (p.src + 20480) 8 := by
  simp only [yLowRow, tiles20_eq, Pen.move, if_true, parts, List.append_assoc,
    Nat.add_zero, Nat.add_assoc, Nat.reduceAdd, Nat.reduceMul, Nat.reduceSub]

theorem uvLowRow_eq {p : Pen} {i : Nat} (hi : i < 4) :
    uvLowRow p i = ⟨p.dst + 40960, p.src + 20480, p.copies ++ parts 20 p.dst p.src⟩ := by
  simp only [uvLowRow, tiles20_eq, Pen.move, if_neg (Nat.ne_of_lt hi), parts, List.append_assoc,
    Nat.add_zero, Nat.add_assoc, Nat.reduceAdd, Nat.reduceMul, Nat.reduceSub]

theorem copies_uvLowRow_last (p : Pen) : (uvLowRow p 4).copies =
    p.copies ++ parts 20 p.dst p.src ++ (block (p.dst + 40960 + 32 * 20) (p.src + 20480) 12 ++
      block (p.dst + 40960 + 40960) (p.src + 20480 + 32 * 12) 8) := by
  simp only [uvLowRow, tiles20_eq, Pen.move, if_true, parts, List.append_assoc,
    Nat.add_zero, Nat.add_assoc, Nat.reduceAdd, Nat.reduceMul, Nat.reduceSub]

/-- A lower quarter: rows in two parts, and the lines that the last round has behind its row. -/
theorem fills_low {f : Pen → Nat → Pen} (extra : Nat → Nat → List Copy) (hk : k ≤ 32)
    (hrow : ∀ p i, i < n →
      f p i = ⟨p.dst + 40960, p.src + 20480, p.copies ++ parts k p.dst p.src⟩)
    (hlast : ∀ p, (f p n).copies =
      p.copies ++ parts k p.dst p.src ++ extra (p.dst + 40960) (p.src + 20480))
    (hextra : ∀ d s, Fills (extra d s) d s k h) :
    Fills (loop (n + 1) f ⟨d, 0, []⟩).copies d 0 k (32 * (n + 1) + h) := by
  have hloop := loop_eq (g := parts k) hrow ⟨d, 0, []⟩
  have hrows := Fills.rows (g := parts k) (n := n + 1) (fun _ _ => fills_parts hk)
    (hextra (d + 40960 * (n + 1)) (0 + 20480 * (n + 1)))
  rw [loop_succ, hlast, hloop]
  simpa only [List.range_succ, List.flatMap_append, List.flatMap_singleton, List.nil_append,
    Nat.mul_succ, Nat.add_assoc] using hrows

theorem fills_yLow : Fills (loop 11 yLowRow ⟨d, 0, []⟩).copies d 0 8 360 :=
  fills_low (fun d s => block (d + 32 * 8) s 8) (by decide) (fun _ _ hi => yLowRow_eq hi)
    copies_yLowRow_last fun _ _ => fills_block (by decide)

theorem fills_uvLow : Fills (loop 5 uvLowRow ⟨d, 0, []⟩).copies d 0 20 180 :=
  fills_low (fun d s => block (d + 32 * 20) s 12 ++ block (d + 40960) (s + 32 * 12) 8)
    (by decide) (fun _ _ hi => uvLowRow_eq hi) copies_uvLowRow_last
    fun _ _ => fills_two (by decide) (by decide)

/-! ## Quarters -/

/-- The copies of a picture of `h` lines, to the quarter of a channel. -/
def Draws (cs : List Copy) (base h : Nat) (ch : Ch) : Prop :=
  ∀ c, c ∈ cs ↔ ∃ tx < 20, ∃ y < h,
    c = ⟨base + lineAt 1280 (20 * (ch.val % 2) + tx) (h * (ch.val / 2) + y), lineAt 640 tx y⟩

variable {base : Nat} {ch : Ch}

theorem Fills.draws (hcs : Fills cs d 0 k h) (hd : ∀ tx y, d + lineAt 1280 tx (k + y) =
    base + lineAt 1280 (20 * (ch.val % 2) + tx) (h * (ch.val / 2) + y)) : Draws cs base h ch := by
  intro c
  rw [hcs c]
  simp only [hd, Nat.zero_add]

theorem draws_yCopies (ch : Ch) : Draws (yCopies ch) 0 360 ch := by
  fin_cases ch
  · exact (fills_top 11 8 (by decide)).draws fun tx y => by simp [yDst, lineAt]
  · exact (fills_top 11 8 (by decide)).draws fun tx y => by simp [yDst, lineAt]; omega
  · exact fills_yLow.draws fun tx y => by simp [yDst, lineAt]; omega
  · exact fills_yLow.draws fun tx y => by simp [yDst, lineAt]; omega

theorem draws_uvCopies (ch : Ch) : Draws (uvCopies ch) (1280 * 736) 180 ch := by
  fin_cases ch
  · exact (fills_top 5 20 (by decide)).draws fun tx y => by simp [uvDst, lineAt]
  · exact (fills_top 5 20 (by decide)).draws fun tx y => by simp [uvDst, lineAt]; omega
  · exact fills_uvLow.draws fun tx y => by simp [uvDst, lineAt]; omega
  · exact fills_uvLow.draws fun tx y => by simp [uvDst, lineAt]; omega

/-! ## Black goes where a picture goes -/

/-- A pen that has written the same lines and read nothing. -/
def Pen.blank (p : Pen) : Pen := ⟨p.dst, 0, p.copies.map fun c => ⟨c.dst, 0⟩⟩

@[simp] theorem blank_memcpy (p : Pen) (d s lines : Nat) :
    (p.memcpy d s lines).blank = p.blank.memset d lines := by
  simp [Pen.blank, Pen.memcpy, Pen.memset]

@[simp] theorem blank_move (p : Pen) (d s : Nat) : (p.move d s).blank = p.blank.move d 0 := by
  cases p
  rfl

@[simp] theorem blank_withSrc (p : Pen) (src : Nat) :
    Pen.blank ⟨p.dst, src, p.copies⟩ = p.blank := by
  cases p
  rfl

@[simp] theorem blank_withDst (p q : Pen) :
    Pen.blank ⟨q.dst, p.src, p.copies⟩ = ⟨q.blank.dst, p.blank.src, p.blank.copies⟩ := by
  cases p
  cases q
  rfl

theorem blank_start (d : Nat) : Pen.blank ⟨d, 0, []⟩ = ⟨d, 0, []⟩ := rfl

theorem blank_loop {f g : Pen → Nat → Pen} (hfg : ∀ p i, (f p i).blank = g p.blank i) (n : Nat)
    (p : Pen) : (loop n f p).blank = loop n g p.blank := by
  induction n with
  | zero => rfl
  | succ n ih => rw [loop_succ, loop_succ, hfg, ih]

@[simp] theorem blank_tiles20 (d s lines : Nat) (p : Pen) :
    (tiles20 d s lines p).blank = blackTiles20 d lines p.blank :=
  blank_loop (fun p _ => by simp) 20 p

theorem blank_wholeRow (p : Pen) (i : Nat) : (wholeRow p i).blank = wholeBlack p.blank i := by
  simp [wholeRow, wholeBlack]

theorem blank_yLowRow (p : Pen) (i : Nat) : (yLowRow p i).blank = yLowBlack p.blank i := by
  by_cases hi : i = 10
  · simp [yLowRow, yLowBlack, hi]
  · simp [yLowRow, yLowBlack, hi]

theorem blank_uvLowRow (p : Pen) (i : Nat) : (uvLowRow p i).blank = uvLowBlack p.blank i := by
  by_cases hi : i = 4
  · simp [uvLowRow, uvLowBlack, hi]
  · simp [uvLowRow, uvLowBlack, hi]

theorem copies_of_blank {p q : Pen} (hpq : p.blank = q) :
    q.copies = p.copies.map fun c => ⟨c.dst, 0⟩ := by
  rw [← hpq]
  rfl

theorem blank_top (n lines d : Nat) : (tiles20 0 0 lines (loop n wholeRow ⟨d, 0, []⟩)).blank =
    blackTiles20 0 lines (loop n wholeBlack ⟨d, 0, []⟩) := by
  rw [blank_tiles20, blank_loop blank_wholeRow, blank_start]

theorem yBlack_eq (ch : Ch) : yBlack ch = (yCopies ch).map fun c => ⟨c.dst, 0⟩ := by
  by_cases hch : ch.val ≤ 1
  · rw [yBlack, yCopies, if_pos hch, if_pos hch]
    exact copies_of_blank (blank_top 11 8 _)
  · have hlow := blank_loop blank_yLowRow 11 ⟨yDst ch, 0, []⟩
    rw [blank_start] at hlow
    rw [yBlack, yCopies, if_neg hch, if_neg hch]
    exact copies_of_blank hlow

theorem uvBlack_eq (ch : Ch) : uvBlack ch = (uvCopies ch).map fun c => ⟨c.dst, 0⟩ := by
  by_cases hch : ch.val ≤ 1
  · rw [uvBlack, uvCopies, if_pos hch, if_pos hch]
    exact copies_of_blank (blank_top 5 20 _)
  · have hlow := blank_loop blank_uvLowRow 5 ⟨uvDst ch, 0, []⟩
    rw [blank_start] at hlow
    rw [uvBlack, uvCopies, if_neg hch, if_neg hch]
    exact copies_of_blank hlow

/-! ## Pixels -/

/-- Where a pixel is in a picture of tiles. -/
def tiled (width x y : Nat) : Nat := lineAt width (x / 32) y + x % 32

/-- The byte of a back image that a pixel of a quarter has. -/
def pixel (base h : Nat) (ch : Ch) (x y : Nat) : Nat :=
  base + tiled 1280 (640 * (ch.val % 2) + x) (h * (ch.val / 2) + y)

/-- The copies put a picture of `h` lines into the quarter of a channel. -/
structure Paints (src : ByteFile) (cs : List Copy) (base h : Nat) (ch : Ch)
    (value : Nat → Nat → UInt8) : Prop where
  line : ∀ c ∈ cs, ∃ tx < 20, ∃ y < h,
    c.dst = base + lineAt 1280 (20 * (ch.val % 2) + tx) (h * (ch.val / 2) + y) ∧
    ∀ r < 32, src (c.src + r) = value (32 * tx + r) y
  all : ∀ tx < 20, ∀ y < h, ∃ c ∈ cs,
    c.dst = base + lineAt 1280 (20 * (ch.val % 2) + tx) (h * (ch.val / 2) + y)

theorem Draws.paints (hcs : Draws cs base h ch) (src : ByteFile) :
    Paints src cs base h ch fun x y => src (tiled 640 x y) where
  line c hc := by
    obtain ⟨tx, htx, y, hy, rfl⟩ := (hcs c).1 hc
    refine ⟨tx, htx, y, hy, rfl, fun r hr => congrArg src ?_⟩
    simp only [tiled, lineAt]
    omega
  all tx htx y hy := ⟨_, (hcs _).2 ⟨tx, htx, y, hy, rfl⟩, rfl⟩

theorem Draws.paints_one (hcs : Draws cs base h ch) (v : UInt8) :
    Paints (fun _ => v) (cs.map fun c => ⟨c.dst, 0⟩) base h ch fun _ _ => v where
  line c hc := by
    obtain ⟨painted, hpainted, rfl⟩ := List.mem_map.1 hc
    obtain ⟨tx, htx, y, hy, rfl⟩ := (hcs painted).1 hpainted
    exact ⟨tx, htx, y, hy, rfl, fun _ _ => rfl⟩
  all tx htx y hy := ⟨_, List.mem_map_of_mem ((hcs _).2 ⟨tx, htx, y, hy, rfl⟩), rfl⟩

/-- A byte is in one line only. -/
theorem lineAt_inj {tx tx' y y' r r' : Nat} (htx : tx < 40) (htx' : tx' < 40) (hr : r < 32)
    (hr' : r' < 32) (heq : lineAt 1280 tx y + r = lineAt 1280 tx' y' + r') :
    tx = tx' ∧ y = y' ∧ r = r' := by
  simp only [lineAt] at heq
  omega

section Paints

variable {src mem : ByteFile} {value : Nat → Nat → UInt8} {x y p : Nat}

/-- What a line covers is the pixels of one tile. -/
theorem Paints.covers (hcs : Paints src cs base h ch value) {c : Copy} (hc : c ∈ cs)
    (hcovers : c.Covers 32 p) : ∃ x < 640, ∃ y < h, p = pixel base h ch x y ∧
      src (c.src + (p - c.dst)) = value x y := by
  obtain ⟨tx, htx, y, hy, hdst, hsrc⟩ := hcs.line c hc
  obtain ⟨hlow, hhigh⟩ := hcovers
  refine ⟨32 * tx + (p - c.dst), by omega, y, hy, ?_, hsrc _ (by omega)⟩
  have htile : (640 * (ch.val % 2) + (32 * tx + (p - c.dst))) / 32 = 20 * (ch.val % 2) + tx := by
    omega
  rw [pixel, tiled, htile]
  omega

theorem pixel_inj {ch' : Ch} {x' y' : Nat} (hx : x < 640) (hx' : x' < 640) (hy : y < h)
    (hy' : y' < h) (heq : pixel base h ch x y = pixel base h ch' x' y') :
    ch = ch' ∧ x = x' ∧ y = y' := by
  have hlines : tiled 1280 (640 * (ch.val % 2) + x) (h * (ch.val / 2) + y) =
      tiled 1280 (640 * (ch'.val % 2) + x') (h * (ch'.val / 2) + y') := Nat.add_left_cancel heq
  rw [tiled, tiled] at hlines
  obtain ⟨htx, hrow, hr⟩ := lineAt_inj (by omega) (by omega) (Nat.mod_lt _ (by decide))
    (Nat.mod_lt _ (by decide)) hlines
  have hleft : ch.val % 2 = ch'.val % 2 := by omega
  have hdiv : (h * (ch.val / 2) + y) / h = (h * (ch'.val / 2) + y') / h := by rw [hrow]
  rw [Nat.mul_add_div (by omega), Nat.mul_add_div (by omega), Nat.div_eq_of_lt hy,
    Nat.div_eq_of_lt hy'] at hdiv
  have hch : ch = ch' := Fin.ext (by omega)
  subst hch
  exact ⟨rfl, by omega, Nat.add_left_cancel hrow⟩

theorem Paints.run_pixel (hcs : Paints src cs base h ch value) (hx : x < 640) (hy : y < h) :
    run 32 src mem cs (pixel base h ch x y) = value x y := by
  refine run_apply_of_agree ?_ ?_
  · intro c hc hcovers
    obtain ⟨x', hx', y', hy', heq, hvalue⟩ := hcs.covers hc hcovers
    obtain ⟨-, rfl, rfl⟩ := pixel_inj hx hx' hy hy' heq
    exact hvalue
  · obtain ⟨c, hc, hdst⟩ := hcs.all (x / 32) (by omega) y hy
    refine ⟨c, hc, ?_⟩
    have htile : (640 * (ch.val % 2) + x) / 32 = 20 * (ch.val % 2) + x / 32 := by omega
    have hrest : (640 * (ch.val % 2) + x) % 32 = x % 32 := by omega
    rw [pixel, tiled, htile, hrest, Copy.Covers, hdst]
    omega

theorem Paints.run_of_not (hcs : Paints src cs base h ch value)
    (hp : ∀ x < 640, ∀ y < h, p ≠ pixel base h ch x y) : run 32 src mem cs p = mem p := by
  refine run_apply_of_not fun c hc hcovers => ?_
  obtain ⟨x, hx, y, hy, heq, -⟩ := hcs.covers hc hcovers
  exact hp x hx y hy heq

end Paints

/-! ## What the back image shows -/

/-- A pixel of the luminance of a picture. -/
def Picture.y (picture : Picture) (x y : Nat) : UInt8 :=
  match picture with
  | .tiled ySrc _ => ySrc (SplitScreen.tiled 640 x y)
  | .black => 0

/-- A byte of its chrominance. -/
def Picture.uv (picture : Picture) (x y : Nat) : UInt8 :=
  match picture with
  | .tiled _ uvSrc => uvSrc (SplitScreen.tiled 640 x y)
  | .black => 0x80

def yPixel (ch : Ch) (x y : Nat) : Nat := pixel 0 360 ch x y

def uvPixel (ch : Ch) (x y : Nat) : Nat := pixel (1280 * 736) 180 ch x y

/-- Both functions paint the luminance and then the chrominance. -/
theorem exists_paints (ch : Ch) (picture : Picture) : ∃ ySrc uvSrc ys uvs,
    (∀ mem, copyThrCopyImage ch picture mem = run 32 uvSrc (run 32 ySrc mem ys) uvs) ∧
    Paints ySrc ys 0 360 ch picture.y ∧ Paints uvSrc uvs (1280 * 736) 180 ch picture.uv := by
  cases picture with
  | tiled ySrc uvSrc =>
      exact ⟨ySrc, uvSrc, yCopies ch, uvCopies ch, fun _ => rfl, (draws_yCopies ch).paints ySrc,
        (draws_uvCopies ch).paints uvSrc⟩
  | black =>
      refine ⟨fun _ => 0, fun _ => 0x80, yBlack ch, uvBlack ch, fun _ => rfl, ?_, ?_⟩
      · rw [yBlack_eq]
        exact (draws_yCopies ch).paints_one 0
      · rw [uvBlack_eq]
        exact (draws_uvCopies ch).paints_one 0x80

/-- The luminance lies before the chrominance. -/
theorem yPixel_ne_uvPixel {ch ch' : Ch} {x y x' y' : Nat} (hx : x < 640) (hy : y < 360) :
    yPixel ch x y ≠ uvPixel ch' x' y' := by
  have hch := ch.isLt
  have hrow : 360 * (ch.val / 2) + y < 720 := by omega
  simp only [yPixel, uvPixel, pixel, tiled, lineAt]
  omega

variable {ch ch' : Ch} {picture : Picture} {mem : ByteFile} {x y p : Nat}

theorem draw_yPixel (hx : x < 640) (hy : y < 360) :
    copyThrCopyImage ch picture mem (yPixel ch x y) = picture.y x y := by
  obtain ⟨ySrc, uvSrc, ys, uvs, hdraw, hys, huvs⟩ := exists_paints ch picture
  rw [hdraw, huvs.run_of_not fun x' _ y' _ => yPixel_ne_uvPixel hx hy]
  exact hys.run_pixel hx hy

theorem draw_uvPixel (hx : x < 640) (hy : y < 180) :
    copyThrCopyImage ch picture mem (uvPixel ch x y) = picture.uv x y := by
  obtain ⟨ySrc, uvSrc, ys, uvs, hdraw, -, huvs⟩ := exists_paints ch picture
  rw [hdraw]
  exact huvs.run_pixel hx hy

theorem draw_of_not (hys : ∀ x < 640, ∀ y < 360, p ≠ yPixel ch x y)
    (huvs : ∀ x < 640, ∀ y < 180, p ≠ uvPixel ch x y) :
    copyThrCopyImage ch picture mem p = mem p := by
  obtain ⟨ySrc, uvSrc, ys, uvs, hdraw, hypaints, huvpaints⟩ := exists_paints ch picture
  rw [hdraw, huvpaints.run_of_not huvs]
  exact hypaints.run_of_not hys

theorem draw_yPixel_other (hch : ch' ≠ ch) (hx : x < 640) (hy : y < 360) :
    copyThrCopyImage ch picture mem (yPixel ch' x y) = mem (yPixel ch' x y) := by
  refine draw_of_not (fun x' hx' y' hy' heq => ?_) fun _ _ _ _ => yPixel_ne_uvPixel hx hy
  exact hch (pixel_inj hx hx' hy hy' heq).1

theorem draw_uvPixel_other (hch : ch' ≠ ch) (hx : x < 640) (hy : y < 180) :
    copyThrCopyImage ch picture mem (uvPixel ch' x y) = mem (uvPixel ch' x y) := by
  refine draw_of_not (fun x' hx' y' hy' heq => ?_) fun x' hx' y' hy' heq => ?_
  · exact yPixel_ne_uvPixel hx' hy' heq.symm
  · exact hch (pixel_inj hx hx' hy hy' heq).1

/-! ## Runs -/

/-- The back image that some draws leave: each channel has what was last drawn for it, and the bytes
of no channel are as they were. -/
structure Shows (shown : Ch → Option Picture) (before after : ByteFile) : Prop where
  y : ∀ (ch : Ch) (x : Fin 640) (y : Fin 360), after (yPixel ch x y) =
    ((shown ch).map fun picture => picture.y x y).getD (before (yPixel ch x y))
  uv : ∀ (ch : Ch) (x : Fin 640) (y : Fin 180), after (uvPixel ch x y) =
    ((shown ch).map fun picture => picture.uv x y).getD (before (uvPixel ch x y))
  rest : ∀ p, (∃ (ch : Ch) (x : Fin 640) (y : Fin 360), p = yPixel ch x y) ∨
    (∃ (ch : Ch) (x : Fin 640) (y : Fin 180), p = uvPixel ch x y) ∨ after p = before p

/-- What was last drawn for each channel. -/
def lastDrawn (draws : List (Ch × Picture)) (shown : Ch → Option Picture) : Ch → Option Picture :=
  draws.foldl (fun shown d => Function.update shown d.1 (some d.2)) shown

/-- The back image after some draws. -/
def drawAll (draws : List (Ch × Picture)) (mem : ByteFile) : ByteFile :=
  draws.foldl (fun mem d => copyThrCopyImage d.1 d.2 mem) mem

theorem Shows.start (mem : ByteFile) : Shows (fun _ => none) mem mem where
  y _ _ _ := rfl
  uv _ _ _ := rfl
  rest _ := .inr (.inr rfl)

/-- A draw replaces what one channel shows. -/
theorem Shows.draw {shown : Ch → Option Picture} {before : ByteFile}
    (hshows : Shows shown before mem) (ch : Ch) (picture : Picture) :
    Shows (Function.update shown ch (some picture)) before (copyThrCopyImage ch picture mem) where
  y ch' x y := by
    by_cases hch : ch' = ch
    · subst hch
      rw [Function.update_self, draw_yPixel x.isLt y.isLt]
      rfl
    · rw [Function.update_of_ne hch, draw_yPixel_other hch x.isLt y.isLt]
      exact hshows.y ch' x y
  uv ch' x y := by
    by_cases hch : ch' = ch
    · subst hch
      rw [Function.update_self, draw_uvPixel x.isLt y.isLt]
      rfl
    · rw [Function.update_of_ne hch, draw_uvPixel_other hch x.isLt y.isLt]
      exact hshows.uv ch' x y
  rest p := by
    by_cases hy : ∃ (ch : Ch) (x : Fin 640) (y : Fin 360), p = yPixel ch x y
    · exact .inl hy
    · by_cases huv : ∃ (ch : Ch) (x : Fin 640) (y : Fin 180), p = uvPixel ch x y
      · exact .inr (.inl huv)
      · have hkept : copyThrCopyImage ch picture mem p = mem p := by
          refine draw_of_not (fun x hx y hy' heq => ?_) fun x hx y hy' heq => ?_
          · exact hy ⟨ch, ⟨x, hx⟩, ⟨y, hy'⟩, heq⟩
          · exact huv ⟨ch, ⟨x, hx⟩, ⟨y, hy'⟩, heq⟩
        have hbefore := ((hshows.rest p).resolve_left hy).resolve_left huv
        exact .inr (.inr (hkept.trans hbefore))

theorem Shows.drawAll {shown : Ch → Option Picture} {before : ByteFile}
    (draws : List (Ch × Picture)) (hshows : Shows shown before mem) :
    Shows (lastDrawn draws shown) before (drawAll draws mem) := by
  induction draws generalizing shown mem with
  | nil => exact hshows
  | cons d draws ih => exact ih (hshows.draw d.1 d.2)

/-- After any draws for any channels, each quarter of the back image shows what was last drawn for
its channel, or what it showed before the first draw if there was none; no other byte is written. -/
theorem quarters_show_last_drawn (draws : List (Ch × Picture)) (mem : ByteFile) :
    Shows (lastDrawn draws fun _ => none) mem (drawAll draws mem) :=
  (Shows.start mem).drawAll draws

end Nvr.Player.SplitScreen
