import Mathlib.Tactic.Ring
import Nvr.Player.TileCopy

/-!
# Linear to tiled and back

The two functions copy the same blocks, one the other way round (`lineAt` and `tileAt`
are the places of a block in the linear and in the tiled picture). Each reads its
source from the front to the back, so it takes no block twice, and different blocks
have different places in both pictures.
-/

namespace Nvr.Player

open BlockCopy

namespace TiledSize

variable (s : TiledSize)

/-- The lines of the picture. -/
def rows : Nat := s.height.toNat

/-- The blocks of a line. -/
def cols : Nat := s.width.toNat / 32

/-- The blocks of a column of tiles. -/
def tiles : Nat := (s.height.toNat + 31) / 32

theorem width_eq : s.width.toNat = 32 * s.cols := by
  have h := s.mul32
  rw [cols]
  omega

/-- A block in the linear picture: its line, and which one it is. -/
def lineAt (row m : Nat) : Nat := row * (32 * s.cols) + 32 * m

/-- The block in the tiled picture. -/
def tileAt (row m : Nat) : Nat := 1024 * (row / 32 * s.cols + m) + 32 * (row % 32)

/-- The size of the tiled picture. -/
def tiledBytes : Nat := s.width.toNat * (32 * s.tiles)

variable {s} {row row' m m' : Nat}

theorem lineAt_lt (hrow : row < s.rows) (hm : m < s.cols) :
    s.lineAt row m + 32 ≤ s.width.toNat * s.rows := by
  have hle : (row + 1) * (32 * s.cols) ≤ s.rows * (32 * s.cols) := Nat.mul_le_mul_right _ hrow
  have hexpand : (row + 1) * (32 * s.cols) = row * (32 * s.cols) + 32 * s.cols := by ring
  rw [lineAt, s.width_eq, Nat.mul_comm (32 * s.cols)]
  omega

theorem tileAt_lt (hrow : row < s.rows) (hm : m < s.cols) :
    s.tileAt row m + 32 ≤ s.tiledBytes := by
  have htile : row / 32 < s.tiles := by
    rw [rows] at hrow
    rw [tiles]
    omega
  have hle : (row / 32 + 1) * s.cols ≤ s.tiles * s.cols := Nat.mul_le_mul_right _ htile
  have hexpand : (row / 32 + 1) * s.cols = row / 32 * s.cols + s.cols := by ring
  have hbytes : s.tiledBytes = 1024 * (s.tiles * s.cols) := by
    rw [tiledBytes, s.width_eq]
    ring
  rw [tileAt, hbytes]
  omega

theorem lineBytes_le (s : TiledSize) : s.width.toNat * s.rows ≤ 2 ^ 32 := by
  refine Nat.le_trans (Nat.mul_le_mul_left _ ?_) s.fits
  rw [rows]
  omega

/-- A pair below the bounds is known by its number. -/
theorem eq_of_mul_add {w a b x y : Nat} (hx : x < w) (hy : y < w) (h : a * w + x = b * w + y) :
    a = b ∧ x = y := by
  have hdiv := congrArg (· / w) h
  simp only [Nat.mul_comm _ w, Nat.mul_add_div (by omega : 0 < w), Nat.div_eq_of_lt hx,
    Nat.div_eq_of_lt hy, Nat.add_zero] at hdiv
  subst hdiv
  exact ⟨rfl, by omega⟩

theorem lineAt_inj (hm : m < s.cols) (hm' : m' < s.cols)
    (h : s.lineAt row m < s.lineAt row' m' + 32) (h' : s.lineAt row' m' < s.lineAt row m + 32) :
    row = row' ∧ m = m' := by
  have hline : ∀ row m, s.lineAt row m = 32 * (row * s.cols + m) := by
    intro row m
    rw [lineAt]
    ring
  rw [hline, hline] at h h'
  exact eq_of_mul_add hm hm' (by omega)

theorem tileAt_inj (hm : m < s.cols) (hm' : m' < s.cols)
    (h : s.tileAt row m < s.tileAt row' m' + 32) (h' : s.tileAt row' m' < s.tileAt row m + 32) :
    row = row' ∧ m = m' := by
  rw [tileAt, tileAt] at h h'
  obtain ⟨hq, rfl⟩ := eq_of_mul_add (a := row / 32) (b := row' / 32) hm hm' (by omega)
  exact ⟨by omega, rfl⟩

end TiledSize

/-! ## The offsets -/

variable {s : TiledSize}

theorem tileOffset_eq (w i j m : Nat) :
    32 * 32 * UInt32.ofNat m + UInt32.ofNat j * 32 + UInt32.ofNat w * 32 * 32 * UInt32.ofNat i =
      UInt32.ofNat (1024 * (i * w + m) + 32 * j) := by
  rw [UInt32.ofNat_add, UInt32.ofNat_mul, UInt32.ofNat_add, UInt32.ofNat_mul, UInt32.ofNat_mul]
  have h32 : UInt32.ofNat 32 = 32 := rfl
  have h1024 : UInt32.ofNat 1024 = 1024 := rfl
  rw [h32, h1024]
  grind

theorem lineOffset_eq (w i j l : Nat) :
    ((UInt32.ofNat i <<< 5) + UInt32.ofNat l) * UInt32.ofNat (32 * w) + (UInt32.ofNat j <<< 5) =
      UInt32.ofNat ((32 * i + l) * (32 * w) + 32 * j) := by
  have hshift : ∀ a : Nat, UInt32.ofNat a <<< 5 = UInt32.ofNat (32 * a) := by
    intro a
    have h := UInt32.ofNat_shiftLeft a 5 (by decide)
    rw [Nat.shiftLeft_eq, Nat.mul_comm] at h
    exact h.symm
  rw [hshift, hshift, ← UInt32.ofNat_add, ← UInt32.ofNat_mul, ← UInt32.ofNat_add]

theorem toNat_offset {n : Nat} (h : n + 32 ≤ 2 ^ 32) : (UInt32.ofNat n).toNat = n := by
  rw [UInt32.toNat_ofNat', Nat.mod_eq_of_lt]
  omega

theorem upTo_eq {n : UInt32} {body : Cursor → UInt32 → Cursor} {a : Nat}
    {g : Nat → Nat → List Copy}
    (hbody : ∀ c i, body c (UInt32.ofNat i) = ⟨c.src + a, c.copies ++ g i c.src⟩) (c : Cursor) :
    upTo n body c = ⟨c.src + a * n.toNat,
      c.copies ++ (List.range n.toNat).flatMap fun i => g i (c.src + a * i)⟩ :=
  loop_eq hbody c n.toNat

theorem width_div (s : TiledSize) : (s.width / 32).toNat = s.cols := UInt32.toNat_div ..

theorem height_div (s : TiledSize) : (s.height / 32).toNat = s.rows / 32 := UInt32.toNat_div ..

theorem height_rest (s : TiledSize) : (s.height - s.height / 32 * 32).toNat = s.rows % 32 := by
  have hlt := s.height.toNat_lt
  have hmul : (s.height / 32 * 32).toNat = s.rows / 32 * 32 := by
    rw [UInt32.toNat_mul, height_div, Nat.mod_eq_of_lt]
    · rfl
    · rw [TiledSize.rows]
      show s.height.toNat / 32 * 32 < _
      omega
  rw [UInt32.toNat_sub_of_le]
  · rw [hmul, TiledSize.rows]
    omega
  · rw [UInt32.le_iff_toNat_le, hmul, TiledSize.rows]
    omega

/-! ## What is copied -/

theorem width32_eq (s : TiledSize) : s.width / 32 = UInt32.ofNat s.cols := by
  rw [← width_div, UInt32.ofNat_toNat]

theorem height32_eq (s : TiledSize) : s.height / 32 = UInt32.ofNat (s.rows / 32) := by
  rw [← height_div, UInt32.ofNat_toNat]

/-- The copy of a block to its tile. -/
def toTile (s : TiledSize) (i j m src : Nat) : Copy :=
  ⟨(UInt32.ofNat (1024 * (i * s.cols + m) + 32 * j)).toNat, src⟩

/-- A line of `copy_normal2MB`, the `j`-th of the tiles `i`. -/
theorem tileLine_eq (s : TiledSize) (i j : Nat) (c : Cursor) :
    upTo (s.width / 32) (fun c m => copy32 c
        (32 * 32 * m + UInt32.ofNat j * 32 + s.width / 32 * 32 * 32 * UInt32.ofNat i)) c =
      ⟨c.src + 32 * s.cols, c.copies ++ (List.range s.cols).flatMap fun m =>
        [toTile s i j m (c.src + 32 * m)]⟩ := by
  rw [← width_div]
  refine upTo_eq (g := fun m src => [toTile s i j m src]) (fun c m => ?_) c
  rw [width32_eq, tileOffset_eq]
  rfl

/-- A row of whole tiles. -/
theorem tileRow_eq (s : TiledSize) (i : Nat) (c : Cursor) :
    upTo 32 (fun c j => upTo (s.width / 32) (fun c m => copy32 c
        (32 * 32 * m + j * 32 + s.width / 32 * 32 * 32 * UInt32.ofNat i)) c) c =
      ⟨c.src + 32 * s.cols * 32, c.copies ++ (List.range 32).flatMap fun j =>
        (List.range s.cols).flatMap fun m =>
          [toTile s i j m (c.src + 32 * s.cols * j + 32 * m)]⟩ :=
  upTo_eq (n := 32) (g := fun j src => (List.range s.cols).flatMap fun m =>
    [toTile s i j m (src + 32 * m)]) (fun c j => tileLine_eq s i j c) c

theorem tileRows_eq (s : TiledSize) (c : Cursor) :
    upTo (s.height / 32) (fun c i => upTo 32 (fun c j => upTo (s.width / 32) (fun c m => copy32 c
        (32 * 32 * m + j * 32 + s.width / 32 * 32 * 32 * i)) c) c) c =
      ⟨c.src + 32 * s.cols * 32 * (s.rows / 32), c.copies ++
        (List.range (s.rows / 32)).flatMap fun i => (List.range 32).flatMap fun j =>
          (List.range s.cols).flatMap fun m =>
            [toTile s i j m (c.src + 32 * s.cols * 32 * i + 32 * s.cols * j + 32 * m)]⟩ := by
  rw [← height_div]
  exact upTo_eq (g := fun i src => (List.range 32).flatMap fun j =>
    (List.range s.cols).flatMap fun m =>
      [toTile s i j m (src + 32 * s.cols * j + 32 * m)]) (fun c i => tileRow_eq s i c) c

/-- The lines of the last row of tiles. -/
theorem tileRest_eq (s : TiledSize) (c : Cursor) :
    upTo (s.height - s.height / 32 * 32) (fun c j => upTo (s.width / 32) (fun c m => copy32 c
        (32 * 32 * m + j * 32 + s.width / 32 * 32 * 32 * (s.height / 32))) c) c =
      ⟨c.src + 32 * s.cols * (s.rows % 32), c.copies ++
        (List.range (s.rows % 32)).flatMap fun j => (List.range s.cols).flatMap fun m =>
          [toTile s (s.rows / 32) j m (c.src + 32 * s.cols * j + 32 * m)]⟩ := by
  rw [← height_rest, height32_eq]
  exact upTo_eq (g := fun j src => (List.range s.cols).flatMap fun m =>
    [toTile s (s.rows / 32) j m (src + 32 * m)]) (fun c j => tileLine_eq s (s.rows / 32) j c) c

theorem copyNormal2MB_eq (s : TiledSize) : copyNormal2MB s.height s.width =
    ((List.range (s.rows / 32)).flatMap fun i => (List.range 32).flatMap fun j =>
      (List.range s.cols).flatMap fun m =>
        [toTile s i j m (32 * s.cols * 32 * i + 32 * s.cols * j + 32 * m)]) ++
      (List.range (s.rows % 32)).flatMap fun j => (List.range s.cols).flatMap fun m =>
        [toTile s (s.rows / 32) j m
          (32 * s.cols * 32 * (s.rows / 32) + 32 * s.cols * j + 32 * m)] := by
  simp only [copyNormal2MB]
  rw [tileRows_eq, tileRest_eq]
  simp only [List.nil_append, Nat.zero_add]

/-- Every block of the picture is copied to its tile. -/
theorem mem_copyNormal2MB {c : Copy} : c ∈ copyNormal2MB s.height s.width ↔
    ∃ row < s.rows, ∃ m < s.cols, c = ⟨s.tileAt row m, s.lineAt row m⟩ := by
  have hcopy : ∀ i j m, j < 32 → 32 * i + j < s.rows → m < s.cols →
      toTile s i j m (32 * s.cols * 32 * i + 32 * s.cols * j + 32 * m) =
        ⟨s.tileAt (32 * i + j) m, s.lineAt (32 * i + j) m⟩ := by
    intro i j m hj hrow hm
    have hfits := s.fits
    have hlt := TiledSize.tileAt_lt hrow hm
    have htile : s.tileAt (32 * i + j) m = 1024 * (i * s.cols + m) + 32 * j := by
      rw [TiledSize.tileAt, Nat.mul_add_div (by decide), Nat.mul_add_mod, Nat.div_eq_of_lt hj,
        Nat.mod_eq_of_lt hj, Nat.add_zero]
    rw [toTile, ← htile, toNat_offset (Nat.le_trans hlt hfits), TiledSize.lineAt]
    congr 1
    ring
  rw [copyNormal2MB_eq]
  simp only [List.mem_append, List.mem_flatMap, List.mem_range, List.mem_singleton]
  constructor
  · rintro (⟨i, hi, j, hj, m, hm, rfl⟩ | ⟨j, hj, m, hm, rfl⟩)
    · exact ⟨32 * i + j, by omega, m, hm, hcopy i j m hj (by omega) hm⟩
    · exact ⟨32 * (s.rows / 32) + j, by omega, m, hm, hcopy _ j m (by omega) (by omega) hm⟩
  · rintro ⟨row, hrow, m, hm, rfl⟩
    have heq := hcopy (row / 32) (row % 32) m (by omega) (by omega) hm
    rw [Nat.div_add_mod] at heq
    by_cases hfull : row / 32 < s.rows / 32
    · exact .inl ⟨row / 32, hfull, row % 32, by omega, m, hm, heq.symm⟩
    · rw [show row / 32 = s.rows / 32 by omega] at heq
      exact .inr ⟨row % 32, by omega, m, hm, heq.symm⟩

/-- The copy of a block from its tile. -/
def fromTile (s : TiledSize) (i j l src : Nat) : Copy :=
  ⟨(UInt32.ofNat ((32 * i + l) * (32 * s.cols) + 32 * j)).toNat, src⟩

theorem width_ofNat (s : TiledSize) : s.width = UInt32.ofNat (32 * s.cols) := by
  rw [← s.width_eq, UInt32.ofNat_toNat]

theorem fromTile_eq (s : TiledSize) (i j l : Nat) (c : Cursor) :
    copy32 c (((UInt32.ofNat i <<< 5) + UInt32.ofNat l) * s.width + (UInt32.ofNat j <<< 5)) =
      ⟨c.src + 32, c.copies ++ [fromTile s i j l c.src]⟩ := by
  rw [width_ofNat, lineOffset_eq]
  rfl

/-- The lines of a tile. -/
theorem mbTile_eq (s : TiledSize) (n : UInt32) (i j : Nat) (c : Cursor) :
    upTo n (fun c l => copy32 c
        (((UInt32.ofNat i <<< 5) + l) * s.width + (UInt32.ofNat j <<< 5))) c =
      ⟨c.src + 32 * n.toNat, c.copies ++ (List.range n.toNat).flatMap fun l =>
        [fromTile s i j l (c.src + 32 * l)]⟩ :=
  upTo_eq (g := fun l src => [fromTile s i j l src]) (fun c l => fromTile_eq s i j l c) c

theorem mbRow_eq (s : TiledSize) (i : Nat) (c : Cursor) :
    upTo (s.width / 32) (fun c j => upTo 32 (fun c l => copy32 c
        (((UInt32.ofNat i <<< 5) + l) * s.width + (j <<< 5))) c) c =
      ⟨c.src + 1024 * s.cols, c.copies ++ (List.range s.cols).flatMap fun j =>
        (List.range 32).flatMap fun l => [fromTile s i j l (c.src + 1024 * j + 32 * l)]⟩ := by
  have htile : ∀ (c : Cursor) j, upTo 32 (fun c l => copy32 c
        (((UInt32.ofNat i <<< 5) + l) * s.width + (UInt32.ofNat j <<< 5))) c =
      ⟨c.src + 1024, c.copies ++ (List.range 32).flatMap fun l =>
        [fromTile s i j l (c.src + 32 * l)]⟩ := by
    intro c j
    have h := mbTile_eq s 32 i j c
    rwa [show (32 : UInt32).toNat = 32 by decide] at h
  rw [← width_div]
  refine upTo_eq (a := 1024) (g := fun j src => (List.range 32).flatMap fun l =>
    [fromTile s i j l (src + 32 * l)]) (fun c j => ?_) c
  rw [htile]

theorem mbRows_eq (s : TiledSize) (c : Cursor) :
    upTo (s.height / 32) (fun c i => upTo (s.width / 32) (fun c j => upTo 32 (fun c l => copy32 c
        (((i <<< 5) + l) * s.width + (j <<< 5))) c) c) c =
      ⟨c.src + 1024 * s.cols * (s.rows / 32), c.copies ++
        (List.range (s.rows / 32)).flatMap fun i => (List.range s.cols).flatMap fun j =>
          (List.range 32).flatMap fun l =>
            [fromTile s i j l (c.src + 1024 * s.cols * i + 1024 * j + 32 * l)]⟩ := by
  rw [← height_div]
  exact upTo_eq (g := fun i src => (List.range s.cols).flatMap fun j =>
    (List.range 32).flatMap fun l => [fromTile s i j l (src + 1024 * j + 32 * l)])
    (fun c i => mbRow_eq s i c) c

/-- What is passed over is the rest of a tile. -/
theorem skip_eq (s : TiledSize) :
    (32 * (32 - (s.height - s.height / 32 * 32))).toNat = 32 * (32 - s.rows % 32) := by
  have hrest := height_rest s
  have hsub : (32 - (s.height - s.height / 32 * 32)).toNat = 32 - s.rows % 32 := by
    rw [UInt32.toNat_sub_of_le]
    · rw [hrest]
      rfl
    · rw [UInt32.le_iff_toNat_le, hrest]
      show s.rows % 32 ≤ 32
      omega
  rw [UInt32.toNat_mul, hsub]
  show 32 * (32 - s.rows % 32) % 2 ^ 32 = _
  omega

/-- The last row of tiles. -/
theorem mbRest_eq (s : TiledSize) (c : Cursor) :
    upTo (s.width / 32) (fun c j => (upTo (s.height - s.height / 32 * 32) (fun c l => copy32 c
        ((((s.height / 32) <<< 5) + l) * s.width + (j <<< 5))) c).skip
          (32 * (32 - (s.height - s.height / 32 * 32))).toNat) c =
      ⟨c.src + 1024 * s.cols, c.copies ++ (List.range s.cols).flatMap fun j =>
        (List.range (s.rows % 32)).flatMap fun l =>
          [fromTile s (s.rows / 32) j l (c.src + 1024 * j + 32 * l)]⟩ := by
  rw [← width_div, skip_eq]
  refine upTo_eq (a := 1024) (g := fun j src => (List.range (s.rows % 32)).flatMap fun l =>
    [fromTile s (s.rows / 32) j l (src + 32 * l)]) (fun c j => ?_) c
  have htile := mbTile_eq s (s.height - s.height / 32 * 32) (s.rows / 32) j c
  rw [← height32_eq, height_rest] at htile
  have hadd : c.src + 32 * (s.rows % 32) + 32 * (32 - s.rows % 32) = c.src + 1024 := by omega
  rw [htile, Cursor.skip, ← hadd]

theorem copyMb2normal_eq (s : TiledSize) : copyMb2normal s.width s.height =
    ((List.range (s.rows / 32)).flatMap fun i => (List.range s.cols).flatMap fun j =>
      (List.range 32).flatMap fun l =>
        [fromTile s i j l (1024 * s.cols * i + 1024 * j + 32 * l)]) ++
      (List.range s.cols).flatMap fun j => (List.range (s.rows % 32)).flatMap fun l =>
        [fromTile s (s.rows / 32) j l (1024 * s.cols * (s.rows / 32) + 1024 * j + 32 * l)] := by
  simp only [copyMb2normal]
  rw [mbRows_eq, mbRest_eq]
  simp only [List.nil_append, Nat.zero_add]

/-- Every block of the picture is copied from its tile. -/
theorem mem_copyMb2normal {c : Copy} : c ∈ copyMb2normal s.width s.height ↔
    ∃ row < s.rows, ∃ m < s.cols, c = ⟨s.lineAt row m, s.tileAt row m⟩ := by
  have hcopy : ∀ i j l, l < 32 → 32 * i + l < s.rows → j < s.cols →
      fromTile s i j l (1024 * s.cols * i + 1024 * j + 32 * l) =
        ⟨s.lineAt (32 * i + l) j, s.tileAt (32 * i + l) j⟩ := by
    intro i j l hl hrow hj
    have hlt := TiledSize.lineAt_lt hrow hj
    rw [fromTile, TiledSize.tileAt, Nat.mul_add_div (by decide), Nat.mul_add_mod,
      Nat.div_eq_of_lt hl, Nat.mod_eq_of_lt hl, Nat.add_zero, ← TiledSize.lineAt,
      toNat_offset (Nat.le_trans hlt s.lineBytes_le)]
    congr 1
    ring
  rw [copyMb2normal_eq]
  simp only [List.mem_append, List.mem_flatMap, List.mem_range, List.mem_singleton]
  constructor
  · rintro (⟨i, hi, j, hj, l, hl, rfl⟩ | ⟨j, hj, l, hl, rfl⟩)
    · exact ⟨32 * i + l, by omega, j, hj, hcopy i j l hl (by omega) hj⟩
    · exact ⟨32 * (s.rows / 32) + l, by omega, j, hj, hcopy _ j l (by omega) (by omega) hj⟩
  · rintro ⟨row, hrow, m, hm, rfl⟩
    have heq := hcopy (row / 32) m (row % 32) (by omega) (by omega) hm
    rw [Nat.div_add_mod] at heq
    by_cases hfull : row / 32 < s.rows / 32
    · exact .inl ⟨row / 32, hfull, m, hm, row % 32, by omega, heq.symm⟩
    · rw [show row / 32 = s.rows / 32 by omega] at heq
      exact .inr ⟨m, hm, row % 32, by omega, heq.symm⟩

/-! ## Nothing twice -/

theorem upTo_ordered {n : UInt32} {body : Cursor → UInt32 → Cursor}
    (hbody : ∀ c i, c.Ordered 32 → (body c i).Ordered 32) {c : Cursor} (h : c.Ordered 32) :
    (upTo n body c).Ordered 32 :=
  loop_keeps (P := Cursor.Ordered 32) (fun c i => hbody c (UInt32.ofNat i)) h n.toNat

theorem copyNormal2MB_ordered (height width : UInt32) :
    (copyNormal2MB height width).Pairwise fun x y => x.src + 32 ≤ y.src := by
  refine Cursor.Ordered.pairwise (upTo_ordered (fun c j h => ?_) (upTo_ordered (fun c i h => ?_)
    (Cursor.ordered_nil 32 0)))
  · exact upTo_ordered (fun c m h => h.copy _) h
  · exact upTo_ordered (fun c j h => upTo_ordered (fun c m h => h.copy _) h) h

theorem copyMb2normal_ordered (width height : UInt32) :
    (copyMb2normal width height).Pairwise fun x y => x.src + 32 ≤ y.src := by
  refine Cursor.Ordered.pairwise (upTo_ordered (fun c j h => ?_) (upTo_ordered (fun c i h => ?_)
    (Cursor.ordered_nil 32 0)))
  · exact (upTo_ordered (fun c l h => h.copy _) h).skip _
  · exact upTo_ordered (fun c j h => upTo_ordered (fun c l h => h.copy _) h) h

theorem copyNormal2MB_apart (s : TiledSize) :
    (copyNormal2MB s.height s.width).Pairwise (Apart 32) := by
  refine (copyNormal2MB_ordered s.height s.width).imp_of_mem fun hx hy hxy => ?_
  obtain ⟨row, hrow, m, hm, rfl⟩ := mem_copyNormal2MB.1 hx
  obtain ⟨row', hrow', m', hm', rfl⟩ := mem_copyNormal2MB.1 hy
  by_contra hnot
  rw [Apart, not_or, not_le, not_le] at hnot
  obtain ⟨rfl, rfl⟩ := TiledSize.tileAt_inj hm hm' hnot.2 hnot.1
  simp only at hxy
  omega

theorem copyMb2normal_apart (s : TiledSize) :
    (copyMb2normal s.width s.height).Pairwise (Apart 32) := by
  refine (copyMb2normal_ordered s.width s.height).imp_of_mem fun hx hy hxy => ?_
  obtain ⟨row, hrow, m, hm, rfl⟩ := mem_copyMb2normal.1 hx
  obtain ⟨row', hrow', m', hm', rfl⟩ := mem_copyMb2normal.1 hy
  by_contra hnot
  rw [Apart, not_or, not_le, not_le] at hnot
  obtain ⟨rfl, rfl⟩ := TiledSize.lineAt_inj hm hm' hnot.2 hnot.1
  simp only at hxy
  omega

/-! ## There and back -/

variable {pic mb out : ByteFile}

/-- A byte of a block, in the tiled picture. -/
theorem tiled_apply {row m t : Nat} (hrow : row < s.rows) (hm : m < s.cols) (ht : t < 32) :
    run 32 pic mb (copyNormal2MB s.height s.width) (s.tileAt row m + t) =
      pic (s.lineAt row m + t) :=
  run_apply_of_mem (c := ⟨s.tileAt row m, s.lineAt row m⟩) (copyNormal2MB_apart s)
    (mem_copyNormal2MB.2 ⟨row, hrow, m, hm, rfl⟩) ht

/-- And in the linear one. -/
theorem linear_apply {row m t : Nat} (hrow : row < s.rows) (hm : m < s.cols) (ht : t < 32) :
    run 32 mb out (copyMb2normal s.width s.height) (s.lineAt row m + t) =
      mb (s.tileAt row m + t) :=
  run_apply_of_mem (c := ⟨s.lineAt row m, s.tileAt row m⟩) (copyMb2normal_apart s)
    (mem_copyMb2normal.2 ⟨row, hrow, m, hm, rfl⟩) ht

/-- The block that a byte of the linear picture is in. -/
theorem exists_block {p : Nat} (hp : p < s.width.toNat * s.rows) :
    ∃ row < s.rows, ∃ m < s.cols, ∃ t < 32, p = s.lineAt row m + t := by
  rw [s.width_eq] at hp
  have hcols : 0 < 32 * s.cols := Nat.pos_of_ne_zero fun h0 => by simp [h0] at hp
  have hmod := Nat.mod_lt p hcols
  refine ⟨p / (32 * s.cols), (Nat.div_lt_iff_lt_mul hcols).2 (by rwa [Nat.mul_comm]),
    p % (32 * s.cols) / 32, by omega, p % 32, by omega, ?_⟩
  have hline := Nat.div_add_mod p (32 * s.cols)
  have hcol := Nat.div_add_mod (p % (32 * s.cols)) 32
  rw [Nat.mod_mul_right_mod] at hcol
  rw [TiledSize.lineAt, Nat.mul_comm (p / _)]
  omega

theorem back_eq {p : Nat} (hp : p < s.width.toNat * s.rows) :
    run 32 (run 32 pic mb (copyNormal2MB s.height s.width)) out
      (copyMb2normal s.width s.height) p = pic p := by
  obtain ⟨row, hrow, m, hm, t, ht, rfl⟩ := exists_block hp
  rw [linear_apply hrow hm ht, tiled_apply hrow hm ht]

theorem covered_iff {p : Nat} : (∃ c ∈ copyMb2normal s.width s.height, c.Covers 32 p) ↔
    p < s.width.toNat * s.height.toNat := by
  constructor
  · rintro ⟨c, hc, -, hhigh⟩
    obtain ⟨row, hrow, m, hm, rfl⟩ := mem_copyMb2normal.1 hc
    exact Nat.lt_of_lt_of_le hhigh (TiledSize.lineAt_lt hrow hm)
  · intro hp
    obtain ⟨row, hrow, m, hm, t, ht, rfl⟩ := exists_block (s := s) hp
    exact ⟨_, mem_copyMb2normal.2 ⟨row, hrow, m, hm, rfl⟩, Nat.le_add_right _ _,
      Nat.add_lt_add_left ht _⟩

/-- From the linear picture to tiles and back is the picture again. The tiles are written
inside their buffer and no byte of it twice, and of the linear picture every byte is written
once, and no byte outside. -/
theorem tile_roundTrip (s : TiledSize) (pic mb out : ByteFile) :
    (∀ p < s.width.toNat * s.height.toNat,
      run 32 (run 32 pic mb (copyNormal2MB s.height s.width)) out
        (copyMb2normal s.width s.height) p = pic p) ∧
      (∀ c ∈ copyNormal2MB s.height s.width,
        c.dst + 32 ≤ s.width.toNat * (32 * ((s.height.toNat + 31) / 32))) ∧
      (copyNormal2MB s.height s.width).Pairwise (Apart 32) ∧
      ∀ p, ((copyMb2normal s.width s.height).filter fun c => c.Covers 32 p).length =
        if p < s.width.toNat * s.height.toNat then 1 else 0 := by
  refine ⟨fun p hp => back_eq hp, fun c hc => ?_, copyNormal2MB_apart s, fun p => ?_⟩
  · obtain ⟨row, hrow, m, hm, rfl⟩ := mem_copyNormal2MB.1 hc
    exact TiledSize.tileAt_lt hrow hm
  · rw [length_filter_covers (copyMb2normal_apart s)]
    exact if_congr covered_iff rfl rfl

end Nvr.Player
