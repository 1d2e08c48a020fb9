import Chip8.Proofs.Screen.Sprite
import Mathlib.Data.List.ProdSigma

/-! # Sprites on any grid

On a grid that is narrower or lower than a sprite several of its set bits fall on one pixel. The
sprite comes by the pixel once for each of them and turns it over each time. It collides where it
comes by a pixel that was lit, and also where it comes by twice: of two visits one finds the pixel
lit. -/

namespace Chip8

namespace Sprite

/-- The set bits of the first `height` rows, as pairs of a row and a column. Of each row only the
low eight bits count. -/
def setBits (height : Nat) (sprite : List Int) : List (Nat × Nat) :=
  (List.range height ×ˢ List.range 8).filter fun (row, column) =>
    (sprite.getD row 0 % 256).toNat.testBit (7 - column)

theorem range_succ_product (n : Nat) (l : List Nat) : List.range (n + 1) ×ˢ l =
    l.map (fun c => (0, c)) ++ (List.range n ×ˢ l).map fun p => (p.1 + 1, p.2) := by
  rw [List.range_succ_eq_map, List.product_cons]
  congr 1
  induction List.range n with
  | nil => rfl
  | cons a as ih => simp [List.product_cons, ih]

/-- The first row, and the set bits of the rows below it. -/
theorem setBits_succ (n : Nat) (v : Int) (sprite : List Int) : setBits (n + 1) (v :: sprite) =
    (columns (byteOf v)).map (fun c => (0, c)) ++
      (setBits n sprite).map fun p => (p.1 + 1, p.2) := by
  unfold setBits columns
  rw [range_succ_product, List.filter_append, List.filter_map, List.filter_map, toNat_byteOf]
  rfl

/-- The cells that a sprite flips are those on which its set bits fall, one after another. -/
theorem cells_eq_map {width height n : Nat} {sprite : List Int} (hn : n ≤ sprite.length)
    (x y : Int) : cells width height x y ((sprite.take n).map byteOf) =
      (setBits n sprite).map fun p => cell width height (x + p.2) (y + p.1) := by
  induction n generalizing sprite y with
  | zero => rfl
  | succ n ih =>
    cases sprite with
    | nil => cases hn
    | cons v sprite =>
      rw [List.length_cons] at hn
      rw [List.take_succ_cons, List.map_cons, cells, ih (by omega), setBits_succ, List.map_append,
        List.map_map, List.map_map]
      congr 1
      · refine List.map_congr_left fun c _ => ?_
        simp
      · refine List.map_congr_left fun p _ => ?_
        simp only [Function.comp_apply]
        congr 1
        omega

end Sprite

namespace FrameBuffer

open Sprite (cell cells setBits)

/-- How often a sprite comes by a pixel: the number of set bits that fall on it. -/
def visits (fb : FrameBuffer) (x y : Int) (height : Nat) (sprite : List Int) (px py : Nat) : Nat :=
  (setBits height sprite).countP fun (row, column) =>
    (px : Int) = (x + column) % fb.width ∧ (py : Int) = (y + row) % fb.height

variable {fb : FrameBuffer} {x y : Int} {px py : Nat}

theorem count_cells {n : Nat} {sprite : List Int} (hn : n ≤ sprite.length) (hx : px < fb.width)
    (hy : py < fb.height) :
    (cells fb.width fb.height x y ((sprite.take n).map byteOf)).count
      (cell fb.width fb.height px py) = fb.visits x y n sprite px py := by
  have hcol : (px : Int) % fb.width = px := Int.emod_eq_of_lt (by omega) (by omega)
  have hrow : (py : Int) % fb.height = py := Int.emod_eq_of_lt (by omega) (by omega)
  rw [Sprite.cells_eq_map hn, List.count_eq_countP, List.countP_map]
  refine List.countP_congr fun p _ => ?_
  simp only [Function.comp_apply, beq_iff_eq, decide_eq_true_eq]
  rw [Sprite.cell_eq_iff fb.width_pos fb.height_pos, hcol, hrow]
  exact ⟨fun h => ⟨h.1.symm, h.2.symm⟩, fun h => ⟨h.1.symm, h.2.symm⟩⟩

/-- On any grid a sprite collides where it comes by a pixel that was lit, or comes by twice. -/
theorem drawRows_hit_iff {n : Nat} {sprite : List Int} (hn : n ≤ sprite.length) :
    (fb.drawRows x y ((sprite.take n).map byteOf)).1 = true ↔
      ∃ px < fb.width, ∃ py < fb.height, 1 ≤ fb.visits x y n sprite px py ∧
        2 ≤ fb.visits x y n sprite px py + (fb.lit px py).toNat := by
  change (flip _ fb.pixels false).2 = true ↔ _
  rw [flip_hit _ _ _ cells_lt_size]
  constructor
  · intro h
    rcases h with h | ⟨c, hc, h⟩
    · cases h
    · obtain ⟨k, row, col, _, _, _, rfl⟩ := Sprite.mem_cells.mp hc
      -- the cell as the place of a pixel
      have hx := Sprite.toNat_emod_lt fb.width_pos (x + col)
      have hy := Sprite.toNat_emod_lt fb.height_pos (y + k)
      have hcell : cell fb.width fb.height (x + col) (y + k) =
          cell fb.width fb.height ((x + col) % fb.width).toNat ((y + k) % fb.height).toNat := by
        rw [Sprite.cell_eq_iff fb.width_pos fb.height_pos, Sprite.natCast_toNat_emod fb.width_pos,
          Sprite.natCast_toNat_emod fb.height_pos, Int.emod_emod, Int.emod_emod]
        exact ⟨rfl, rfl⟩
      have hpos := List.count_pos_iff.mpr hc
      rw [hcell] at h hpos
      rw [count_cells hn hx hy] at h hpos
      rw [← lit_eq_getD fb hx hy] at h
      refine ⟨_, hx, _, hy, hpos, ?_⟩
      rcases h with h | h
      · rw [h]
        exact Nat.add_le_add_right hpos 1
      · omega
  · intro h
    obtain ⟨px, hx, py, hy, hpos, h⟩ := h
    rw [← count_cells hn hx hy] at h hpos
    refine .inr ⟨_, List.count_pos_iff.mp hpos, ?_⟩
    rw [← lit_eq_getD fb hx hy]
    cases hlit : fb.lit px py with
    | true => exact .inl rfl
    | false =>
      rw [hlit] at h
      exact .inr h

/-! ## Draws as actions -/

/-- A draw as an action on the picture. A sprite that is refused leaves the picture as it is. -/
def drawing (x y height : Int) (sprite : List Int) : EStateM ScreenError FrameBuffer Bool :=
  fun fb => match fb.draw x y height sprite with
  | .ok (hit, drawn) => .ok hit drawn
  | .error e => .error e fb

theorem drawing_of_rows {height : Int} {sprite : List Int} (lo : 0 ≤ height)
    (hi : height ≤ sprite.length) : drawing x y height sprite fb =
      .ok (fb.drawRows x y ((sprite.take height.toNat).map byteOf)).1
        (fb.drawRows x y ((sprite.take height.toNat).map byteOf)).2 := by
  rw [drawing, draw, if_neg (by omega), if_neg (by omega)]

/-- On every grid, at every place and with every sprite: a pixel is turned over as often as the
sprite comes by, and the draw answers whether one of these visits found its pixel lit. A sprite of
fewer rows than asked for is refused, and so is one of less than none. -/
theorem drawing_by_visits (fb : FrameBuffer) (x y height : Int) (sprite : List Int) :
    (0 ≤ height → height ≤ sprite.length → ∃ hit drawn,
      drawing x y height sprite fb = .ok hit drawn ∧
      drawn.width = fb.width ∧ drawn.height = fb.height ∧
      (∀ px < fb.width, ∀ py < fb.height, drawn.lit px py =
        (fb.lit px py ^^ decide (fb.visits x y height.toNat sprite px py % 2 = 1))) ∧
      (hit = true ↔ ∃ px < fb.width, ∃ py < fb.height,
        1 ≤ fb.visits x y height.toNat sprite px py ∧
        2 ≤ fb.visits x y height.toNat sprite px py + (fb.lit px py).toNat)) ∧
    (height < 0 → drawing x y height sprite fb = .error .negativeHeight fb) ∧
    (0 ≤ height → sprite.length < height →
      drawing x y height sprite fb = .error (.missingRows sprite.length height) fb) := by
  refine ⟨fun lo hi => ?_, fun h => ?_, fun lo h => ?_⟩
  · have hn : height.toNat ≤ sprite.length := by omega
    refine ⟨_, _, drawing_of_rows lo hi, rfl, rfl, fun px hx py hy => ?_, drawRows_hit_iff hn⟩
    rw [lit_drawRows hx hy, count_cells hn hx hy]
  · rw [drawing, draw, if_pos h]
  · rw [drawing, draw, if_neg (by omega), if_pos h]

/-- A grid on which a full row of a sprite comes by each pixel twice or more often. -/
def narrow : FrameBuffer := blank 3 1 (by decide) (by decide)

/-- So it collides with itself although nothing was lit, and the pixel that it visits twice stays
out. -/
theorem drawing_by_visits_narrow : narrow.visits (-1) 5 1 [-1] 1 0 = 2 ∧
    ∃ drawn, drawing (-1) 5 1 [-1] narrow = .ok true drawn ∧
      drawn.lit 0 0 = true ∧ drawn.lit 1 0 = false ∧ drawn.lit 2 0 = true := by
  have twice : narrow.visits (-1) 5 1 [-1] 1 0 = 2 := by decide
  obtain ⟨hit, drawn, h, _, _, hlit, hhit⟩ :=
    (drawing_by_visits narrow (-1) 5 1 [-1]).1 (by decide) (by decide)
  obtain rfl : hit = true :=
    hhit.mpr ⟨1, by decide, 0, by decide, by decide, by decide⟩
  refine ⟨twice, drawn, h, ?_, ?_, ?_⟩
  · rw [hlit 0 (by decide) 0 (by decide)]
    decide
  · rw [hlit 1 (by decide) 0 (by decide)]
    decide
  · rw [hlit 2 (by decide) 0 (by decide)]
    decide

end FrameBuffer

end Chip8
