import Chip8.Screen.FrameBuffer
import Mathlib.Data.List.Nodup

/-! # Sprites cell by cell

A sprite flips cells one after another. What becomes of a cell depends only on how often it
is flipped, and whether the sprite collides only on the cells that it flips and on what they
were before. On a grid that is at least as wide and as high as the sprite no cell is flipped
twice, so the sprite is a set of cells: it flips these, and it collides where one is lit. -/

namespace Chip8

namespace FrameBuffer

theorem getD_modify_not (px : Array Bool) (c j : Nat) (hc : c < px.size) :
    (px.modify c not).getD j false = ((px.getD j false) ^^ decide (c = j)) := by
  rw [Array.getD_eq_getD_getElem?, Array.getD_eq_getD_getElem?, Array.getElem?_modify]
  by_cases h : c = j
  · subst h
    simp [hc]
  · simp [h]

/-- Cells that lie in the picture still do when one of them was flipped. -/
theorem lt_size_of_cons {c : Nat} {cs : List Nat} {px : Array Bool}
    (h : ∀ d ∈ c :: cs, d < px.size) : c < px.size ∧ ∀ d ∈ cs, d < (px.modify c not).size := by
  refine ⟨h c List.mem_cons_self, fun d hd => ?_⟩
  rw [Array.size_modify]
  exact h d (List.mem_cons_of_mem c hd)

/-- Each flip of a cell turns it over. -/
theorem getD_flip (cs : List Nat) (px : Array Bool) (hit : Bool) (hcs : ∀ c ∈ cs, c < px.size)
    (j : Nat) :
    (flip cs px hit).1.getD j false = (px.getD j false ^^ decide (cs.count j % 2 = 1)) := by
  induction cs generalizing px hit with
  | nil => simp [flip]
  | cons c cs ih =>
    obtain ⟨hc, hrest⟩ := lt_size_of_cons hcs
    rw [flip, ih _ _ hrest, getD_modify_not px c j hc, List.count_cons]
    by_cases h : c = j
    · have hparity : (decide ((cs.count j + 1) % 2 = 1)) = !decide (cs.count j % 2 = 1) := by
        rw [← decide_not]
        exact decide_eq_decide.mpr (by omega)
      simp [h, hparity]
    · simp [h]

/-- A collision needs a cell that is lit at some flip: lit before, or flipped twice. -/
theorem flip_hit (cs : List Nat) (px : Array Bool) (hit : Bool) (hcs : ∀ c ∈ cs, c < px.size) :
    (flip cs px hit).2 = true ↔
      hit = true ∨ ∃ c ∈ cs, px.getD c false = true ∨ 2 ≤ cs.count c := by
  induction cs generalizing px hit with
  | nil => simp [flip]
  | cons c cs ih =>
    obtain ⟨hc, hrest⟩ := lt_size_of_cons hcs
    rw [flip, ih _ _ hrest, Bool.or_eq_true]
    constructor
    · intro h
      rcases h with (h | h) | ⟨d, hd, h⟩
      · exact .inl h
      · exact .inr ⟨c, List.mem_cons_self, .inl h⟩
      · refine .inr ⟨d, List.mem_cons_of_mem c hd, ?_⟩
        have hpos := List.count_pos_iff.mpr hd
        rw [List.count_cons]
        by_cases he : c = d
        · exact .inr (by rw [if_pos (by simp [he])]; omega)
        · rw [getD_modify_not px c d hc] at h
          simpa [he] using h
    · intro h
      rcases h with h | ⟨d, hd, h⟩
      · exact .inl (.inl h)
      · by_cases hlit : px.getD c false = true
        · exact .inl (.inr hlit)
        rw [List.count_cons] at h
        by_cases he : c = d
        · -- unlit before, so it is flipped again, and then it is lit
          subst he
          have hcount : 1 ≤ cs.count c := by
            rcases h with h | h
            · exact absurd h hlit
            · rw [if_pos (beq_self_eq_true c)] at h
              omega
          refine .inr ⟨c, List.count_pos_iff.mp hcount, .inl ?_⟩
          rw [getD_modify_not px c c hc]
          simp [Bool.not_eq_true _ ▸ hlit]
        · have hmem : d ∈ cs := (List.mem_cons.mp hd).resolve_left (Ne.symm he)
          refine .inr ⟨d, hmem, ?_⟩
          rw [getD_modify_not px c d hc]
          simpa [he] using h

end FrameBuffer

/-! ## Where the cells of a sprite lie -/

namespace Sprite

variable {width height : Nat}

theorem mem_columns {row : UInt8} {c : Nat} :
    c ∈ columns row ↔ c < 8 ∧ row.toNat.testBit (7 - c) = true := by
  rw [columns, List.mem_filter, List.mem_range]

theorem natCast_toNat_emod {n : Nat} (hn : 0 < n) (v : Int) : ((v % n).toNat : Int) = v % n :=
  Int.toNat_of_nonneg (Int.emod_nonneg v (by omega))

theorem toNat_emod_lt {n : Nat} (hn : 0 < n) (v : Int) : (v % n).toNat < n := by
  have hv := natCast_toNat_emod hn v
  have hi := Int.emod_lt_of_pos v (b := n) (by omega)
  omega

theorem cell_lt (hw : 0 < width) (hh : 0 < height) (x y : Int) :
    cell width height x y < width * height := by
  have hx := toNat_emod_lt hw x
  have hy := toNat_emod_lt hh y
  unfold cell
  calc (y % height).toNat * width + (x % width).toNat
      < ((y % height).toNat + 1) * width := by rw [Nat.add_mul]; omega
    _ ≤ height * width := Nat.mul_le_mul_right width hy
    _ = width * height := Nat.mul_comm height width

/-- A cell is determined by its column and its row, and determines them. -/
theorem cell_eq_iff (hw : 0 < width) (hh : 0 < height) {x y x' y' : Int} :
    cell width height x y = cell width height x' y' ↔
      x % width = x' % width ∧ y % height = y' % height := by
  constructor
  · intro h
    have hx := toNat_emod_lt hw x
    have hx' := toNat_emod_lt hw x'
    unfold cell at h
    have hcol : (x % width).toNat = (x' % width).toNat := by
      have := congrArg (· % width) h
      simpa only [Nat.mul_add_mod_self_right, Nat.mod_eq_of_lt hx, Nat.mod_eq_of_lt hx'] using this
    rw [hcol] at h
    have hrow := Nat.eq_of_mul_eq_mul_right hw (Nat.add_right_cancel h)
    rw [← natCast_toNat_emod hw x, ← natCast_toNat_emod hh y, hcol, hrow,
      natCast_toNat_emod hw, natCast_toNat_emod hh]
    exact ⟨rfl, rfl⟩
  · intro h
    obtain ⟨hx, hy⟩ := h
    rw [cell, cell, hx, hy]

theorem mem_cells {rows : List UInt8} {x y : Int} {c : Nat} :
    c ∈ cells width height x y rows ↔ ∃ (k : Nat) (row : UInt8) (col : Nat), rows[k]? = some row ∧
      col < 8 ∧ row.toNat.testBit (7 - col) = true ∧ c = cell width height (x + col) (y + k) := by
  induction rows generalizing y with
  | nil => simp [cells]
  | cons row rows ih =>
    rw [cells, List.mem_append, List.mem_map, ih]
    constructor
    · intro h
      rcases h with ⟨col, hcol, rfl⟩ | ⟨k, row', col, hrow, hcol, hbit, rfl⟩
      · obtain ⟨hlt, hbit⟩ := mem_columns.mp hcol
        exact ⟨0, row, col, rfl, hlt, hbit, by rw [Int.natCast_zero, Int.add_zero]⟩
      · exact ⟨k + 1, row', col, hrow, hcol, hbit, by congr 1; omega⟩
    · intro h
      obtain ⟨k, row', col, hrow, hcol, hbit, rfl⟩ := h
      cases k with
      | zero =>
        cases hrow
        exact .inl ⟨col, mem_columns.mpr ⟨hcol, hbit⟩, by rw [Int.natCast_zero, Int.add_zero]⟩
      | succ k => exact .inr ⟨k, row', col, hrow, hcol, hbit, by congr 1; omega⟩

theorem cells_lt (hw : 0 < width) (hh : 0 < height) {rows : List UInt8} {x y : Int} :
    ∀ c ∈ cells width height x y rows, c < width * height := by
  intro c hc
  obtain ⟨k, _, col, _, _, _, rfl⟩ := mem_cells.mp hc
  exact cell_lt hw hh _ _

/-- Less than a turn apart, two places on a circle are different. -/
theorem eq_of_add_emod {n i j : Nat} (hi : i < n) (hj : j < n) {v : Int}
    (h : (v + i) % n = (v + j) % n) : i = j := by
  rw [Int.add_comm v, Int.add_comm v, Int.emod_add_cancel_right, Int.emod_eq_of_lt (by omega) (by omega),
    Int.emod_eq_of_lt (by omega) (by omega)] at h
  omega

/-- On a grid that it fits a sprite flips no cell twice. -/
theorem nodup_cells (hw : 8 ≤ width) {rows : List UInt8} (hh : rows.length ≤ height) {x y : Int} :
    (cells width height x y rows).Nodup := by
  have hpos : 0 < width := by omega
  induction rows generalizing y with
  | nil => exact List.nodup_nil
  | cons row rows ih =>
    rw [List.length_cons] at hh
    have hhpos : 0 < height := by omega
    rw [cells, List.nodup_append]
    refine ⟨?_, ih (by omega), ?_⟩
    · -- within a row the columns are different
      refine List.Nodup.map_on ?_ (List.nodup_range.filter _)
      intro i hi j hj h
      have hi := (mem_columns.mp hi).1
      have hj := (mem_columns.mp hj).1
      exact eq_of_add_emod (n := width) (by omega) (by omega) ((cell_eq_iff hpos hhpos).mp h).1
    · -- a lower row is another one, as there are enough of them
      intro c hc d hd h
      subst h
      obtain ⟨i, hi, rfl⟩ := List.mem_map.mp hc
      obtain ⟨k, _, j, hrow, _, _, he⟩ := mem_cells.mp hd
      have hk := (List.getElem?_eq_some_iff.mp hrow).1
      have hy := ((cell_eq_iff hpos hhpos).mp he).2
      have hzero := eq_of_add_emod (n := height) (i := 0) (j := k + 1) (v := y) (by omega) (by omega)
        (by rw [show y + ((0 : Nat) : Int) = y by omega,
          show y + ((k + 1 : Nat) : Int) = y + 1 + k by omega]; exact hy)
      cases hzero

end Sprite

/-! ## Sprites on a grid that they fit -/

namespace FrameBuffer

open Sprite (cell cells)

theorem lit_eq_getD (fb : FrameBuffer) {px py : Nat} (hx : px < fb.width) (hy : py < fb.height) :
    fb.lit px py = fb.pixels.getD (cell fb.width fb.height px py) false := by
  have hcol : ((px : Int) % fb.width).toNat = px := by
    rw [Int.emod_eq_of_lt (by omega) (by omega), Int.toNat_natCast]
  have hrow : ((py : Int) % fb.height).toNat = py := by
    rw [Int.emod_eq_of_lt (by omega) (by omega), Int.toNat_natCast]
  rw [lit, cell, hcol, hrow]

@[simp] theorem lit_blank {width height : Nat} (hw : 0 < width) (hh : 0 < height) (px py : Nat) :
    (blank width height hw hh).lit px py = false := by
  change (Array.replicate (width * height) false).getD _ false = false
  rw [Array.getD_eq_getD_getElem?, Array.getElem?_replicate]
  split <;> rfl

/-- The sprite has a set bit that falls on this pixel. -/
def Hits (fb : FrameBuffer) (x y : Int) (rows : List UInt8) (px py : Nat) : Prop :=
  ∃ (k : Nat) (row : UInt8) (col : Nat), rows[k]? = some row ∧ col < 8 ∧
    row.toNat.testBit (7 - col) = true ∧
    (px : Int) = (x + col) % fb.width ∧ (py : Int) = (y + k) % fb.height

variable {fb : FrameBuffer} {x y : Int} {rows : List UInt8} {px py : Nat}

theorem cell_mem_cells (hx : px < fb.width) (hy : py < fb.height) :
    cell fb.width fb.height px py ∈ cells fb.width fb.height x y rows ↔ fb.Hits x y rows px py := by
  have hcol : (px : Int) % fb.width = px := Int.emod_eq_of_lt (by omega) (by omega)
  have hrow : (py : Int) % fb.height = py := Int.emod_eq_of_lt (by omega) (by omega)
  unfold Hits
  simp only [Sprite.mem_cells, Sprite.cell_eq_iff fb.width_pos fb.height_pos, hcol, hrow]

theorem cells_lt_size : ∀ c ∈ cells fb.width fb.height x y rows, c < fb.pixels.size := by
  rw [fb.size_pixels]
  exact Sprite.cells_lt fb.width_pos fb.height_pos

/-- On any grid a pixel is turned over as often as the sprite comes by. -/
theorem lit_drawRows (hx : px < fb.width) (hy : py < fb.height) :
    (fb.drawRows x y rows).2.lit px py = (fb.lit px py ^^
      decide ((cells fb.width fb.height x y rows).count (cell fb.width fb.height px py) % 2 = 1)) := by
  rw [lit_eq_getD (fb.drawRows x y rows).2 hx hy, lit_eq_getD fb hx hy]
  exact getD_flip _ fb.pixels false cells_lt_size _

/-- The sprite turns over the pixels that it hits and no other one. -/
theorem drawRows_turned (hw : 8 ≤ fb.width) (hh : rows.length ≤ fb.height) (hx : px < fb.width)
    (hy : py < fb.height) :
    (fb.drawRows x y rows).2.lit px py = (!fb.lit px py) ↔ fb.Hits x y rows px py := by
  rw [lit_drawRows hx hy, ← cell_mem_cells hx hy, (Sprite.nodup_cells hw hh).count]
  by_cases hc : cell fb.width fb.height px py ∈ cells fb.width fb.height x y rows
  · simp [hc]
  · simp [hc]

/-- A sprite collides where it hits a pixel that is lit. -/
theorem drawRows_hit (hw : 8 ≤ fb.width) (hh : rows.length ≤ fb.height) :
    (fb.drawRows x y rows).1 = true ↔ ∃ px py, px < fb.width ∧ py < fb.height ∧
      fb.Hits x y rows px py ∧ fb.lit px py = true := by
  have hnodup := Sprite.nodup_cells hw hh (x := x) (y := y)
  have honce : ∀ c, ¬ 2 ≤ (cells fb.width fb.height x y rows).count c := by
    intro c
    have := List.nodup_iff_count_le_one.mp hnodup c
    omega
  change (flip _ fb.pixels false).2 = true ↔ _
  rw [flip_hit _ _ _ cells_lt_size]
  constructor
  · intro h
    rcases h with h | ⟨c, hc, h | h⟩
    · cases h
    · obtain ⟨k, row, col, hrow, hcol, hbit, rfl⟩ := Sprite.mem_cells.mp hc
      have hx := Sprite.toNat_emod_lt fb.width_pos (x + col)
      have hy := Sprite.toNat_emod_lt fb.height_pos (y + k)
      exact ⟨_, _, hx, hy, ⟨k, row, col, hrow, hcol, hbit,
        Sprite.natCast_toNat_emod fb.width_pos (x + col),
        Sprite.natCast_toNat_emod fb.height_pos (y + k)⟩, h⟩
    · exact absurd h (honce c)
  · intro h
    obtain ⟨px, py, hx, hy, hits, hlit⟩ := h
    rw [lit_eq_getD fb hx hy] at hlit
    exact .inr ⟨_, (cell_mem_cells hx hy).mpr hits, .inl hlit⟩

end FrameBuffer

end Chip8
