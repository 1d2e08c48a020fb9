import Chip8.Proofs.Screen.Cancellation

/-! # Lit pixels and collisions

Each set bit of a sprite puts one pixel on or one pixel out. The sprite collides exactly when some
pixel goes out, so the number of lit pixels tells: it grows by the number of set bits if there was no
collision, and by two less for each pixel that went out. -/

namespace Chip8

/-- How many bits are set in the rows that are drawn. -/
def Placement.bits (p : Placement) : Nat := (Sprite.setBits p.height.toNat p.rows).length

namespace FrameBuffer

/-- How many of the flips put a lit cell out. -/
def outs : List Nat → Array Bool → Nat
  | [], _ => 0
  | c :: cs, px => (px.getD c false).toNat + outs cs (px.modify c not)

/-- There is a collision if a flip puts a lit cell out. -/
theorem flip_snd (cs : List Nat) (px : Array Bool) (hit : Bool) :
    (flip cs px hit).2 = (hit || decide (0 < outs cs px)) := by
  induction cs generalizing px hit with
  | nil => simp [flip, outs]
  | cons c cs ih =>
    rw [flip, ih, outs]
    cases px.getD c false with
    | true =>
      have hpos : 0 < Bool.toNat true + outs cs (px.modify c not) := by
        rw [Bool.toNat_true]
        omega
      rw [Bool.or_true, Bool.true_or, decide_eq_true hpos, Bool.or_true]
    | false => simp

theorem modify_eq_set {px : Array Bool} {c : Nat} (hc : c < px.size) :
    px.modify c not = px.set c (!px[c]) hc := by
  apply Array.ext
  · simp
  · intro j hj _
    rw [Array.getElem_modify, Array.getElem_set]
    by_cases h : c = j
    · subst h
      rw [if_pos rfl]
    · rw [if_neg h, if_neg h]

/-- One flip puts a cell on or a cell out. -/
theorem count_modify_not {px : Array Bool} {c : Nat} (hc : c < px.size) :
    (px.modify c not).count true + 2 * (px.getD c false).toNat = px.count true + 1 := by
  have hget : px.getD c false = px[c] := (Array.getElem_eq_getD false).symm
  have hle : (if px[c] == true then 1 else 0) ≤ px.count true := Array.boole_getElem_le_count hc
  rw [modify_eq_set hc, Array.count_set hc, hget]
  cases hpx : px[c] with
  | true =>
    rw [hpx, beq_self_eq_true, if_pos rfl] at hle
    simp only [beq_self_eq_true, Bool.not_true, Bool.toNat_true, if_true]
    rw [if_neg (by decide)]
    omega
  | false => simp

/-- Flips and lit cells keep the books. -/
theorem count_flip (cs : List Nat) (px : Array Bool) (hit : Bool) (hcs : ∀ c ∈ cs, c < px.size) :
    (flip cs px hit).1.count true + 2 * outs cs px = px.count true + cs.length := by
  induction cs generalizing px hit with
  | nil => rfl
  | cons c cs ih =>
    obtain ⟨hc, hrest⟩ := lt_size_of_cons hcs
    have hone := count_modify_not hc
    have hmore := ih (px.modify c not) (hit || px.getD c false) hrest
    rw [flip, outs, List.length_cons]
    omega

variable {fb : FrameBuffer} {p : Placement}

theorem length_trail (fb : FrameBuffer) (h : p.Valid) : (fb.trail p).length = p.bits := by
  obtain ⟨_, hi⟩ := h
  rw [trail, Sprite.cells_eq_map (by omega), List.length_map, Placement.bits]

/-- The same cells flipped once more are as they were. -/
theorem turned_trail_twice : (fb.turned (fb.trail p)).turned (fb.trail p) = fb := by
  have hcells : ∀ c ∈ fb.trail p ++ fb.trail p, c < fb.pixels.size := by
    intro c hc
    exact cells_lt_size c ((List.mem_append.mp hc).elim id id)
  have hnone : ∀ c ∈ ([] : List Nat), c < fb.pixels.size := fun c hc => by cases hc
  rw [turned_turned]
  refine turned_congr hcells hnone fun j => ?_
  rw [List.count_append, List.count_nil]
  omega

theorem litCount_turned (fb : FrameBuffer) (h : p.Valid) : (fb.turned (fb.trail p)).litCount +
    2 * outs (fb.trail p) fb.pixels = fb.litCount + p.bits := by
  rw [← length_trail fb h]
  exact count_flip _ fb.pixels false cells_lt_size

@[simp] theorem litCount_clear (fb : FrameBuffer) : fb.clear.litCount = 0 := by
  change (Array.replicate (fb.width * fb.height) false).count true = 0
  rw [Array.count_replicate]
  rfl

/-- The number of lit pixels grows at most by the number of set bits of the sprite, and by exactly
this number when there is no collision and only then; in any case it is odd or even as it would
be then. On a cleared picture a sprite that is drawn for the second time collides exactly when it has
a set bit. -/
theorem litCount_tells_of_collision (fb : FrameBuffer) (p : Placement) (h : p.Valid) :
    (∃ hit drawn, place p fb = .ok hit drawn ∧
      drawn.litCount ≤ fb.litCount + p.bits ∧
      drawn.litCount % 2 = (fb.litCount + p.bits) % 2 ∧
      (drawn.litCount = fb.litCount + p.bits ↔ hit = false)) ∧
    ∃ hit once again twice, place p fb.clear = .ok hit once ∧ place p once = .ok again twice ∧
      (again = true ↔ 0 < p.bits) := by
  refine ⟨⟨_, _, place_of_valid h, ?_⟩, ⟨_, _, _, _, place_of_valid h, place_of_valid h, ?_⟩⟩
  · have hbooks := litCount_turned fb h
    rw [flip_snd, Bool.false_or, decide_eq_false_iff_not]
    omega
  · -- the second draw puts out what the first one left, and its own bits that came on meanwhile
    have hfirst := litCount_turned fb.clear h
    have hsecond := litCount_turned (fb.clear.turned (fb.clear.trail p)) h
    have hrestored : (fb.clear.turned (fb.clear.trail p)).turned
        ((fb.clear.turned (fb.clear.trail p)).trail p) = fb.clear := turned_trail_twice
    rw [hrestored, litCount_clear] at hsecond
    rw [litCount_clear] at hfirst
    rw [flip_snd, Bool.false_or, decide_eq_true_eq]
    omega

/-- A bar on the grid of three pixels has eight set bits and lights two pixels: it collides with
itself, and three times a pixel goes out. -/
theorem litCount_tells_of_collision_narrow : bar.Valid ∧ bar.bits = 8 ∧
    ∃ drawn, place bar narrow = .ok true drawn ∧ drawn.litCount = 2 ∧
      ∃ hit once twice, place bar narrow.clear = .ok hit once ∧
        place bar once = .ok true twice := by
  have valid : bar.Valid := by decide
  have bits : bar.bits = 8 := by decide
  obtain ⟨⟨hit, drawn, hdrawn, _, _, hhit⟩, first, once, again, twice, honce, htwice, hagain⟩ :=
    litCount_tells_of_collision narrow bar valid
  have hlit : drawn.litCount = 2 := by
    have hturned : drawn = narrow.turned (narrow.trail bar) := by
      cases (place_of_valid valid).symm.trans hdrawn
      rfl
    rw [hturned]
    decide
  have hcollides : hit = true := by
    rw [hlit] at hhit
    cases hit with
    | true => rfl
    | false => exact absurd (hhit.mpr rfl) (by decide)
  obtain rfl : again = true := hagain.mpr (by decide)
  exact ⟨valid, bits, drawn, hcollides ▸ hdrawn, hlit, first, once, twice, honce, htwice⟩

end FrameBuffer

end Chip8
