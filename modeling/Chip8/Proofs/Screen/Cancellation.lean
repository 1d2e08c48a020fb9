import Chip8.Proofs.Outcome
import Chip8.Proofs.Screen.Visits

/-! # Draws in any order

What becomes of a picture depends on how often each of its cells is flipped, and of that only on
whether the number is odd. So a list of draws leaves the same picture in every order, and two
draws that are the same take each other back, whatever is drawn between them. -/

namespace Chip8

/-- A sprite and where it is drawn. -/
structure Placement where
  x : Int
  y : Int
  height : Int
  rows : List Int
deriving DecidableEq

/-- It has the rows that are to be drawn. -/
def Placement.Valid (p : Placement) : Prop := 0 ≤ p.height ∧ p.height ≤ p.rows.length

instance : DecidablePred Placement.Valid :=
  fun p => inferInstanceAs (Decidable (0 ≤ p.height ∧ p.height ≤ p.rows.length))

namespace FrameBuffer

/-! ## Flips -/

theorem flip_append (cs ds : List Nat) (px : Array Bool) (hit : Bool) :
    flip (cs ++ ds) px hit = flip ds (flip cs px hit).1 (flip cs px hit).2 := by
  induction cs generalizing px hit with
  | nil => rfl
  | cons c cs ih => rw [List.cons_append, flip, ih, flip]

/-- What was hit before has no bearing on the picture. -/
theorem flip_fst (cs : List Nat) (px : Array Bool) (hit hit' : Bool) :
    (flip cs px hit).1 = (flip cs px hit').1 := by
  induction cs generalizing px hit hit' with
  | nil => rfl
  | cons c cs ih => rw [flip, flip, ih]

theorem flip_congr {cs ds : List Nat} {px : Array Bool} {hit : Bool}
    (hcs : ∀ c ∈ cs, c < px.size) (hds : ∀ c ∈ ds, c < px.size)
    (h : ∀ j, cs.count j % 2 = ds.count j % 2) : (flip cs px hit).1 = (flip ds px hit).1 := by
  apply Array.ext
  · rw [size_flip, size_flip]
  · intro j hj hj'
    have hcell : (flip cs px hit).1.getD j false = (flip ds px hit).1.getD j false := by
      rw [getD_flip cs px hit hcs, getD_flip ds px hit hds, h j]
    rwa [← Array.getElem_eq_getD, ← Array.getElem_eq_getD] at hcell

/-- The picture with cells flipped one after another. -/
def turned (fb : FrameBuffer) (cs : List Nat) : FrameBuffer :=
  { fb with pixels := (flip cs fb.pixels false).1,
            size_pixels := by rw [size_flip, fb.size_pixels] }

theorem turned_turned (fb : FrameBuffer) (cs ds : List Nat) :
    (fb.turned cs).turned ds = fb.turned (cs ++ ds) := by
  simp only [turned, mk.injEq, true_and]
  rw [flip_append, flip_fst]

/-- Only whether a cell is flipped an odd number of times counts. -/
theorem turned_congr {fb : FrameBuffer} {cs ds : List Nat} (hcs : ∀ c ∈ cs, c < fb.pixels.size)
    (hds : ∀ c ∈ ds, c < fb.pixels.size) (h : ∀ j, cs.count j % 2 = ds.count j % 2) :
    fb.turned cs = fb.turned ds := by
  simp only [turned, mk.injEq, true_and]
  exact flip_congr hcs hds h

/-! ## Lists of draws -/

def place (p : Placement) : EStateM ScreenError FrameBuffer Bool := drawing p.x p.y p.height p.rows

/-- Draws one after another; each answers whether it collided. -/
def placeAll : List Placement → EStateM ScreenError FrameBuffer (List Bool)
  | [] => pure []
  | p :: ps => do
    let hit ← place p
    let hits ← placeAll ps
    return hit :: hits

/-- The cells that a draw flips. -/
def trail (fb : FrameBuffer) (p : Placement) : List Nat :=
  Sprite.cells fb.width fb.height p.x p.y ((p.rows.take p.height.toNat).map byteOf)

variable {fb : FrameBuffer} {p : Placement} {ps qs : List Placement}

theorem place_of_valid (h : p.Valid) :
    place p fb = .ok (flip (fb.trail p) fb.pixels false).2 (fb.turned (fb.trail p)) :=
  drawing_of_rows h.1 h.2

/-- Valid draws are all carried out, and flip their cells. -/
theorem placeAll_of_valid (fb : FrameBuffer) (h : ∀ p ∈ ps, p.Valid) :
    ∃ hits, placeAll ps fb = .ok hits (fb.turned (ps.flatMap fb.trail)) := by
  induction ps generalizing fb with
  | nil => exact ⟨[], rfl⟩
  | cons p ps ih =>
    obtain ⟨hits, hrest⟩ := ih (fb.turned (fb.trail p)) fun q hq => h q (.tail p hq)
    rw [turned_turned] at hrest
    refine ⟨(flip (fb.trail p) fb.pixels false).2 :: hits, ?_⟩
    exact bind_eq_ok.mpr ⟨_, _, place_of_valid (h p (.head ps)), bind_eq_ok.mpr ⟨_, _, hrest, rfl⟩⟩

theorem trail_lt_size : ∀ c ∈ ps.flatMap fb.trail, c < fb.pixels.size := by
  intro c hc
  obtain ⟨p, _, hp⟩ := List.mem_flatMap.mp hc
  exact cells_lt_size c hp

/-- Lists of draws that flip each cell an odd number of times alike leave the same picture. -/
theorem placeAll_congr {drawn : FrameBuffer} {hits : List Bool}
    (hdrawn : placeAll ps fb = .ok hits drawn) (hps : ∀ p ∈ ps, p.Valid) (hqs : ∀ q ∈ qs, q.Valid)
    (h : ∀ j, (qs.flatMap fb.trail).count j % 2 = (ps.flatMap fb.trail).count j % 2) :
    ∃ hits', placeAll qs fb = .ok hits' drawn := by
  obtain ⟨_, hp⟩ := placeAll_of_valid fb hps
  obtain ⟨hits', hq⟩ := placeAll_of_valid fb hqs
  cases hp.symm.trans hdrawn
  exact ⟨hits', by rw [hq, turned_congr trail_lt_size trail_lt_size h]⟩

/-- A list of valid draws is carried out as a whole and leaves the same picture in every order. It
leaves the same picture without any two draws that are the same, and the same sprite drawn
twice in a row changes nothing. -/
theorem placeAll_order_and_pairs (fb : FrameBuffer) (ps : List Placement)
    (h : ∀ p ∈ ps, p.Valid) : ∃ hits drawn, placeAll ps fb = .ok hits drawn ∧
      (∀ qs, qs.Perm ps → ∃ hits', placeAll qs fb = .ok hits' drawn) ∧
      (∀ p front middle back, ps = front ++ p :: middle ++ p :: back →
        ∃ hits', placeAll (front ++ middle ++ back) fb = .ok hits' drawn) ∧
      ∀ p, p.Valid → ∃ hits', placeAll [p, p] drawn = .ok hits' drawn := by
  obtain ⟨hits, hdrawn⟩ := placeAll_of_valid fb h
  refine ⟨hits, _, hdrawn, fun qs hperm => ?_, fun p front middle back hps => ?_, fun p hp => ?_⟩
  · refine placeAll_congr hdrawn h (fun q hq => h q (hperm.mem_iff.mp hq)) fun j => ?_
    rw [(hperm.flatMap_right fb.trail).count_eq]
  · subst hps
    refine placeAll_congr hdrawn h (fun q hq => h q ?_) fun j => ?_
    · simp only [List.mem_append, List.mem_cons] at hq ⊢
      tauto
    · simp only [List.flatMap_append, List.flatMap_cons, List.count_append]
      omega
  · have hnone : placeAll [] (fb.turned (ps.flatMap fb.trail)) = .ok [] _ := rfl
    refine placeAll_congr hnone (fun q hq => by cases hq) (fun q hq => ?_) fun j => ?_
    · obtain rfl : q = p := by simpa using hq
      exact hp
    · simp only [List.flatMap_cons, List.flatMap_nil, List.count_append, List.count_nil]
      omega

/-- On a grid of three pixels a full row turns the outer two over and leaves the middle one. -/
def bar : Placement := ⟨-1, 5, 1, [-1]⟩

/-- It turns the middle pixel over. -/
def dot : Placement := ⟨1, 0, 1, [0x80]⟩

/-- Two bars with a dot between them leave what the dot leaves alone. -/
theorem placeAll_order_and_pairs_narrow : (∀ p ∈ [bar, dot, bar], p.Valid) ∧
    ∃ drawn, (∃ hits, placeAll [bar, dot, bar] narrow = .ok hits drawn) ∧
      (∃ hits, placeAll [dot, bar, bar] narrow = .ok hits drawn) ∧
      (∃ hits, placeAll [dot] narrow = .ok hits drawn) ∧
      (∃ hits, placeAll [bar, bar] drawn = .ok hits drawn) ∧
      drawn.lit 0 0 = false ∧ drawn.lit 1 0 = true := by
  have valid : ∀ p ∈ [bar, dot, bar], p.Valid := by decide
  obtain ⟨hits, drawn, hdrawn, horder, hpairs, htwice⟩ := placeAll_order_and_pairs narrow _ valid
  have hperm := horder [dot, bar, bar] (.swap bar dot [bar])
  obtain ⟨left, hdot⟩ := hpairs bar [] [dot] [] rfl
  have hpixel : placeAll [dot] narrow = .ok [false] (narrow.turned [1]) := rfl
  cases hpixel.symm.trans hdot
  exact ⟨valid, _, ⟨hits, hdrawn⟩, hperm, ⟨_, hdot⟩, htwice bar (valid bar (.head _)), rfl, rfl⟩

end FrameBuffer

end Chip8
