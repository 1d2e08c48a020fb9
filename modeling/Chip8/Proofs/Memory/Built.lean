import Chip8.Proofs.Memory.Access

/-! # Every bus there is

A bus starts empty. Spaces are allocated, regions are made and registered, and bytes are stored
through the bus or into a block itself, in any order; each of these may be refused. Whatever is
done, a block that serves an address lies around it, as no operation moves a block and only
registrations choose who serves. -/

namespace Chip8

namespace Region

@[simp] theorem start_overlay (image : List UInt8) (r : Region) (k : Nat) :
    (r.overlay k image).start = r.start := by
  induction image generalizing r k with
  | nil => rfl
  | cons b bs ih => exact ih (r.put k b) (k + 1)

@[simp] theorem size_overlay (image : List UInt8) (r : Region) (k : Nat) :
    (r.overlay k image).bytes.size = r.bytes.size := by
  induction image generalizing r k with
  | nil => rfl
  | cons b bs ih => rw [overlay, ih, size_put]

end Region

namespace Block

/-- What can be written into a block itself, past the address map. -/
inductive Write
  | store8 (address value : Int)
  | store16 (address value : Int)
  | loadImage (address : Int) (image : List UInt8)

/-- The block that comes of it, or a fault and the block as it was. -/
def attempt (change : Block → Except MemoryFault Block) : EStateM MemoryFault Block Unit := fun b =>
  match change b with
  | .ok t => .ok () t
  | .error e => .error e b

def write : Write → EStateM MemoryFault Block Unit
  | .store8 a v => attempt (·.store8 a v)
  | .store16 a v => store16 a v
  | .loadImage a image => attempt (·.loadImage a image)

theorem extent_attempt {change : Block → Except MemoryFault Block} {b : Block}
    (h : ∀ t, change b = .ok t → t.extent = b.extent) :
    (leftBy (attempt change) b).extent = b.extent := by
  unfold leftBy attempt
  cases hc : change b with
  | ok t => exact h t hc
  | error e => rfl

theorem extent_store16 (b : Block) (a v : Int) : (leftBy (store16 a v) b).extent = b.extent := by
  unfold leftBy store16
  cases hhigh : b.store8 a (byteOf (v / 256)).toNat with
  | error e => rfl
  | ok t =>
    dsimp only
    cases hlow : t.store8 (a + 1) (byteOf v).toNat with
    | error e => exact extent_store8 hhigh
    | ok u => exact (extent_store8 hlow).trans (extent_store8 hhigh)

theorem extent_loadImage {b t : Block} {a : Int} {image : List UInt8}
    (h : b.loadImage a image = .ok t) : t.extent = b.extent := by
  obtain ⟨k, r, rfl⟩ := b.exists_region
  obtain ⟨r', hr, h⟩ := except_bind_eq_ok.mp h
  cases h
  obtain ⟨j, _, hr⟩ := except_bind_eq_ok.mp hr
  split at hr
  · cases hr
  · cases hr
    simp [extent, kind, start, stop, Region.stop]

theorem extent_write (w : Write) (b : Block) : (leftBy (write w) b).extent = b.extent := by
  cases w with
  | store8 a v => exact extent_attempt fun t h => extent_store8 h
  | store16 a v => exact extent_store16 b a v
  | loadImage a image => exact extent_attempt fun t h => extent_loadImage h

end Block

namespace Bus

/-- The buses that come of the operations on a new one. -/
inductive Built : Bus → Prop
  | empty : Built {}
  | allocated {m : Bus} (h : Built m) (capacity : Int) : Built (leftBy (allocate capacity) m)
  | added {m : Bus} (h : Built m) (kind : RegionKind) (r : Region) :
      Built (m.addBlock (.region kind r)).2
  | registered {m : Bus} (h : Built m) (id : Nat) : Built (leftBy (register id) m)
  | accessed {m : Bus} (h : Built m) (acc : Access) : Built (m.access acc)
  | written {m : Bus} (h : Built m) (id : Nat) (w : Block.Write) :
      Built (leftBy (onBlock id (Block.write w)) m)

/-- A block that serves an address lies around it. -/
def Layout.Sound (l : Layout) : Prop :=
  ∀ s (a id : Nat), l.space = some s → s[a]? = some (some id) →
    ∃ x, l.extents[id]? = some x ∧ x.2.1 ≤ a ∧ a ≤ x.2.2

theorem getElem?_layout (m : Bus) (id : Nat) :
    m.layout.extents[id]? = m.blocks[id]?.map Block.extent := by
  rw [layout, Array.getElem?_map]

theorem Layout.Sound.covered {m : Bus} (h : m.layout.Sound) : m.Covered := by
  intro a id b hs
  have hx : m.layout.extents[id]? = some b.extent := by
    rw [getElem?_layout, getElem?_of_serving hs, Option.map_some]
  obtain ⟨s, hspace, ha, hid⟩ := getElem?_space_of_serving hs
  obtain ⟨x, hx', lo, hi⟩ := h s a.toNat id hspace hid
  cases hx.symm.trans hx'
  rw [Int.toNat_of_nonneg ha] at lo hi
  exact ⟨lo, hi⟩

/-! ## What each operation does to the layout -/

theorem Layout.Sound.allocate {m : Bus} (h : m.layout.Sound) (capacity : Int) :
    (leftBy (Bus.allocate capacity) m).layout.Sound := by
  by_cases hc : 0 < capacity ∧ capacity ≤ 65536
  · rw [allocate_eq hc]
    intro s a id hs hid
    cases hs
    rw [Array.getElem?_replicate] at hid
    split at hid <;> cases hid
  · have hrefused : Bus.allocate capacity m = .error (.badCapacity capacity) m := if_neg hc
    rw [leftBy_of_error hrefused]
    exact h

/-- What was there keeps its place in the pool. -/
theorem Layout.Sound.addBlock {m : Bus} (h : m.layout.Sound) (kind : RegionKind) (r : Region) :
    (m.addBlock (.region kind r)).2.layout.Sound := by
  have hget (id : Nat) : (m.addBlock (.region kind r)).2.layout.extents[id]? =
      if id = m.blocks.size then some (Block.region kind r).extent else m.layout.extents[id]? := by
    rw [getElem?_layout, getElem?_layout]
    change (m.blocks.push _)[id]?.map _ = _
    rw [Array.getElem?_push]
    split <;> rfl
  intro s a id hs hid
  obtain ⟨x, hx, ha⟩ := h s a id hs hid
  refine ⟨x, ?_, ha⟩
  have hlt : id < m.layout.extents.size := (Array.getElem?_eq_some_iff.mp hx).1
  rw [layout, Array.size_map] at hlt
  rw [hget, if_neg (by omega), hx]

theorem Layout.Sound.register {m : Bus} (h : m.layout.Sound) (id : Nat) :
    (leftBy (Bus.register id) m).layout.Sound := by
  cases hr : Bus.register id m with
  | error e t =>
    rw [leftBy_of_error hr, register_eq_error hr]
    exact h
  | ok _ t =>
    rw [leftBy_of_ok hr]
    obtain ⟨_, rfl⟩ | ⟨s, b, hspace, hb, lo, hle, hi, rfl⟩ := register_inv hr
    · exact h
    · intro s' a id' hs' hid'
      cases hs'
      rw [getElem?_claim] at hid'
      split at hid'
      · cases hid'
        refine ⟨b.extent, ?_, ?_⟩
        · rw [getElem?_layout, hb, Option.map_some]
        · change b.start ≤ a ∧ a ≤ b.stop
          omega
      · exact h s a id' hspace hid'

theorem layout_access (m : Bus) (acc : Access) : (m.access acc).layout = m.layout := by
  cases acc with
  | store8 a v => exact (stored_store8 m a v).layout
  | store16 a v => exact (stored_store16 m a v).layout
  | storeBlock start data => exact (stored_storeBlock m start data).layout
  | _ => rfl

theorem layout_onBlock (m : Bus) (id : Nat) (w : Block.Write) :
    (leftBy (onBlock id (Block.write w)) m).layout = m.layout := by
  unfold leftBy onBlock
  cases hb : m.blocks[id]? with
  | none => rfl
  | some b =>
    have hext := Block.extent_write w b
    dsimp only
    cases hw : Block.write w b with
    | ok _ t =>
      rw [leftBy_of_ok hw] at hext
      exact layout_setBlock hb hext
    | error e t =>
      rw [leftBy_of_error hw] at hext
      exact layout_setBlock hb hext

theorem Built.sound {m : Bus} (h : m.Built) : m.layout.Sound := by
  induction h with
  | empty =>
    intro s a id hs
    cases hs
  | allocated _ capacity ih => exact ih.allocate capacity
  | added _ kind r ih => exact ih.addBlock kind r
  | registered _ id ih => exact ih.register id
  | accessed _ acc ih =>
    rw [layout_access]
    exact ih
  | written _ id w ih =>
    rw [layout_onBlock]
    exact ih

/-- So what is proved of buses that cover what they serve is proved of every bus. -/
theorem Built.covered {m : Bus} (h : m.Built) : m.Covered := h.sound.covered

theorem Built.registerAll (ids : List Nat) : ∀ {m : Bus}, m.Built →
    (Bus.registerAll ids m).Built := by
  induction ids with
  | nil => exact fun h => h
  | cons id ids ih => exact fun h => ih (h.registered id)

theorem Built.assemble {m : Bus} (h : m.Built) (capacity : Int) (ids : List Nat) :
    (Bus.assemble capacity ids m).Built := (h.allocated capacity).registerAll ids

end Bus

end Chip8
