import Chip8.Memory.Bus
import Chip8.Proofs.Outcome

/-! # The address map under stores

The layout of a bus says which block serves which address, of what kind each block is
and where it lies. It leaves out what the blocks hold. No store changes the layout and
none changes a font. On a bus whose blocks hold the addresses that they serve, a block
store goes through exactly when the checks in front of it do, so it happens as a whole
or not at all. -/

namespace Chip8

/-! ## Regions and blocks -/

namespace Region

@[simp] theorem size_put (r : Region) (k : Nat) (b : UInt8) :
    (r.put k b).bytes.size = r.bytes.size := by
  simp [put]

theorem offset_eq_ok {r : Region} {a : Int} (lo : r.start ≤ a) (hi : a ≤ r.stop) :
    r.offset a = .ok (a - r.start).toNat := by
  unfold stop at hi
  unfold offset
  exact if_pos ⟨by omega, by omega⟩

theorem store_eq_ok {r t : Region} {a v : Int} (h : r.store a v = .ok t) :
    ∃ k b, t = r.put k b := by
  unfold store at h
  obtain ⟨k, _, hk⟩ := except_bind_eq_ok.mp h
  cases hk
  exact ⟨k, byteOf v, rfl⟩

end Region

namespace Block

/-- What a block is to the bus: its kind and its first and last address. -/
def extent (b : Block) : BlockKind × Int × Int := (b.kind, b.start, b.stop)

/-- Without guests there are regions only. -/
theorem exists_region (b : Block) : ∃ k r, b = .region k r := by
  cases b with
  | region k r => exact ⟨k, r, rfl⟩
  | guest g => cases g

theorem isFont_eq_true {b : Block} : b.isFont = true ↔ b.kind = .region .font := by
  obtain ⟨k, r, rfl⟩ := b.exists_region
  cases k <;> simp [isFont, kind]

theorem extent_store8 {b t : Block} {a v : Int} (h : b.store8 a v = .ok t) :
    t.extent = b.extent := by
  obtain ⟨k, r, rfl⟩ := b.exists_region
  cases k with
  | font => cases h
  | ram | mainRam =>
    obtain ⟨r', hr, he⟩ := except_bind_eq_ok.mp h
    obtain ⟨k, b, rfl⟩ := Region.store_eq_ok hr
    cases he
    simp [extent, kind, start, stop, Region.stop, Region.put]

theorem isFont_of_extent {b t : Block} (h : t.extent = b.extent) : t.isFont = b.isFont := by
  have hk : t.kind = b.kind := congrArg Prod.fst h
  rw [Bool.eq_iff_iff, isFont_eq_true, isFont_eq_true, hk]

/-- A font refuses each store; any other region takes what lies in its range. -/
theorem store8_eq_ok {b : Block} {a : Int} (v : Int) (hf : b.isFont = false) (lo : b.start ≤ a)
    (hi : a ≤ b.stop) : ∃ t, b.store8 a v = .ok t := by
  obtain ⟨k, r, rfl⟩ := b.exists_region
  have ho := Region.offset_eq_ok (r := r) (a := a) lo hi
  cases k with
  | font => cases hf
  | ram | mainRam => exact ⟨_, by simp only [store8, Region.store, ho]; rfl⟩

theorem load8_eq_ok {k : RegionKind} {r : Region} {a : Int} (lo : r.start ≤ a)
    (hi : a ≤ r.stop) :
    (region k r : Block).load8 a = .ok ((r.bytes.getD (a - r.start).toNat 0).toNat : Int) := by
  simp only [load8, Region.load, Region.offset_eq_ok lo hi]
  rfl

end Block

namespace Bus

/-! ## The layout -/

structure Layout where
  extents : Array (BlockKind × Int × Int)
  space : Option (Array (Option Nat))
deriving DecidableEq

def layout (m : Bus) : Layout := ⟨m.blocks.map Block.extent, m.space⟩

theorem space_of_layout {m t : Bus} (h : t.layout = m.layout) : t.space = m.space :=
  congrArg Layout.space h

/-- The block that serves an address, with its place, as far as the layout knows it. -/
def Layout.server (l : Layout) (a : Int) :
    Except MemoryFault (Nat × BlockKind × Int × Int) :=
  match l.space with
  | none => .error .unallocated
  | some s =>
    if a < 0 ∨ s.size ≤ a then .error (.outsideSpace a s.size)
    else match s.getD a.toNat none with
      | none => .error (.unmapped a)
      | some id => match l.extents[id]? with
        | none => .error (.unmapped a)
        | some x => .ok (id, x)

theorem serving_eq (m : Bus) (a : Int) : m.serving a =
    match m.space with
    | none => .error .unallocated
    | some s =>
      if a < 0 ∨ s.size ≤ a then .error (.outsideSpace a s.size)
      else match s.getD a.toNat none with
        | none => .error (.unmapped a)
        | some id => match m.blocks[id]? with
          | none => .error (.unmapped a)
          | some b => .ok (id, b) := by
  unfold serving allocated
  cases m.space with
  | none => rfl
  | some s =>
    by_cases ha : a < 0 ∨ s.size ≤ a
    · simp [ha]
    · cases hs : s.getD a.toNat none with
      | none => simp only [ok_bind, pure_eq_ok, throw_eq_error, if_neg ha, hs]
      | some id =>
        cases hb : m.blocks[id]? with
        | none => simp only [ok_bind, pure_eq_ok, throw_eq_error, if_neg ha, hs, hb]
        | some b => simp only [ok_bind, pure_eq_ok, if_neg ha, hs, hb]

theorem server_layout (m : Bus) (a : Int) :
    m.layout.server a = (m.serving a).map fun p => (p.1, p.2.extent) := by
  rw [serving_eq]
  unfold Layout.server layout
  cases m.space with
  | none => rfl
  | some s =>
    by_cases ha : a < 0 ∨ s.size ≤ a
    · simp [ha, Except.map]
    · simp only [if_neg ha, Array.getElem?_map]
      cases s.getD a.toNat none with
      | none => rfl
      | some id =>
        dsimp only
        cases m.blocks[id]? <;> rfl

/-- Whoever serves an address is found in the pool. -/
theorem getElem?_of_serving {m : Bus} {a : Int} {id : Nat} {b : Block}
    (h : m.serving a = .ok (id, b)) : m.blocks[id]? = some b := by
  rw [serving_eq] at h
  split at h
  · cases h
  · split at h
    · cases h
    · split at h
      · cases h
      · split at h
        · cases h
        · rename_i hb
          cases h
          exact hb

/-- An address that is served lies in the space, which names the block. -/
theorem getElem?_space_of_serving {m : Bus} {a : Int} {id : Nat} {b : Block}
    (h : m.serving a = .ok (id, b)) :
    ∃ s, m.space = some s ∧ 0 ≤ a ∧ s[a.toNat]? = some (some id) := by
  rw [serving_eq] at h
  cases hs : m.space with
  | none => rw [hs] at h; cases h
  | some s =>
    rw [hs] at h
    dsimp only at h
    split at h
    · cases h
    · rw [Array.getD_eq_getD_getElem?] at h
      cases hg : s[a.toNat]? with
      | none => rw [hg] at h; cases h
      | some v =>
        rw [hg, Option.getD_some] at h
        cases v with
        | none => cases h
        | some k =>
          dsimp only at h
          split at h
          · cases h
          · cases h
            exact ⟨s, rfl, by omega, hg⟩

theorem serving_of_layout {m t : Bus} {a : Int} {id : Nat} {b : Block}
    (hl : t.layout = m.layout) (h : m.serving a = .ok (id, b)) :
    ∃ b', t.serving a = .ok (id, b') ∧ b'.extent = b.extent := by
  have hs := server_layout t a
  rw [hl, server_layout m a, h] at hs
  cases ht : t.serving a with
  | error e => rw [ht] at hs; cases hs
  | ok p =>
    obtain ⟨id', b'⟩ := p
    rw [ht] at hs
    simp only [Except.map, Except.ok.injEq, Prod.mk.injEq] at hs
    exact ⟨b', by rw [hs.1], hs.2.symm⟩

/-! ## Stores -/

/-- What stores can do to a bus: bytes of other blocks than fonts may be different. -/
structure Stored (m t : Bus) : Prop where
  layout : t.layout = m.layout
  fonts : ∀ (id : Nat) (r : Region), m.blocks[id]? = some (Block.region .font r) →
    t.blocks[id]? = some (Block.region .font r)

theorem Stored.refl (m : Bus) : Stored m m := ⟨rfl, fun _ _ h => h⟩

theorem Stored.trans {m t u : Bus} (h : Stored m t) (h' : Stored t u) : Stored m u :=
  ⟨h'.layout.trans h.layout, fun id r hr => h'.fonts id r (h.fonts id r hr)⟩

theorem layout_setBlock {m : Bus} {id : Nat} {b t : Block} (hb : m.blocks[id]? = some b)
    (he : t.extent = b.extent) : (m.setBlock id t).layout = m.layout := by
  unfold layout setBlock
  congr 1
  apply Array.ext_getElem?
  intro k
  simp only [Array.getElem?_map, Array.getElem?_setIfInBounds]
  by_cases hk : id = k
  · subst hk
    have hlt := (Array.getElem?_eq_some_iff.mp hb).1
    rw [if_pos rfl, if_pos hlt, hb, Option.map_some, Option.map_some, he]
  · simp [hk]

theorem stored_store8 (m : Bus) (a v : Int) : Stored m (leftBy (store8 a v) m) := by
  unfold leftBy store8
  cases hs : m.serving a with
  | error e => exact Stored.refl m
  | ok p =>
    obtain ⟨id, b⟩ := p
    have hb := getElem?_of_serving hs
    cases ht : b.store8 a v with
    | error e => simp only [ht]; exact Stored.refl m
    | ok t =>
      simp only [ht]
      refine ⟨layout_setBlock hb (Block.extent_store8 ht), fun k r hr => ?_⟩
      -- the block stored into is no font, so it is another one than block `k`
      have hk : id ≠ k := by
        intro he
        subst he
        rw [hb] at hr
        cases hr
        cases ht
      simp only [setBlock, Array.getElem?_setIfInBounds, if_neg hk]
      exact hr

theorem layout_of_store8 {m t : Bus} {a v : Int} (h : store8 a v m = .ok () t) :
    t.layout = m.layout := leftBy_of_ok h ▸ (stored_store8 m a v).layout

theorem stored_storeFrom (data : List Int) :
    ∀ (start : Int) (m : Bus), Stored m (leftBy (storeFrom start data) m) := by
  induction data with
  | nil => intro start m; exact Stored.refl m
  | cons v vs ih =>
    intro start m
    exact leftBy_bind (R := Stored) Stored.trans (stored_store8 m start v) fun _ t _ => ih (start + 1) t

theorem stored_storeBlock (m : Bus) (start : Int) (data : List Int) :
    Stored m (leftBy (storeBlock start data) m) := by
  unfold leftBy storeBlock
  cases m.checkRange start data.length with
  | error e => exact Stored.refl m
  | ok _ =>
    cases m.checkWritable start data.length with
    | error e => exact Stored.refl m
    | ok _ => exact stored_storeFrom data start m

theorem layout_of_storeBlock {m t : Bus} {start : Int} {data : List Int}
    (h : storeBlock start data m = .ok () t) : t.layout = m.layout :=
  leftBy_of_ok h ▸ (stored_storeBlock m start data).layout

theorem stored_store16 (m : Bus) (a v : Int) : Stored m (leftBy (store16 a v) m) :=
  leftBy_bind (R := Stored) Stored.trans (stored_store8 m a _) fun _ t _ => stored_store8 t (a + 1) _

/-! ## Blocks that hold what they serve -/

/-- Whoever serves an address lies around it. -/
def Covered (m : Bus) : Prop :=
  ∀ a id b, m.serving a = .ok (id, b) → b.start ≤ a ∧ a ≤ b.stop

theorem Covered.of_layout {m t : Bus} (h : m.Covered) (hl : t.layout = m.layout) :
    t.Covered := by
  intro a id b hs
  obtain ⟨b', hs', he⟩ := serving_of_layout hl.symm hs
  have hb := h a id b' hs'
  simp only [Block.extent, Prod.mk.injEq] at he
  rwa [he.2.1, he.2.2] at hb

/-- A byte is read from the region that serves its address. -/
theorem load8_of_serving {m : Bus} (hm : m.Covered) {a : Int} {id : Nat} {k : RegionKind}
    {r : Region} (h : m.serving a = .ok (id, .region k r)) :
    m.load8 a = .ok (r.bytes.getD (a - r.start).toNat 0) := by
  obtain ⟨lo, hi⟩ := hm a id _ h
  simp only [load8, h, ok_bind, Block.load8_eq_ok lo hi, pure_eq_ok, byteOf_toNat]

theorem checkRange_eq_ok {m : Bus} {start length : Int} :
    m.checkRange start length = .ok () ↔
      ∃ s, m.space = some s ∧ 0 ≤ length ∧ 0 ≤ start ∧ start + length ≤ s.size := by
  unfold checkRange allocated
  cases m.space with
  | none => simp
  | some s =>
    by_cases hl : length < 0
    · have hn : ¬ 0 ≤ length := by omega
      simp [hl, hn]
    · by_cases hr : start < 0 ∨ s.size < start + length
      · simp [hl, hr]
        omega
      · simp [hl, hr]
        omega

theorem capacity_eq_ok {m : Bus} {n : Nat} : m.capacity = .ok n ↔ ∃ s, m.space = some s ∧ s.size = n := by
  unfold capacity allocated
  cases m.space with
  | none => simp
  | some s => simp

/-- The check of a range asks whether it lies in the space. -/
theorem checkRange_iff {m : Bus} {n : Nat} (hn : m.capacity = .ok n) {start : Int} {len : Nat} :
    m.checkRange start len = .ok () ↔ 0 ≤ start ∧ start + len ≤ n := by
  obtain ⟨s, hs, rfl⟩ := capacity_eq_ok.mp hn
  rw [checkRange_eq_ok, hs]
  constructor
  · intro h
    obtain ⟨_, he, _, lo, hi⟩ := h
    cases he
    exact ⟨lo, hi⟩
  · intro h
    exact ⟨s, rfl, by omega, h.1, h.2⟩

theorem checkWritable_eq_ok {m : Bus} {n : Nat} :
    ∀ {start : Int}, m.checkWritable start n = .ok () ↔
      ∀ k : Nat, k < n → ∃ id b, m.serving (start + k) = .ok (id, b) ∧ b.isFont = false := by
  induction n with
  | zero => intro start; simp [checkWritable]
  | succ n ih =>
    intro start
    have hstep : m.checkWritable start (n + 1) = .ok () ↔
        (∃ id b, m.serving start = .ok (id, b) ∧ b.isFont = false) ∧
          m.checkWritable (start + 1) n = .ok () := by
      simp only [checkWritable]
      cases hs : m.serving start with
      | error e => simp
      | ok p =>
        obtain ⟨id, b⟩ := p
        cases hf : b.isFont with
        | true => simp [hf]
        | false =>
          rw [and_iff_right ⟨id, b, rfl, hf⟩]
          simp [hf]
    rw [hstep, ih]
    constructor
    · intro h k hk
      obtain ⟨h0, hn⟩ := h
      cases k with
      | zero => simpa using h0
      | succ k =>
        have := hn k (by omega)
        rwa [show start + 1 + (k : Int) = start + ((k + 1 : Nat) : Int) by omega] at this
    · intro h
      refine ⟨by simpa using h 0 (by omega), fun k hk => ?_⟩
      have := h (k + 1) (by omega)
      rwa [show start + 1 + (k : Int) = start + ((k + 1 : Nat) : Int) by omega]

theorem checkWritable_of_layout {m t : Bus} (hl : t.layout = m.layout) {start : Int} {n : Nat}
    (h : m.checkWritable start n = .ok ()) : t.checkWritable start n = .ok () := by
  rw [checkWritable_eq_ok] at h ⊢
  intro k hk
  obtain ⟨id, b, hs, hf⟩ := h k hk
  obtain ⟨b', hs', he⟩ := serving_of_layout hl hs
  exact ⟨id, b', hs', by rw [Block.isFont_of_extent he, hf]⟩

theorem store8_eq_ok {m : Bus} (hm : m.Covered) {a : Int} (v : Int) {id : Nat} {b : Block}
    (hs : m.serving a = .ok (id, b)) (hf : b.isFont = false) :
    ∃ t, store8 a v m = .ok () t := by
  obtain ⟨lo, hi⟩ := hm a id b hs
  obtain ⟨t, ht⟩ := Block.store8_eq_ok v hf lo hi
  exact ⟨m.setBlock id t, by simp only [store8, hs, ht]⟩

/-- Behind the check of the whole range no single store is refused: the stores before
it leave the layout as the check found it. -/
theorem storeFrom_eq_ok (data : List Int) :
    ∀ {start : Int} {m : Bus}, m.Covered → m.checkWritable start data.length = .ok () →
      ∃ t, storeFrom start data m = .ok () t := by
  induction data with
  | nil => intro start m _ _; exact ⟨m, rfl⟩
  | cons v vs ih =>
    intro start m hm hw
    obtain ⟨id, b, hs, hf⟩ := checkWritable_eq_ok.mp hw 0 (by simp)
    obtain ⟨u, hu⟩ := store8_eq_ok hm v (by simpa using hs) hf
    have hl := layout_of_store8 hu
    have hw' : m.checkWritable (start + 1) vs.length = .ok () := by
      rw [checkWritable_eq_ok] at hw ⊢
      intro k hk
      have := hw (k + 1) (by simpa using hk)
      rwa [show start + 1 + (k : Int) = start + ((k + 1 : Nat) : Int) by omega]
    obtain ⟨t, ht⟩ := ih (hm.of_layout hl) (checkWritable_of_layout hl hw')
    exact ⟨t, bind_eq_ok.mpr ⟨(), u, hu, ht⟩⟩

theorem storeBlock_eq_ok {m : Bus} (hm : m.Covered) {start : Int} {data : List Int} :
    (∃ t, storeBlock start data m = .ok () t) ↔
      m.checkRange start data.length = .ok () ∧ m.checkWritable start data.length = .ok () := by
  unfold storeBlock
  cases hr : m.checkRange start data.length with
  | error e => simp
  | ok _ =>
    cases hw : m.checkWritable start data.length with
    | error e => simp
    | ok _ => simpa using storeFrom_eq_ok data hm hw

/-- A block store that is refused is refused by a check. -/
theorem storeBlock_eq_error {m t : Bus} (hm : m.Covered) {start : Int} {data : List Int}
    {e : MemoryFault} (h : storeBlock start data m = .error e t) :
    t = m ∧ (m.checkRange start data.length = .error e ∨
      m.checkWritable start data.length = .error e) := by
  unfold storeBlock at h
  split at h
  · rename_i hr
    cases h
    exact ⟨rfl, .inl hr⟩
  · split at h
    · rename_i hw
      cases h
      exact ⟨rfl, .inr hw⟩
    · rename_i hw
      obtain ⟨u, hu⟩ := storeFrom_eq_ok data hm hw
      rw [hu] at h
      cases h

end Bus

end Chip8
