import Chip8.Proofs.Memory.Registration
import Chip8.Proofs.Memory.Store

/-! # Memory as a flat map

Behind the blocks a bus is one partial map from addresses to bytes. Which addresses it has and
which of them are fixed is settled when the blocks are registered. From then on an address shows
the byte that was last stored at it, and until then the byte of the block that serves it. -/

namespace Chip8

inductive Access
  | load8 (address : Int)
  | load16 (address : Int)
  | loadBlock (start length : Int)
  | store8 (address value : Int)
  | store16 (address value : Int)
  | storeBlock (start : Int) (data : List Int)
deriving DecidableEq

namespace Bus

/-- Bytes that were stored, each with its address, the latest first. -/
abbrev Log := List (Int × UInt8)

/-- The address takes bytes: it is served, and not by a font. -/
def writable (m : Bus) (a : Int) : Bool :=
  match m.serving a with
  | .ok (_, b) => !b.isFont
  | .error _ => false

def byteLog (m : Bus) (a v : Int) : Log := if m.writable a then [(a, byteOf v)] else []

/-- A word is stored high byte first, as far as its addresses take bytes. -/
def wordLog (m : Bus) (a v : Int) : Log :=
  if m.writable a then m.byteLog (a + 1) v ++ [(a, byteOf (v / 256))] else []

/-- Bytes at consecutive addresses. -/
def rowLog (start : Int) : List Int → Log
  | [] => []
  | v :: vs => rowLog (start + 1) vs ++ [(start, byteOf v)]

/-- A block is stored as a whole or not at all. -/
def blockLog (m : Bus) (start : Int) (data : List Int) : Log :=
  if (List.range data.length).all fun k => m.writable (start + k) then rowLog start data else []

/-- What an access stores. -/
def stores (m : Bus) : Access → Log
  | .store8 a v => m.byteLog a v
  | .store16 a v => m.wordLog a v
  | .storeBlock start data => m.blockLog start data
  | _ => []

/-- The bus behind an access, whether it was carried out or refused. -/
def access (m : Bus) : Access → Bus
  | .store8 a v => leftBy (store8 a v) m
  | .store16 a v => leftBy (store16 a v) m
  | .storeBlock start data => leftBy (storeBlock start data) m
  | _ => m

def accessAll (m : Bus) (as : List Access) : Bus := as.foldl access m

/-- All that a run of accesses stores. Who serves which address does not change on the way. -/
def history (m : Bus) : List Access → Log
  | [] => []
  | acc :: as => history m as ++ m.stores acc

/-- The second bus is the first one with these bytes stored. -/
structure Logs (log : Log) (m t : Bus) : Prop where
  layout : t.layout = m.layout
  load8 : ∀ a, t.load8 a = (m.load8 a).map fun b => (log.lookup a).getD b

variable {m t u : Bus}

theorem Logs.refl (m : Bus) : Logs [] m m := by
  refine ⟨rfl, fun a => ?_⟩
  cases m.load8 a <;> rfl

theorem Logs.trans {log log' : Log} (h : Logs log m t) (h' : Logs log' t u) :
    Logs (log' ++ log) m u := by
  refine ⟨h'.layout.trans h.layout, fun a => ?_⟩
  rw [h'.load8, h.load8, List.lookup_append]
  cases m.load8 a with
  | error e => rfl
  | ok b => cases log'.lookup a <;> rfl

theorem writable_eq_true {a : Int} : m.writable a = true ↔
    ∃ id b, m.serving a = .ok (id, b) ∧ b.isFont = false := by
  unfold writable
  cases m.serving a with
  | error e => simp
  | ok p =>
    obtain ⟨id, b⟩ := p
    rw [Bool.not_eq_true']
    constructor
    · intro hf
      exact ⟨id, b, rfl, hf⟩
    · intro h
      obtain ⟨_, _, he, hf⟩ := h
      cases he
      exact hf

theorem writable_of_layout (hl : t.layout = m.layout) (a : Int) : t.writable a = m.writable a := by
  have hone {m t : Bus} (hl : t.layout = m.layout) (h : m.writable a = true) :
      t.writable a = true := by
    obtain ⟨id, b, hs, hf⟩ := writable_eq_true.mp h
    obtain ⟨b', hs', he⟩ := serving_of_layout hl hs
    exact writable_eq_true.mpr ⟨id, b', hs', by rw [Block.isFont_of_extent he, hf]⟩
  exact Bool.eq_iff_iff.mpr ⟨hone hl.symm, hone hl⟩

theorem mem_space_of_writable {a : Int} (h : m.writable a = true) :
    ∃ s, m.space = some s ∧ 0 ≤ a ∧ a < s.size := by
  obtain ⟨id, b, hs, _⟩ := writable_eq_true.mp h
  obtain ⟨s, hspace, ha, hid⟩ := getElem?_space_of_serving hs
  have hlt := (Array.getElem?_eq_some_iff.mp hid).1
  exact ⟨s, hspace, ha, by omega⟩

/-! ## One access -/

theorem store8_of_writable (hm : m.Covered) {a : Int} (v : Int) (h : m.writable a = true) :
    ∃ t, store8 a v m = .ok () t ∧ Logs [(a, byteOf v)] m t := by
  obtain ⟨id, b, hs, hf⟩ := writable_eq_true.mp h
  obtain ⟨t, ht⟩ := store8_eq_ok hm v hs hf
  refine ⟨t, ht, layout_of_store8 ht, fun a' => ?_⟩
  rw [load8_store8 hm ht, List.lookup_cons]
  by_cases ha : a' = a
  · obtain ⟨k, r, rfl⟩ := b.exists_region
    rw [if_pos ha, ha, load8_of_serving hm hs, beq_self_eq_true]
    rfl
  · rw [if_neg ha, beq_false_of_ne ha]
    cases m.load8 a' <;> rfl

/-- What is refused is unserved or a font's, and nothing changes. -/
theorem store8_of_not_writable {a : Int} (v : Int) (h : m.writable a = false) :
    ∃ e, (m.serving a = .error e ∨ e = .readOnly a) ∧ store8 a v m = .error e m := by
  unfold store8
  cases hs : m.serving a with
  | error e => exact ⟨e, .inl rfl, rfl⟩
  | ok p =>
    obtain ⟨id, b⟩ := p
    have hf : b.isFont = true := by
      rw [← Bool.not_eq_false]
      intro hf
      rw [writable_eq_true.mpr ⟨id, b, hs, hf⟩] at h
      cases h
    obtain ⟨k, r, rfl⟩ := b.exists_region
    cases k with
    | font => exact ⟨_, .inr rfl, rfl⟩
    | ram | mainRam => cases hf

theorem logs_store8 (hm : m.Covered) (a v : Int) :
    Logs (m.byteLog a v) m (leftBy (store8 a v) m) := by
  unfold byteLog
  cases h : m.writable a with
  | true =>
    obtain ⟨t, ht, hlog⟩ := store8_of_writable hm v h
    rw [leftBy_of_ok ht]
    exact hlog
  | false =>
    obtain ⟨e, _, he⟩ := store8_of_not_writable v h
    rw [leftBy_of_error he]
    exact .refl m

theorem logs_store16 (hm : m.Covered) (a v : Int) :
    Logs (m.wordLog a v) m (leftBy (store16 a v) m) := by
  unfold wordLog store16
  cases h : m.writable a with
  | true =>
    obtain ⟨t, ht, hhigh⟩ := store8_of_writable hm (byteOf (v / 256)).toNat h
    have hlow := logs_store8 (hm.of_layout hhigh.layout) (a + 1) (byteOf v).toNat
    unfold byteLog at hlow ⊢
    rw [writable_of_layout hhigh.layout, byteOf_toNat] at hlow
    rw [byteOf_toNat] at hhigh
    rw [leftBy_bind_of_ok ht]
    exact hhigh.trans hlow
  | false =>
    obtain ⟨e, _, he⟩ := store8_of_not_writable (byteOf (v / 256)).toNat h
    rw [leftBy_of_error (bind_eq_error.mpr (.inl he))]
    exact .refl m

theorem logs_storeFrom (data : List Int) : ∀ {start : Int} {m t : Bus}, m.Covered →
    storeFrom start data m = .ok () t → Logs (rowLog start data) m t := by
  induction data with
  | nil =>
    intro start m t _ h
    cases h
    exact .refl m
  | cons v vs ih =>
    intro start m t hm h
    obtain ⟨_, u, hu, h⟩ := bind_eq_ok.mp h
    have hw : m.writable start = true := by
      rw [← Bool.not_eq_false]
      intro hw
      obtain ⟨e, _, he⟩ := store8_of_not_writable v hw
      cases he.symm.trans hu
    obtain ⟨_, hu', hlog⟩ := store8_of_writable hm v hw
    cases hu'.symm.trans hu
    exact hlog.trans (ih (hm.of_layout hlog.layout) h)

theorem all_writable {start : Int} {n : Nat} :
    ((List.range n).all fun k => m.writable (start + k)) = true ↔
      m.checkWritable start n = .ok () := by
  rw [List.all_eq_true, checkWritable_eq_ok]
  simp only [List.mem_range, writable_eq_true]

/-- Bytes that can all be stored lie in the space. -/
theorem checkRange_of_writable {start : Int} {n : Nat} (hn : 0 < n)
    (h : m.checkWritable start n = .ok ()) : m.checkRange start n = .ok () := by
  have hall (k : Nat) (hk : k < n) := writable_eq_true.mpr (checkWritable_eq_ok.mp h k hk)
  obtain ⟨s, hs, lo, _⟩ := mem_space_of_writable (hall 0 hn)
  obtain ⟨s', hs', _, hi⟩ := mem_space_of_writable (hall (n - 1) (by omega))
  cases hs.symm.trans hs'
  exact checkRange_eq_ok.mpr ⟨s, hs, by omega, by omega, by omega⟩

theorem logs_storeBlock (hm : m.Covered) (start : Int) (data : List Int) :
    Logs (m.blockLog start data) m (leftBy (storeBlock start data) m) := by
  unfold blockLog
  cases h : storeBlock start data m with
  | ok _ t =>
    obtain ⟨hr, hw⟩ := (storeBlock_eq_ok hm).mp ⟨t, h⟩
    rw [leftBy_of_ok h, if_pos (all_writable.mpr hw)]
    simp only [storeBlock, hr, hw] at h
    exact logs_storeFrom data hm h
  | error e t =>
    obtain ⟨rfl, _⟩ := storeBlock_eq_error hm h
    rw [leftBy_of_error h]
    by_cases hall : ((List.range data.length).all fun k => t.writable (start + k)) = true
    · rw [if_pos hall]
      -- only a block without bytes is refused in spite of that
      cases data with
      | nil => exact .refl t
      | cons v vs =>
        have hw := all_writable.mp hall
        have hr := checkRange_of_writable (Nat.succ_pos vs.length) hw
        obtain ⟨u, hu⟩ := (storeBlock_eq_ok hm).mpr ⟨hr, hw⟩
        cases hu.symm.trans h
    · rw [if_neg hall]
      exact .refl t

theorem logs_access (hm : m.Covered) (acc : Access) : Logs (m.stores acc) m (m.access acc) := by
  cases acc with
  | store8 a v => exact logs_store8 hm a v
  | store16 a v => exact logs_store16 hm a v
  | storeBlock start data => exact logs_storeBlock hm start data
  | _ => exact .refl m

/-! ## Runs of accesses -/

theorem stores_of_layout (hl : t.layout = m.layout) (acc : Access) : t.stores acc = m.stores acc := by
  cases acc <;> simp only [stores, byteLog, wordLog, blockLog, writable_of_layout hl]

theorem history_of_layout (hl : t.layout = m.layout) (as : List Access) :
    t.history as = m.history as := by
  induction as with
  | nil => rfl
  | cons acc as ih => rw [history, history, ih, stores_of_layout hl]

theorem logs_accessAll (as : List Access) : ∀ {m : Bus}, m.Covered →
    Logs (m.history as) m (m.accessAll as) := by
  induction as with
  | nil => intro m _; exact .refl m
  | cons acc as ih =>
    intro m hm
    have hfirst := logs_access hm acc
    have hrest := ih (hm.of_layout hfirst.layout)
    rw [history_of_layout hfirst.layout] at hrest
    exact hfirst.trans hrest

/-! ## Flat memory -/

/-- A bus that serves each address from one of the blocks of `m`, or not at all, and that shows
what was stored since then and where nothing was stored what the block held. -/
structure Flat (m : Bus) (server : Int → Option Nat) (log : Log) (t : Bus) : Prop where
  unserved : ∀ a, server a = none → ∃ e, Missing a e ∧ t.load8 a = .error e
  served : ∀ a id, server a = some id → ∃ b v, m.blocks[id]? = some b ∧ b.load8 a = .ok v ∧
    t.load8 a = .ok ((log.lookup a).getD (byteOf v))
  refused : ∀ a v, (∃ e u, store8 a v t = .error e u) ↔
    server a = none ∨ ∃ id b, server a = some id ∧ m.blocks[id]? = some b ∧ b.isFont = true
  stored : ∀ a v u, store8 a v t = .ok () u →
    ∀ a', u.load8 a' = if a' = a then .ok (byteOf v) else t.load8 a'
  word : ∀ a w, t.load16 a = .ok w ↔ ∃ high low,
    t.load8 a = .ok high ∧ t.load8 (a + 1) = .ok low ∧ w = 256 * high.toNat + low.toNat

theorem store8_refused_iff (hm : m.Covered) {a v : Int} :
    (∃ e t, store8 a v m = .error e t) ↔ m.writable a = false := by
  constructor
  · intro h
    obtain ⟨e, t, he⟩ := h
    rw [← Bool.not_eq_true]
    intro hw
    obtain ⟨u, hu, _⟩ := store8_of_writable hm v hw
    cases hu.symm.trans he
  · intro hw
    obtain ⟨e, _, he⟩ := store8_of_not_writable v hw
    exact ⟨e, m, he⟩

theorem load16_eq_ok {a : Int} {w : Nat} : m.load16 a = .ok w ↔ ∃ high low,
    m.load8 a = .ok high ∧ m.load8 (a + 1) = .ok low ∧ w = 256 * high.toNat + low.toNat := by
  unfold load16
  simp only [except_bind_eq_ok]
  constructor
  · intro h
    obtain ⟨high, hh, low, hl, hw⟩ := h
    cases hw
    exact ⟨high, low, hh, hl, by rw [wordFrom, Nat.mul_comm]⟩
  · intro h
    obtain ⟨high, low, hh, hl, rfl⟩ := h
    exact ⟨high, hh, low, hl, by rw [Nat.mul_comm]; rfl⟩

section Assembled

variable {capacity : Int} (hc : 0 < capacity ∧ capacity ≤ 65536) (ids : List Nat)
include hc

theorem writable_assemble {a : Int} : (assemble capacity ids m).writable a = false ↔
    server? capacity ids m a = none ∨ ∃ id b, server? capacity ids m a = some id ∧
      m.blocks[id]? = some b ∧ b.isFont = true := by
  unfold writable
  cases hs : server? capacity ids m a with
  | none =>
    obtain ⟨e, _, he⟩ := serving_of_server_none hc hs
    simp [he]
  | some id =>
    obtain ⟨b, hb, _, _, hserving⟩ := serving_of_server hc hs
    simp [hserving, hb]

theorem flat_accessAll (as : List Access) : Flat m (server? capacity ids m)
    ((assemble capacity ids m).history as) ((assemble capacity ids m).accessAll as) := by
  have hcovered : (assemble capacity ids m).Covered := covered_assemble hc
  have hlogs := logs_accessAll as hcovered
  have hcovered' := hcovered.of_layout hlogs.layout
  refine
    { unserved := fun a h => ?_
      served := fun a id h => ?_
      refused := fun a v => ?_
      stored := fun a v u h => load8_store8 hcovered' h
      word := fun a w => load16_eq_ok }
  · obtain ⟨e, hmissing, he⟩ := serving_of_server_none hc h
    exact ⟨e, hmissing, by rw [hlogs.load8, load8_of_serving_error he]; rfl⟩
  · obtain ⟨b, hb, lo, hi, hserving⟩ := serving_of_server hc h
    obtain ⟨k, r, rfl⟩ := b.exists_region
    refine ⟨.region k r, _, hb, Block.load8_eq_ok lo hi, ?_⟩
    rw [hlogs.load8, load8_of_serving hcovered hserving, byteOf_toNat]
    rfl
  · rw [store8_refused_iff hcovered', writable_of_layout hlogs.layout]
    exact writable_assemble hc ids

/-- A bus that is put together from regions, in whatever order and however they overlap, is flat
memory, and stays so over every run of accesses. -/
theorem assembled_flat :
    (∀ id e t, register id (assemble capacity ids m) = .error e t →
      t = assemble capacity ids m) ∧
    (∀ a, match server? capacity ids m a with
      | some id => ∃ b, m.blocks[id]? = some b ∧ (assemble capacity ids m).serving a = .ok (id, b)
      | none => ∃ e, Missing a e ∧ (assemble capacity ids m).serving a = .error e) ∧
    ∀ as, Flat m (server? capacity ids m) ((assemble capacity ids m).history as)
      ((assemble capacity ids m).accessAll as) := by
  refine ⟨fun id e t h => register_eq_error h, fun a => ?_, flat_accessAll hc ids⟩
  cases hs : server? capacity ids m a with
  | none => exact serving_of_server_none hc hs
  | some id =>
    obtain ⟨b, hb, _, _, hserving⟩ := serving_of_server hc hs
    exact ⟨b, hb, hserving⟩

end Assembled

/-- A font over the upper half of a small memory, and a block that does not fit into a space of
eight addresses. -/
def overlapping : Bus where
  blocks := #[.region .ram ⟨0, #[1, 2, 3, 4], by decide⟩, .region .font ⟨2, #[0xF0, 0x90], by decide⟩,
    .region .ram ⟨6, #[5, 6, 7], by decide⟩]

/-- A word is stored across the lower edge of the font, which keeps its byte. -/
theorem assembled_flat_overlapping :
    (0 < (8 : Int) ∧ (8 : Int) ≤ 65536) ∧
      ∃ t, t = (assemble 8 [0, 1, 2] overlapping).accessAll [.store16 1 0xABCD] ∧
        t.load8 1 = .ok 0xAB ∧ t.load8 2 = .ok 0xF0 ∧ t.load16 1 = .ok 0xABF0 ∧
        ∃ e, Missing 7 e ∧ t.load8 7 = .error e := by
  have hc : 0 < (8 : Int) ∧ (8 : Int) ≤ 65536 := by decide
  have hflat := (assembled_flat (m := overlapping) hc [0, 1, 2]).2.2 [.store16 1 0xABCD]
  have hlog : (assemble 8 [0, 1, 2] overlapping).history [.store16 1 0xABCD] = [(1, 0xAB)] := by
    decide
  rw [hlog] at hflat
  obtain ⟨_, _, hb, hv, hone⟩ := hflat.served 1 0 (by decide)
  cases hb
  cases hv
  obtain ⟨_, _, hb, hv, htwo⟩ := hflat.served 2 1 (by decide)
  cases hb
  cases hv
  refine ⟨hc, _, rfl, hone, htwo, ?_, hflat.unserved 7 (by decide)⟩
  exact (hflat.word 1 _).mpr ⟨_, _, hone, htwo, rfl⟩

end Bus

end Chip8
