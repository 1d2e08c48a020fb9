import Chip8.Machine.Create
import Chip8.Proofs.Memory.Layout

/-! # The memory map of a machine

A machine is switched on with the font from address zero to 0x4F and main memory from
there to 0xFFF. Under this map every address below 0x1000 can be read and no other one,
and what can be stored is exactly what lies in main memory as a whole. -/

namespace Chip8

namespace Bus

/-- The font at the bottom, main memory above it, and nothing else. -/
structure Standard (m : Bus) : Prop where
  extents : m.layout.extents =
    #[(.region .font, 0, 0x4F), (.region .mainRam, 0x50, 0xFFF)]
  space : ∃ s, m.layout.space = some s ∧ s.size = 0x1000 ∧
    ∀ a < 0x1000, s[a]? = some (some (if a < 0x50 then 0 else 1))

theorem Standard.of_layout {m t : Bus} (h : m.Standard) (hl : t.layout = m.layout) :
    t.Standard := by
  refine ⟨?_, ?_⟩
  · rw [hl]; exact h.extents
  · rw [hl]; exact h.space

theorem Standard.server {m : Bus} (h : m.Standard) {a : Int} (lo : 0 ≤ a) (hi : a < 0x1000) :
    m.layout.server a = .ok (if a < 0x50 then (0, .region .font, 0, 0x4F)
      else (1, .region .mainRam, 0x50, 0xFFF)) := by
  obtain ⟨s, hs, hsize, hserve⟩ := h.space
  have hn : ¬ (a < 0 ∨ (s.size : Int) ≤ a) := by omega
  have hid : s.getD a.toNat none = some (if a < 0x50 then 0 else 1) := by
    rw [Array.getD_eq_getD_getElem?, hserve a.toNat (by omega), Option.getD_some]
    by_cases ha : a < 0x50
    · rw [if_pos ha, if_pos (by omega)]
    · rw [if_neg ha, if_neg (by omega)]
  unfold Layout.server
  simp only [hs, if_neg hn, hid, h.extents]
  by_cases ha : a < 0x50 <;> simp [ha]

theorem Standard.serving {m : Bus} (h : m.Standard) {a : Int} (lo : 0 ≤ a)
    (hi : a < 0x1000) :
    ∃ b, m.serving a = .ok (if a < 0x50 then 0 else 1, b) ∧
      b.extent = if a < 0x50 then (.region .font, 0, 0x4F) else (.region .mainRam, 0x50, 0xFFF) := by
  have hs := h.server lo hi
  rw [server_layout] at hs
  cases hb : m.serving a with
  | error e => rw [hb] at hs; cases hs
  | ok p =>
    obtain ⟨id, b⟩ := p
    rw [hb] at hs
    simp only [Except.map, Except.ok.injEq] at hs
    refine ⟨b, ?_, ?_⟩
    · rw [show id = if a < 0x50 then 0 else 1 by
        split at hs <;> simp_all]
    · split at hs <;> simp_all

theorem Standard.serving_outside {m : Bus} (h : m.Standard) {a : Int}
    (ha : a < 0 ∨ 0x1000 ≤ a) : m.serving a = .error (.outsideSpace a 0x1000) := by
  obtain ⟨s, hs, hsize, _⟩ := h.space
  rw [serving_eq, show m.space = some s from hs]
  simp only [hsize]
  exact if_pos ha

theorem Standard.covered {m : Bus} (h : m.Standard) : m.Covered := by
  intro a id b hs
  by_cases ha : 0 ≤ a ∧ a < 0x1000
  · obtain ⟨b', hs', he⟩ := h.serving ha.1 ha.2
    rw [hs] at hs'
    obtain rfl : b = b' := by simpa using (Except.ok.inj hs' |> congrArg Prod.snd)
    split at he
    · simp only [Block.extent, Prod.mk.injEq] at he
      exact ⟨by omega, by omega⟩
    · simp only [Block.extent, Prod.mk.injEq] at he
      exact ⟨by omega, by omega⟩
  · rw [h.serving_outside (by omega)] at hs
    cases hs

/-! ## Reading -/

theorem Standard.load8_eq_ok {m : Bus} (h : m.Standard) {a : Int} :
    (∃ b, m.load8 a = .ok b) ↔ 0 ≤ a ∧ a ≤ 0xFFF := by
  constructor
  · intro hr
    obtain ⟨b, hb⟩ := hr
    obtain ⟨p, hp, _⟩ := except_bind_eq_ok.mp hb
    by_cases ha : 0 ≤ a ∧ a ≤ 0xFFF
    · exact ha
    · rw [h.serving_outside (by omega)] at hp
      cases hp
  · intro hr
    obtain ⟨lo, hi⟩ := hr
    obtain ⟨b, hs, _⟩ := h.serving lo (by omega)
    obtain ⟨hlo, hhi⟩ := h.covered a _ b hs
    obtain ⟨k, r, rfl⟩ := b.exists_region
    exact ⟨_, by simp only [load8, hs, ok_bind, Block.load8_eq_ok hlo hhi]; rfl⟩

theorem load16_of_load8 {m : Bus} {a : Nat} {high low : UInt8} (hh : m.load8 a = .ok high)
    (hl : m.load8 (a + 1 : Nat) = .ok low) : m.load16 a = .ok (wordFrom high low) := by
  rw [Int.natCast_add] at hl
  simp only [load16, hh, ok_bind, pure_eq_ok, show m.load8 ((a : Int) + 1) = _ from hl]

theorem Standard.load8_font {m : Bus} (h : m.Standard) {k : RegionKind} {r : Region}
    (hb : m.blocks[0]? = some (.region k r)) {a : Nat} (hi : a < 0x50) :
    m.load8 a = .ok (r.bytes.getD a 0) := by
  obtain ⟨b, hs, he⟩ := h.serving (a := a) (by omega) (by omega)
  rw [if_pos (by omega)] at hs he
  obtain rfl := Option.some.inj ((getElem?_of_serving hs).symm.trans hb)
  have hstart : (r.start : Int) = 0 := congrArg (·.2.1) he
  rw [load8_of_serving h.covered hs, hstart, Int.sub_zero, Int.toNat_natCast]

theorem Standard.load8_ram {m : Bus} (h : m.Standard) {k : RegionKind} {r : Region}
    (hb : m.blocks[1]? = some (.region k r)) {a : Nat} (lo : 0x50 ≤ a) (hi : a < 0x1000) :
    m.load8 a = .ok (r.bytes.getD (a - 0x50) 0) := by
  obtain ⟨b, hs, he⟩ := h.serving (a := a) (by omega) (by omega)
  rw [if_neg (by omega)] at hs he
  obtain rfl := Option.some.inj ((getElem?_of_serving hs).symm.trans hb)
  have hstart : (r.start : Int) = 0x50 := congrArg (·.2.1) he
  rw [load8_of_serving h.covered hs, hstart, show ((a : Int) - 0x50).toNat = a - 0x50 by omega]

theorem Standard.load16_eq_ok {m : Bus} (h : m.Standard) {a : Int} :
    (∃ w, m.load16 a = .ok w) ↔ 0 ≤ a ∧ a ≤ 0xFFE := by
  constructor
  · intro hr
    obtain ⟨w, hw⟩ := hr
    obtain ⟨high, hh, hw⟩ := except_bind_eq_ok.mp hw
    obtain ⟨low, hl, _⟩ := except_bind_eq_ok.mp hw
    have h1 := h.load8_eq_ok.mp ⟨high, hh⟩
    have h2 := h.load8_eq_ok.mp ⟨low, hl⟩
    omega
  · intro hr
    obtain ⟨lo, hi⟩ := hr
    obtain ⟨high, hh⟩ := h.load8_eq_ok.mpr ⟨lo, by omega⟩
    obtain ⟨low, hl⟩ := (h.load8_eq_ok (a := a + 1)).mpr ⟨by omega, by omega⟩
    exact ⟨wordFrom high low, by simp only [load16, hh, hl, ok_bind, pure_eq_ok]⟩

theorem length_loadFrom {m : Bus} {n : Nat} :
    ∀ {start : Int} {bs : List UInt8}, m.loadFrom start n = .ok bs → bs.length = n := by
  induction n with
  | zero => intro start bs h; cases h; rfl
  | succ n ih =>
    intro start bs h
    obtain ⟨b, _, h⟩ := except_bind_eq_ok.mp h
    obtain ⟨rest, hr, h⟩ := except_bind_eq_ok.mp h
    cases h
    simp [ih hr]

theorem Standard.loadFrom_eq_ok {m : Bus} (h : m.Standard) {n : Nat} :
    ∀ start : Int, 0 ≤ start → start + n ≤ 0x1000 → ∃ bs, m.loadFrom start n = .ok bs := by
  induction n with
  | zero => intro start _ _; exact ⟨[], rfl⟩
  | succ n ih =>
    intro start lo hi
    obtain ⟨b, hb⟩ := h.load8_eq_ok.mpr ⟨lo, show start ≤ 0xFFF by omega⟩
    obtain ⟨bs, hbs⟩ := ih (start + 1) (by omega) (by omega)
    exact ⟨b :: bs, by simp only [loadFrom, hb, hbs, ok_bind, pure_eq_ok]⟩

theorem Standard.capacity {m : Bus} (h : m.Standard) : m.capacity = .ok 0x1000 := by
  obtain ⟨s, hs, hsize, _⟩ := h.space
  exact capacity_eq_ok.mpr ⟨s, hs, hsize⟩

theorem Standard.checkRange_eq_ok {m : Bus} (h : m.Standard) {start : Int} {n : Nat} :
    m.checkRange start n = .ok () ↔ 0 ≤ start ∧ start + n ≤ 0x1000 :=
  checkRange_iff h.capacity

theorem Standard.loadBlock_eq_ok {m : Bus} (h : m.Standard) {start : Int} {n : Nat} :
    (∃ bs, m.loadBlock start n = .ok bs) ↔ 0 ≤ start ∧ start + n ≤ 0x1000 := by
  rw [← h.checkRange_eq_ok]
  constructor
  · intro hr
    obtain ⟨bs, hbs⟩ := hr
    obtain ⟨_, hc, _⟩ := except_bind_eq_ok.mp hbs
    exact hc
  · intro hc
    obtain ⟨lo, hi⟩ := h.checkRange_eq_ok.mp hc
    obtain ⟨bs, hbs⟩ := h.loadFrom_eq_ok start lo hi
    exact ⟨bs, by simp only [loadBlock, hc, ok_bind, Int.toNat_natCast, hbs]⟩

theorem Standard.loadBlock_refused {m : Bus} (h : m.Standard) {start : Int} {n : Nat} :
    (∃ e, m.loadBlock start n = .error e) ↔ start < 0 ∨ 0x1000 < start + n := by
  have hok : (∃ bs, m.loadBlock start n = .ok bs) ↔ _ := h.loadBlock_eq_ok
  cases hb : m.loadBlock start n with
  | ok bs =>
    have := hok.mp ⟨bs, hb⟩
    constructor
    · intro hr
      obtain ⟨e, he⟩ := hr
      cases he
    · omega
  | error e =>
    have hn : ¬ (0 ≤ start ∧ start + n ≤ 0x1000) := by
      intro hr
      obtain ⟨bs, hbs⟩ := hok.mpr hr
      cases hb.symm.trans hbs
    exact ⟨fun _ => by omega, fun _ => ⟨e, rfl⟩⟩

/-! ## Storing -/

theorem Standard.isFont_of_serving {m : Bus} (h : m.Standard) {a : Int} {id : Nat} {b : Block}
    (hs : m.serving a = .ok (id, b)) : b.isFont = true ↔ a < 0x50 := by
  by_cases ha : 0 ≤ a ∧ a < 0x1000
  · obtain ⟨b', hs', he⟩ := h.serving ha.1 ha.2
    rw [hs] at hs'
    obtain rfl : b = b' := by simpa using (Except.ok.inj hs' |> congrArg Prod.snd)
    rw [Block.isFont_eq_true, show b.kind = b.extent.1 from rfl, he]
    by_cases hf : a < 0x50 <;> simp [hf]
  · rw [h.serving_outside (by omega)] at hs
    cases hs

/-- What is not empty can be stored exactly where all of it lies in main memory. -/
theorem Standard.storeBlock_eq_ok {m : Bus} (h : m.Standard) {start : Int} {data : List Int}
    (hd : data ≠ []) :
    (∃ t, storeBlock start data m = .ok () t) ↔
      0x50 ≤ start ∧ start + data.length ≤ 0x1000 := by
  have hpos := List.length_pos_iff.mpr hd
  rw [Bus.storeBlock_eq_ok h.covered, h.checkRange_eq_ok, checkWritable_eq_ok]
  constructor
  · intro hr
    obtain ⟨⟨lo, hi⟩, hw⟩ := hr
    obtain ⟨id, b, hs, hf⟩ := hw 0 hpos
    have hfont := h.isFont_of_serving hs
    rw [hf] at hfont
    have hn : ¬ start + ((0 : Nat) : Int) < 0x50 := fun ha => absurd (hfont.mpr ha) (by decide)
    exact ⟨by omega, hi⟩
  · intro hr
    obtain ⟨lo, hi⟩ := hr
    refine ⟨⟨by omega, hi⟩, fun k hk => ?_⟩
    obtain ⟨b, hs, _⟩ := h.serving (a := start + k) (by omega) (by omega)
    have := h.isFont_of_serving hs
    refine ⟨_, b, hs, ?_⟩
    rw [← Bool.not_eq_true, this]
    omega

theorem Standard.storeBlock_refused {m : Bus} (h : m.Standard) {start : Int} {data : List Int}
    (hd : data ≠ []) : (∃ e t, storeBlock start data m = .error e t) ↔
      start < 0x50 ∨ 0x1000 < start + data.length := by
  have hok : (∃ t, storeBlock start data m = .ok () t) ↔ _ := h.storeBlock_eq_ok hd
  cases hb : storeBlock start data m with
  | ok _ t =>
    have := hok.mp ⟨t, hb⟩
    constructor
    · intro hr
      obtain ⟨e, t, he⟩ := hr
      cases he
    · omega
  | error e t =>
    have hn : ¬ (0x50 ≤ start ∧ start + data.length ≤ 0x1000) := by
      intro hr
      obtain ⟨u, hu⟩ := hok.mpr hr
      cases hb.symm.trans hu
    exact ⟨fun _ => by omega, fun _ => ⟨e, t, rfl⟩⟩

end Bus

end Chip8
