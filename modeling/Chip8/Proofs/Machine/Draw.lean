import Chip8.Proofs.Machine.FaultDomain
import Chip8.Proofs.Memory.Store
import Chip8.Proofs.Screen.Display
import Chip8.Proofs.Screen.Sprite

/-! # What a draw comes to

On the standard picture a draw turns over the pixels on which a set bit of the sprite falls,
and the flag register tells whether one of them was lit. The registers that give the place are
read before the flag is written, also where one of them is the flag register. -/

namespace Chip8.Machine

/-- The word `DXYN`. -/
def drawWord (x y n : Nibble) : Nat := 0xD000 + x.val * 0x100 + y.val * 0x10 + n.val

/-- A set bit of the `n` rows at `I`, drawn at `Vx` and `Vy`, falls on this pixel. -/
def SpriteCovers (m : Machine) (x y n : Nibble) (px py : Nat) : Prop :=
  ∃ row column : Nat, row < n.val ∧ column < 8 ∧
    py = ((m.cpu.v.get y).toNat + row) % 32 ∧ px = ((m.cpu.v.get x).toNat + column) % 64 ∧
    ∃ b, m.bus.load8 (m.cpu.i + row) = .ok b ∧ b.toNat.testBit (7 - column) = true

/-- The sprite covers a pixel that is lit. -/
def SpriteCollides (m : Machine) (x y n : Nibble) : Prop :=
  ∃ px < 64, ∃ py < 32, m.SpriteCovers x y n px py ∧ m.display.screen.lit px py = true

/-- A picture of 64 by 32. -/
def Pictured (m : Machine) : Prop := m.display.screen.width = 64 ∧ m.display.screen.height = 32

/-- The second machine is what drawing makes of the first. -/
structure Draws (x y n : Nibble) (m t : Machine) : Prop where
  pictured : t.Pictured
  pixels : ∀ px < 64, ∀ py < 32,
    t.display.screen.lit px py = (!m.display.screen.lit px py) ↔ m.SpriteCovers x y n px py
  hit : m.SpriteCollides x y n → t.cpu.v.get flagRegister = 1
  missed : ¬ m.SpriteCollides x y n → t.cpu.v.get flagRegister = 0
  others : ∀ k, k ≠ flagRegister → t.cpu.v.get k = m.cpu.v.get k
  rest : t = { m with
    display := t.display
    cpu := { m.cpu with v := t.cpu.v, pc := m.cpu.pc + 2 }
    cycles := m.cycles + 1 }

variable {m : Machine} {x y n : Nibble} {rows : List UInt8}

theorem ofWord_drawWord (x y n : Nibble) :
    Operands.ofWord (drawWord x y n) = ⟨nibbleOf 0xD, x, y, n⟩ := by
  have hw : drawWord x y n = (Operands.mk (nibbleOf 0xD) x y n).word := by
    have hd : (nibbleOf 0xD).val = 0xD := rfl
    change 0xD000 + x.val * 0x100 + y.val * 0x10 + n.val =
      (((nibbleOf 0xD).val * 16 + x.val) * 16 + y.val) * 16 + n.val
    omega
  rw [hw, Operands.ofWord_word]

theorem decodes_drawWord (x y n : Nibble) : InstructionTable.Decodes (drawWord x y n) .draw := by
  have hx := x.isLt
  have hy := y.isLt
  have hn := n.isLt
  have ha : Routine.draw.pattern.accepts (drawWord x y n) = true := by
    unfold drawWord
    exact (Routine.accepts_draw (by omega)).mpr (by omega)
  exact InstructionTable.decodes_of_accepts (by decide) ha

/-- The rows in memory hit the pixels that they cover. -/
theorem hits_iff_covers (hp : m.Pictured) (hrows : m.bus.loadBlock m.cpu.i n.val = .ok rows)
    {px py : Nat} :
    m.display.screen.Hits (m.cpu.v.get x).toNat (m.cpu.v.get y).toNat rows px py ↔
      m.SpriteCovers x y n px py := by
  unfold FrameBuffer.Hits SpriteCovers
  rw [hp.1, hp.2]
  constructor
  · intro h
    obtain ⟨k, row, col, hrow, hcol, hbit, hx, hy⟩ := h
    obtain ⟨hk, hb⟩ := (Bus.getElem?_loadBlock hrows k row).mp hrow
    exact ⟨k, col, hk, hcol, by omega, by omega, row, hb, hbit⟩
  · intro h
    obtain ⟨k, col, hk, hcol, hy, hx, row, hb, hbit⟩ := h
    exact ⟨k, row, col, (Bus.getElem?_loadBlock hrows k row).mpr ⟨hk, hb⟩, hcol, hbit,
      by omega, by omega⟩

theorem sprite_fits (hp : m.Pictured) (hrows : m.bus.loadBlock m.cpu.i n.val = .ok rows) :
    8 ≤ m.display.screen.width ∧ rows.length ≤ m.display.screen.height := by
  have hn := n.isLt
  rw [hp.1, hp.2, Bus.length_loadBlock hrows]
  omega

theorem drawRows_hit_iff_collides (hp : m.Pictured)
    (hrows : m.bus.loadBlock m.cpu.i n.val = .ok rows) :
    (m.display.screen.drawRows (m.cpu.v.get x).toNat (m.cpu.v.get y).toNat rows).1 = true ↔
      m.SpriteCollides x y n := by
  obtain ⟨hw, hh⟩ := sprite_fits hp hrows
  rw [FrameBuffer.drawRows_hit hw hh, hp.1, hp.2]
  simp only [hits_iff_covers hp hrows, SpriteCollides]
  constructor
  · intro h
    obtain ⟨px, py, hx, hy, hc, hlit⟩ := h
    exact ⟨px, hx, py, hy, hc, hlit⟩
  · intro h
    obtain ⟨px, hx, py, hy, hc, hlit⟩ := h
    exact ⟨px, py, hx, hy, hc, hlit⟩

theorem draws_drawn (hp : m.Pictured) (hpc : 0 ≤ m.cpu.pc ∧ m.cpu.pc ≤ 0xFFE)
    (hrows : m.bus.loadBlock m.cpu.i n.val = .ok rows) :
    Draws x y n m (Routine.drawn (drawWord x y n) rows m.behind).counted := by
  obtain ⟨hw, hh⟩ := sprite_fits hp hrows
  have hscreen : (Routine.drawn (drawWord x y n) rows m.behind).counted.display.screen =
      (m.display.screen.drawRows (m.cpu.v.get x).toNat (m.cpu.v.get y).toNat rows).2 := by
    unfold Routine.drawn
    rw [ofWord_drawWord]
    exact Display.screen_drawRows _ _ _ _
  have hv : (Routine.drawn (drawWord x y n) rows m.behind).counted.cpu.v =
      setAt m.cpu.v flagRegister (if (m.display.screen.drawRows (m.cpu.v.get x).toNat
        (m.cpu.v.get y).toNat rows).1 then 1 else 0) := by
    unfold Routine.drawn
    rw [ofWord_drawWord]
    rfl
  have hcollides : _ ↔ m.SpriteCollides x y n := drawRows_hit_iff_collides hp hrows
  refine ⟨?_, ?_, ?_, ?_, ?_, ?_⟩
  · unfold Pictured
    rw [hscreen]
    exact hp
  · intro px hx py hy
    rw [hscreen, ← hits_iff_covers hp hrows]
    exact FrameBuffer.drawRows_turned hw hh (by rw [hp.1]; exact hx) (by rw [hp.2]; exact hy)
  · intro h
    rw [hv, get_setAt, if_pos rfl, if_pos (hcollides.mpr h)]
  · intro h
    rw [hv, get_setAt, if_pos rfl, if_neg fun hc => h (hcollides.mp hc)]
  · intro k hk
    rw [hv, get_setAt, if_neg hk]
  · have hbehind : m.behind = { m with cpu := { m.cpu with pc := m.cpu.pc + 2 } } := by
      rw [← pc_behind hpc.1 hpc.2]
      rfl
    rw [hbehind]
    rfl

/-- A draw whose rows are all in memory goes through, and this is what it does. -/
theorem cycle_draw (hm : m.Wired) (ht : m.table = .standard) (hp : m.Pictured)
    (hw : m.bus.load16 m.cpu.pc = .ok (drawWord x y n)) (lo : 0 ≤ m.cpu.i)
    (hi : m.cpu.i + n.val ≤ 0x1000) : ∃ i t, cycle m = .ok i t ∧ Draws x y n m t := by
  obtain ⟨rows, hrows⟩ := (hm.standard.loadBlock_eq_ok (n := n.val)).mpr ⟨lo, hi⟩
  obtain ⟨i, hf⟩ := finds_of_decodes ht hw (decodes_drawWord x y n)
  have hpc := hm.standard.load16_eq_ok.mp ⟨_, hw⟩
  have hrun : Routine.draw.run m.cpu.pc (drawWord x y n) m.behind =
      .ok () (Routine.drawn (drawWord x y n) rows m.behind) := by
    refine Routine.run_draw.mpr ⟨rows, ?_, rfl⟩
    rw [ofWord_drawWord]
    exact hrows
  exact ⟨i, _, cycle_eq_ok.mpr ⟨_, _, _, hf, hrun, rfl⟩, draws_drawn hp hpc hrows⟩

/-- A machine that is about to draw the glyph of zero across the lower right corner, at the
place that the flag register gives for both axes. -/
def cornered : Machine :=
  { bare with
    bus := wordBus 0xDF 0xF5
    cpu := { v := setAt (Vector.replicate 16 0) flagRegister 62 } }

/-- Three columns on and two rows down the glyph has come round to the upper left corner. -/
theorem cornered_covers : cornered.SpriteCovers 15 15 5 1 0 := by
  have hfont : (wordBus 0xDF 0xF5).blocks[0]? = some (.region .font fontRegion) := rfl
  have hv : (cornered.cpu.v.get 15).toNat = 62 := by decide
  refine ⟨2, 3, by decide, by decide, by rw [hv], by rw [hv], 0x90, ?_, by decide⟩
  exact (wordBus_standard 0xDF 0xF5).load8_font hfont (a := 2) (by decide)

theorem cycle_draw_cornered :
    cornered.Wired ∧ cornered.table = .standard ∧ cornered.Pictured ∧
      cornered.bus.load16 cornered.cpu.pc = .ok (drawWord 15 15 5) ∧ 0 ≤ cornered.cpu.i ∧
      cornered.cpu.i + 5 ≤ 0x1000 ∧
      ∃ i t, cycle cornered = .ok i t ∧ Draws 15 15 5 cornered t ∧
        t.display.screen.lit 1 0 = true ∧ t.cpu.v.get flagRegister = 0 := by
  have hm : cornered.Wired := ⟨{}, bare, create_bare, wordBus_layout 0xDF 0xF5⟩
  have ht : cornered.table = .standard := rfl
  have hp : cornered.Pictured := ⟨rfl, rfl⟩
  have hw : cornered.bus.load16 cornered.cpu.pc = .ok (drawWord 15 15 5) :=
    load16_wordBus 0xDF 0xF5
  obtain ⟨i, t, hc, hd⟩ := cycle_draw hm ht hp hw (by decide) (by decide)
  have hblank : ∀ px py, cornered.display.screen.lit px py = false :=
    FrameBuffer.lit_blank (by decide) (by decide)
  refine ⟨hm, ht, hp, hw, by decide, by decide, i, t, hc, hd, ?_, ?_⟩
  · rw [(hd.pixels 1 (by decide) 0 (by decide)).mpr cornered_covers, hblank]
    rfl
  · refine hd.missed fun h => ?_
    obtain ⟨px, _, py, _, _, hlit⟩ := h
    rw [hblank] at hlit
    cases hlit

end Chip8.Machine
