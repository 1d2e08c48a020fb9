import Chip8.Proofs.Machine.Bounds
import Chip8.Proofs.Machine.Event
import Chip8.Proofs.Machine.FaultDomain

/-! # What holds of every machine

A machine is reachable when it came out of switching one on, of an event, or of a step or
a frame of some pacer. All of them are sound: every number of a reachable machine is in
the range that belongs to it, and the font is in its place. -/

namespace Chip8

/-- Timers, index and program counter in range. The program counter gets as far as an
offset jump can. -/
structure CpuState.Bounded (c : CpuState) : Prop where
  delay : 0 ≤ c.delay ∧ c.delay ≤ 255
  sound : 0 ≤ c.sound ∧ c.sound ≤ 255
  index : 0 ≤ c.i ∧ c.i ≤ 0xFFFF
  counter : 0 ≤ c.pc ∧ c.pc ≤ 0x10FE

theorem CpuState.bounded_new : ({} : CpuState).Bounded :=
  ⟨by decide, by decide, by decide, by decide⟩

namespace Machine

/-- The machines that can come about after `create o`. -/
inductive Reachable (o : Options) : Machine → Prop
  | created {m : Machine} (h : create o = .ok m) : Reachable o m
  | event {m : Machine} (e : Event) (h : Reachable o m) : Reachable o (e.after m)
  | step {p : Pacer} (h : Reachable o p.machine) : Reachable o (leftBy Pacer.step p).machine
  | frame {p : Pacer} (h : Reachable o p.machine) : Reachable o (leftBy Pacer.frame p).machine

structure Sound (o : Options) (m : Machine) : Prop where
  fonted : m.bus.Fonted
  table : m.table = .standard
  cpu : m.cpu.Bounded
  capacity : m.stack.capacity = 16
  /-- An address behind an instruction that could be read. -/
  returns : ∀ a ∈ m.stack.toList, 2 ≤ a.toNat ∧ a.toNat ≤ 0x1000
  dimensions : m.display.screen.width = o.display.screen.width ∧
    m.display.screen.height = o.display.screen.height
  random : ∀ l, o.random = .lanes l → ∃ l', m.random = .lanes l'

variable {o : Options} {m t : Machine}

theorem create_sound (h : create o = .ok m) : m.Sound o := by
  have hf := create_fonted h
  obtain ⟨bus, rom, _, rfl⟩ := create_eq_ok h
  refine ⟨hf, rfl, CpuState.bounded_new, rfl, ?_, ⟨rfl, rfl⟩, fun l hl => ⟨l, hl⟩⟩
  intro a ha
  cases ha

theorem Sound.reset (h : m.Sound o) : m.reset.Sound o := by
  refine { h with cpu := CpuState.bounded_new, returns := fun a ha => ?_ }
  cases ha

theorem Sound.tick (h : m.Sound o) : m.tick.Sound o := by
  have hd := h.cpu.delay
  have hs := h.cpu.sound
  refine { h with cpu := { h.cpu with delay := ?_, sound := ?_ } }
  · change 0 ≤ (if 0 < m.cpu.delay then m.cpu.delay - 1 else m.cpu.delay) ∧
      (if 0 < m.cpu.delay then m.cpu.delay - 1 else m.cpu.delay) ≤ 255
    split <;> omega
  · change 0 ≤ (if 0 < m.cpu.sound then m.cpu.sound - 1 else m.cpu.sound) ∧
      (if 0 < m.cpu.sound then m.cpu.sound - 1 else m.cpu.sound) ≤ 255
    split <;> omega

theorem Sound.aside {e : Event} (h : m.Sound o) (ha : Event.Aside e m t) : t.Sound o := by
  rcases ha.timers with ⟨hd, hs⟩ | ⟨_, rfl⟩
  · have hf := h.fonted.of_stored ha.stored
    have hc : t.cpu.Bounded := by
      rw [ha.rest]
      exact { h.cpu with delay := hd ▸ h.cpu.delay, sound := hs ▸ h.cpu.sound }
    rw [ha.rest] at hc ⊢
    exact { h with fonted := hf, cpu := hc }
  · exact h.tick

/-- A routine starts behind an instruction that could be read, so two addresses or more
from the bottom of memory and not beyond its end. -/
theorem Sound.run {r : Routine} {w : Nat} {u : Machine} (h : m.Sound o)
    (hw : m.bus.load16 m.cpu.pc = .ok w) (hrun : r.run m.cpu.pc w m.behind = .ok () u) :
    u.Sound o := by
  obtain ⟨lo, hi⟩ := h.fonted.standard.load16_eq_ok.mp ⟨w, hw⟩
  have hpc := pc_behind lo hi
  have hrest := Routine.run_rest hrun
  have hstored : Bus.Stored m.behind.bus u.bus := Routine.run_stored hrun
  refine
    { fonted := h.fonted.of_stored hstored
      table := ?_
      cpu := ⟨Routine.run_delay hrun h.cpu.delay, Routine.run_sound hrun h.cpu.sound,
        Routine.run_index hrun h.cpu.index,
        Routine.run_counter hrun (by omega) (by omega) fun a ha => (h.returns a ha).2⟩
      capacity := (Routine.run_capacity hrun).trans h.capacity
      returns := Routine.run_returns hrun (by omega) (by omega) h.returns
      dimensions := ?_
      random := fun l hl => ?_ }
  · rw [hrest]
    exact h.table
  · obtain ⟨hwidth, hheight⟩ := Routine.run_dimensions hrun
    exact ⟨hwidth.trans h.dimensions.1, hheight.trans h.dimensions.2⟩
  · obtain ⟨l', hl'⟩ := h.random l hl
    exact Routine.run_random hrun hl'

theorem Sound.cycle (h : m.Sound o) : (Event.cycle.after m).Sound o := by
  rcases Event.after_cycle h.fonted.standard.covered with ⟨i, t, hc, ht⟩ | ⟨_, ht⟩
  · rw [ht]
    obtain ⟨w, r, u, hf, hrun, rfl⟩ := cycle_eq_ok.mp hc
    exact { h.run hf.word hrun with }
  · rw [ht]
    exact h

theorem Sound.event (h : m.Sound o) (e : Event) : (e.after m).Sound o := by
  by_cases hc : e = .cycle
  · rw [hc]
    exact h.cycle
  · by_cases hr : e = .reset
    · rw [hr]
      exact h.reset
    · exact h.aside (Event.after_aside m hc hr)

theorem Reachable.sound (h : Reachable o m) : m.Sound o := by
  induction h with
  | created h => exact create_sound h
  | event e _ ih => exact ih.event e
  | step _ ih =>
    rw [Pacer.machine_step]
    exact ih.cycle
  | frame _ ih => exact Pacer.frame_keeps (fun _ h => h.cycle) (fun _ h => h.tick) _ ih

/-- A cycle on FX29 points the index at the glyph of the low nibble of `Vx`. -/
theorem Sound.cycle_loadGlyph (h : m.Sound o) {w : Nat} (hw : m.bus.load16 m.cpu.pc = .ok w)
    (hlead : w / 4096 = 0xF) (hend : w % 256 = 0x29) :
    ∃ i t, Machine.cycle m = .ok i t ∧ t.bus.loadBlock t.cpu.i 5 =
      .ok (Glyph.rows (m.cpu.v.get (Operands.ofWord w).x).toNat) := by
  have ha : Routine.loadGlyph.pattern.accepts w = true :=
    (Routine.accepts_miscellaneous (Bus.load16_lt hw) 0x2 0x9 (by decide) (by decide)).mpr
      ⟨hlead, hend⟩
  obtain ⟨i, hf⟩ := finds_of_decodes h.table hw
    (InstructionTable.decodes_of_accepts (by decide) ha)
  exact ⟨i, _, cycle_eq_ok.mpr ⟨w, .loadGlyph, _, hf, rfl, rfl⟩, h.fonted.loadBlock_glyph _⟩

/-- The laws of every reachable machine. -/
theorem reachable_laws (h : Reachable o m) :
    -- sixteen registers of one byte, and as many as a load fills is as many as it reads
    (m.cpu.v.toList.length = 16 ∧ ∀ b ∈ m.cpu.v.toList, 0 ≤ b.toNat ∧ b.toNat ≤ 255) ∧
    (∀ (x : Nibble) (bs : List UInt8), m.bus.loadBlock m.cpu.i (x.val + 1) = .ok bs →
      bs.length = (m.registersTo x).length) ∧
    (0 ≤ m.cpu.delay ∧ m.cpu.delay ≤ 255) ∧
    (0 ≤ m.cpu.sound ∧ m.cpu.sound ≤ 255) ∧
    (0 ≤ m.cpu.i ∧ m.cpu.i ≤ 0xFFFF) ∧
    (0 ≤ m.cpu.pc ∧ m.cpu.pc ≤ 0x10FE) ∧
    -- no remainder that a cycle takes of a program counter cuts anything off
    ((m.cpu.pc + 2) % 65536 = m.cpu.pc + 2 ∧ (m.cpu.pc + 2 + 2) % 65536 = m.cpu.pc + 2 + 2 ∧
      ∀ w : Int, ((m.cpu.v.get offsetRegister).toNat + (Operands.ofWord w).nnn) % 65536 =
        (m.cpu.v.get offsetRegister).toNat + (Operands.ofWord w).nnn) ∧
    (m.stack.depth ≤ 16 ∧ ∀ a ∈ m.stack.toList, 2 ≤ a.toNat ∧ a.toNat ≤ 0x1000) ∧
    (∀ a : Nat, a ≤ 0x4F → m.bus.load8 a = .ok (Glyph.font.getD a 0)) ∧
    (∀ w : Nat, m.bus.load16 m.cpu.pc = .ok w → w / 4096 = 0xF → w % 256 = 0x29 →
      ∃ i t, Machine.cycle m = .ok i t ∧ t.bus.loadBlock t.cpu.i 5 =
        .ok (Glyph.rows (m.cpu.v.get (Operands.ofWord w).x).toNat)) ∧
    (m.display.screen.pixels.size = o.display.screen.width * o.display.screen.height ∧
      ∀ p ∈ m.display.screen.pixels, p.toNat = 0 ∨ p.toNat = 1) ∧
    (∀ l, o.random = .lanes l →
      ∃ l', m.random = .lanes l' ∧ ∀ b ∈ l'.toList, 0 ≤ b.toNat ∧ b.toNat ≤ 255) := by
  have hs := h.sound
  have hbyte (b : UInt8) : 0 ≤ b.toNat ∧ b.toNat ≤ 255 := ⟨Nat.zero_le _, by have := b.toNat_lt; omega⟩
  have hpc := hs.cpu.counter
  refine ⟨⟨Vector.length_toList, fun b _ => hbyte b⟩, ?_, hs.cpu.delay, hs.cpu.sound, hs.cpu.index,
    hpc, ⟨by omega, by omega, ?_⟩, ⟨?_, hs.returns⟩, ?_, ?_, ⟨?_, ?_⟩, ?_⟩
  · intro x bs hl
    obtain ⟨_, _, hfrom⟩ := except_bind_eq_ok.mp hl
    rw [m.length_registersTo]
    exact Bus.length_loadFrom (n := x.val + 1) hfrom
  · intro w
    have hv := (m.cpu.v.get offsetRegister).toNat_lt
    have hn := (Operands.ofWord w).nnn_lt
    omega
  · have := m.stack.depth_le
    rwa [hs.capacity] at this
  · intro a ha
    exact hs.fonted.load8 (by omega)
  · intro w hw hlead hend
    exact hs.cycle_loadGlyph hw hlead hend
  · rw [m.display.screen.size_pixels, hs.dimensions.1, hs.dimensions.2]
  · intro p _
    cases p with
    | false => exact .inl rfl
    | true => exact .inr rfl
  · intro l hl
    obtain ⟨l', hl'⟩ := hs.random l hl
    exact ⟨l', hl', fun b _ => hbyte b⟩

theorem reachable_laws_stored : Reachable {} (Event.run bare [.store8 0x200 0x1FF, .cycle, .tick]) ∧
    ∀ a : Nat, a ≤ 0x4F → (Event.run bare [.store8 0x200 0x1FF, .cycle, .tick]).bus.load8 a =
      .ok (Glyph.font.getD a 0) := by
  have h : Reachable {} (Event.run bare [.store8 0x200 0x1FF, .cycle, .tick]) :=
    .event .tick (.event .cycle (.event (.store8 0x200 0x1FF) (.created create_bare)))
  obtain ⟨_, _, _, _, _, _, _, _, hfont, _⟩ := reachable_laws h
  exact ⟨h, hfont⟩

end Machine

end Chip8
