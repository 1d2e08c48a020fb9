import Chip8.Proofs.Machine.Boot
import Chip8.Proofs.Machine.Cycle
import Chip8.Proofs.Pacer.Lockstep

/-! # What no instruction reads

Some parts of a machine are written by instructions and read by none of them: the sound timer, the
count of cycles, and the place where the picture goes. Machines that differ there, and nowhere else,
do the same. How much they may differ is a leeway of its own for each of these parts, which a run
keeps if everything that is done to the part keeps it. -/

namespace Chip8

namespace Machine

/-- How two machines may differ in what no instruction reads. -/
structure Leeway where
  sound : Int → Int → Prop
  cycles : Nat → Nat → Prop
  display : Display → Display → Prop

/-- Whatever is done to both machines in these parts stays within the leeway, and what is drawn
hits the same pixels. -/
structure Leeway.Kept (δ : Leeway) : Prop where
  loaded : ∀ s, δ.sound s s
  tick : ∀ {s s'}, δ.sound s s' →
    δ.sound (if 0 < s then s - 1 else s) (if 0 < s' then s' - 1 else s')
  zero : δ.cycles 0 0
  succ : ∀ {n n'}, δ.cycles n n' → δ.cycles (n + 1) (n' + 1)
  clear : ∀ {d d'}, δ.display d d' → δ.display d.clear d'.clear
  drawRows : ∀ {d d'}, δ.display d d' → ∀ x y rows,
    (d.drawRows x y rows).1 = (d'.drawRows x y rows).1 ∧
      δ.display (d.drawRows x y rows).2 (d'.drawRows x y rows).2

/-- The second machine is the first one but for a difference within the leeway. -/
inductive Within (δ : Leeway) (m : Machine) : Machine → Prop
  | intro {s : Int} {n : Nat} {d : Display} (hs : δ.sound m.cpu.sound s) (hn : δ.cycles m.cycles n)
      (hd : δ.display m.display d) :
      Within δ m { m with cpu := { m.cpu with sound := s }, cycles := n, display := d }

variable {δ : Leeway} {m t : Machine}

theorem Within.pc (h : Within δ m t) : t.cpu.pc = m.cpu.pc := by
  cases h
  rfl

theorem Within.bus (h : Within δ m t) : t.bus = m.bus := by
  cases h
  rfl

/-! ## Actions -/

section Actions

variable {α : Type}

theorem Within.onStack (h : Within δ m t) (act : EStateM StackFault CallStack α) :
    InStep (Within δ) (Machine.onStack act m) (Machine.onStack act t) := by
  obtain ⟨hs, hn, hd⟩ := h
  unfold Machine.onStack
  dsimp only
  cases act m.stack with
  | ok a s => exact .ok ⟨hs, hn, hd⟩
  | error e s => exact .error ⟨hs, hn, hd⟩

theorem Within.onBus (h : Within δ m t) (act : EStateM MemoryFault Bus α) :
    InStep (Within δ) (Machine.onBus act m) (Machine.onBus act t) := by
  obtain ⟨hs, hn, hd⟩ := h
  unfold Machine.onBus
  dsimp only
  cases act m.bus with
  | ok a s => exact .ok ⟨hs, hn, hd⟩
  | error e s => exact .error ⟨hs, hn, hd⟩

theorem Within.peek (h : Within δ m t) (read : Bus → Except MemoryFault α) :
    InStep (Within δ) (Machine.peek read m) (Machine.peek read t) := by
  unfold Machine.peek
  rw [h.bus]
  cases read m.bus with
  | ok a => exact .ok h
  | error e => exact .error h

theorem Within.setPc (h : Within δ m t) (pc : Int) :
    InStep (Within δ) (Machine.setPc pc m) (Machine.setPc pc t) := by
  obtain ⟨hs, hn, hd⟩ := h
  exact .ok ⟨hs, hn, hd⟩

theorem Within.fill (h : Within δ m t) (bs : List UInt8) :
    let fill (m : Machine) : Machine :=
      { m with cpu := { m.cpu with v := fillRegisters 0 bs m.cpu.v } }
    InStep (Within δ) ((modify fill : Action Unit) m) ((modify fill : Action Unit) t) := by
  obtain ⟨hs, hn, hd⟩ := h
  exact .ok ⟨hs, hn, hd⟩

theorem Within.advance (h : Within δ m t) (x : Nibble) :
    InStep (Within δ) (Machine.advance x m) (Machine.advance x t) := by
  obtain ⟨hs, hn, hd⟩ := h
  rw [advance_eq, advance_eq]
  exact .ok ⟨hs, hn, hd⟩

theorem Within.readRegister (h : Within δ m t) (index : Int) :
    InStep (Within δ) (Machine.readRegister index m) (Machine.readRegister index t) := by
  unfold Machine.readRegister
  by_cases hi : 0 ≤ index ∧ index < 16
  · rw [if_pos hi]
    obtain ⟨hs, hn, hd⟩ := h
    exact .ok ⟨hs, hn, hd⟩
  · rw [if_neg hi]
    exact .error h

theorem Within.writeRegister (h : Within δ m t) (index value : Int) :
    InStep (Within δ) (Machine.writeRegister index value m)
      (Machine.writeRegister index value t) := by
  unfold Machine.writeRegister
  by_cases hi : 0 ≤ index ∧ index < 16
  · rw [if_pos hi]
    obtain ⟨hs, hn, hd⟩ := h
    exact .ok ⟨hs, hn, hd⟩
  · rw [if_neg hi]
    exact .error h

end Actions

theorem Within.fetch (h : Within δ m t) :
    InStep (Within δ) (Machine.fetch m) (Machine.fetch t) := by
  unfold Machine.fetch
  refine InStep.get_bind ?_
  rw [h.pc]
  refine (h.peek _).bind fun word s u hs => InStep.get_bind ?_
  have hdecode : u.decode word = s.decode word := by
    cases hs
    rfl
  rw [hdecode]
  cases s.decode word with
  | none => exact .error hs
  | some i => exact .ok hs

/-! ## Routines -/

section Kept

variable (hδ : δ.Kept)
include hδ

/-- Both pictures are drawn on alike, and VF says the same of both. -/
theorem Within.drawn (h : Within δ m t) (w : Nat) (rows : List UInt8) :
    Within δ (Routine.drawn w rows m) (Routine.drawn w rows t) := by
  obtain ⟨hs, hn, hd⟩ := h
  obtain ⟨hhit, hnext⟩ := hδ.drawRows hd (m.cpu.v.get (Operands.ofWord w).x).toNat
    (m.cpu.v.get (Operands.ofWord w).y).toNat rows
  unfold Routine.drawn
  dsimp only
  rw [← hhit]
  exact ⟨hs, hn, hnext⟩

theorem Within.draw (h : Within δ m t) (pc : Int) (w : Nat) :
    InStep (Within δ) (Routine.draw.run pc w m) (Routine.draw.run pc w t) := by
  have hread : t.bus.loadBlock t.cpu.i (Operands.ofWord w).n.val =
      m.bus.loadBlock m.cpu.i (Operands.ofWord w).n.val := by
    cases h
    rfl
  cases hrows : m.bus.loadBlock m.cpu.i (Operands.ofWord w).n.val with
  | ok rows =>
    rw [Routine.run_draw.mpr ⟨rows, hrows, rfl⟩, Routine.run_draw.mpr ⟨rows, hread.trans hrows, rfl⟩]
    exact .ok (h.drawn hδ w rows)
  | error e =>
    rw [Routine.draw_eq_error.mpr ⟨⟨e, rfl, hrows⟩, rfl⟩,
      Routine.draw_eq_error.mpr ⟨⟨e, rfl, hread.trans hrows⟩, rfl⟩]
    exact .error h

theorem Within.run (h : Within δ m t) (r : Routine) (pc : Int) (w : Nat) :
    InStep (Within δ) (r.run pc w m) (r.run pc w t) := by
  cases r with
  | draw => exact h.draw hδ pc w
  | waitKey => exact .error h
  | returnFrom => exact (h.onStack CallStack.pop).bind fun a _ _ h => h.setPc a.toNat
  | call =>
    obtain ⟨hs, hn, hd⟩ := h
    exact (Within.onStack ⟨hs, hn, hd⟩ (CallStack.push m.cpu.pc)).bind fun _ _ _ h => h.setPc _
  | storeDecimal =>
    obtain ⟨hs, hn, hd⟩ := h
    exact Within.onBus ⟨hs, hn, hd⟩
      (Bus.storeBlock m.cpu.i (decimalDigits (m.cpu.v.get (Operands.ofWord w).x)))
  | storeRegisters =>
    simp only [Routine.run]
    refine InStep.get_bind ?_
    obtain ⟨hs, hn, hd⟩ := h
    exact (Within.onBus ⟨hs, hn, hd⟩ _).bind fun _ _ _ h => h.advance _
  | loadRegisters =>
    simp only [Routine.run]
    refine InStep.get_bind ?_
    obtain ⟨hs, hn, hd⟩ := h
    refine (Within.peek ⟨hs, hn, hd⟩ _).bind fun bs s u h => ?_
    exact (h.fill bs).bind fun _ _ _ h => h.advance _
  | clearScreen =>
    obtain ⟨hs, hn, hd⟩ := h
    exact .ok ⟨hs, hn, hδ.clear hd⟩
  | setSound =>
    obtain ⟨hs, hn, hd⟩ := h
    exact .ok ⟨hδ.loaded _, hn, hd⟩
  | skipEqualImmediate | skipUnequalImmediate | skipEqual | skipUnequal | skipPressed
  | skipReleased =>
    obtain ⟨hs, hn, hd⟩ := h
    rw [Routine.run_skip rfl, Routine.run_skip rfl]
    exact .ok ⟨hs, hn, hd⟩
  -- the others leave all three parts as they are
  | _ =>
    obtain ⟨hs, hn, hd⟩ := h
    exact .ok ⟨hs, hn, hd⟩

/-! ## Cycles -/

theorem Within.runAt (h : Within δ m t) (pc : Int) (w : Nat) (r : Routine) :
    InStep (Within δ) (Machine.runAt pc w r m) (Machine.runAt pc w r t) := by
  have hbegun : Within δ { m with cpu := { m.cpu with pc := (pc + 2) % 65536 } }
      { t with cpu := { t.cpu with pc := (pc + 2) % 65536 } } := by
    obtain ⟨hs, hn, hd⟩ := h
    exact ⟨hs, hn, hd⟩
  have hrun := hbegun.run hδ r pc w
  unfold Machine.runAt
  generalize r.run pc w _ = x at hrun ⊢
  generalize r.run pc w _ = y at hrun ⊢
  cases hrun with
  | ok h =>
    obtain ⟨hs, hn, hd⟩ := h
    exact .ok ⟨hs, hδ.succ hn, hd⟩
  | error h =>
    obtain ⟨hs, hn, hd⟩ := h
    exact .error ⟨hs, hn, hd⟩

theorem Within.cycle (h : Within δ m t) :
    InStep (Within δ) (Machine.cycle m) (Machine.cycle t) := by
  unfold Machine.cycle
  refine InStep.get_bind ?_
  rw [h.pc]
  refine h.fetch.bind fun found s u hs => ?_
  obtain ⟨word, i⟩ := found
  dsimp only
  cases Routine.ofName? i.routine with
  | none => exact .error hs
  | some r => exact (hs.runAt hδ m.cpu.pc word r).bind fun _ _ _ hs => .ok hs

theorem within_lockstep : Pacer.Lockstep (Within δ) where
  cycle h := h.cycle hδ
  tick h := by
    obtain ⟨hs, hn, hd⟩ := h
    exact ⟨hδ.tick hs, hn, hd⟩
  reset h := by
    obtain ⟨hs, hn, hd⟩ := h
    exact ⟨hδ.loaded 0, hδ.zero, hd⟩
  keypad h := by
    cases h
    rfl
  setKeypad h keypad := by
    obtain ⟨hs, hn, hd⟩ := h
    exact ⟨hs, hn, hd⟩

end Kept

end Machine

end Chip8
