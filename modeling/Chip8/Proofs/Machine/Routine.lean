import Chip8.Machine.Cycle
import Chip8.Proofs.CallStack
import Chip8.Proofs.Memory.Layout

/-! # The law of routines

A routine changes only the parts of the machine that it is there to change (`run_same`),
and seven of the thirty-five can refuse. Each of these asks before it writes: when it
refuses it leaves the machine as it found it, and `Refuses` says exactly when that is
(`run_eq_error`). -/

namespace Chip8

namespace Machine

section Actions

variable {α : Type} {m t : Machine} {a : α} {f : Fault}

theorem onStack_eq_ok {act : EStateM StackFault CallStack α} :
    onStack act m = .ok a t ↔ ∃ s, act m.stack = .ok a s ∧ t = { m with stack := s } := by
  unfold onStack
  cases act m.stack with
  | ok b s =>
    constructor
    · intro h; cases h; exact ⟨s, rfl, rfl⟩
    · intro h
      obtain ⟨s', hs, rfl⟩ := h
      cases hs
      rfl
  | error e s => simp

theorem onStack_eq_error {act : EStateM StackFault CallStack α} :
    onStack act m = .error f t ↔
      ∃ e s, act m.stack = .error e s ∧ f = .stack e ∧ t = { m with stack := s } := by
  unfold onStack
  cases act m.stack with
  | ok b s => simp
  | error e s =>
    constructor
    · intro h; cases h; exact ⟨e, s, rfl, rfl, rfl⟩
    · intro h
      obtain ⟨e', s', hs, rfl, rfl⟩ := h
      cases hs
      rfl

theorem onBus_eq_ok {act : EStateM MemoryFault Bus α} :
    onBus act m = .ok a t ↔ ∃ b, act m.bus = .ok a b ∧ t = { m with bus := b } := by
  unfold onBus
  cases act m.bus with
  | ok x b =>
    constructor
    · intro h; cases h; exact ⟨b, rfl, rfl⟩
    · intro h
      obtain ⟨b', hb, rfl⟩ := h
      cases hb
      rfl
  | error e b => simp

theorem onBus_eq_error {act : EStateM MemoryFault Bus α} :
    onBus act m = .error f t ↔
      ∃ e b, act m.bus = .error e b ∧ f = .memory e ∧ t = { m with bus := b } := by
  unfold onBus
  cases act m.bus with
  | ok x b => simp
  | error e b =>
    constructor
    · intro h; cases h; exact ⟨e, b, rfl, rfl, rfl⟩
    · intro h
      obtain ⟨e', b', hb, rfl, rfl⟩ := h
      cases hb
      rfl

theorem peek_eq_ok {read : Bus → Except MemoryFault α} :
    peek read m = .ok a t ↔ read m.bus = .ok a ∧ t = m := by
  unfold peek
  cases read m.bus with
  | ok b =>
    constructor
    · intro h; cases h; exact ⟨rfl, rfl⟩
    · intro h
      obtain ⟨hb, rfl⟩ := h
      cases hb
      rfl
  | error e => simp

theorem peek_eq_error {read : Bus → Except MemoryFault α} :
    peek read m = .error f t ↔ ∃ e, read m.bus = .error e ∧ f = .memory e ∧ t = m := by
  unfold peek
  cases read m.bus with
  | ok b => simp
  | error e =>
    constructor
    · intro h; cases h; exact ⟨e, rfl, rfl, rfl⟩
    · intro h
      obtain ⟨e', he, rfl, rfl⟩ := h
      cases he
      rfl

theorem skipIf_eq (test : Bool) (m : Machine) : skipIf test m =
    .ok () { m with cpu := { m.cpu with
      pc := if test then (m.cpu.pc + 2) % 65536 else m.cpu.pc } } := by
  cases test <;> rfl

theorem advance_eq (x : Nibble) (m : Machine) : advance x m =
    .ok () { m with cpu := { m.cpu with
      i := if m.advances then (m.cpu.i + (x.val + 1)) % 65536 else m.cpu.i } } := by
  change (if m.advances then setIndex ((m.cpu.i + (x.val + 1)) % 65536) else pure ()) m = _
  by_cases h : m.advances = true
  · rw [if_pos h, if_pos h]; rfl
  · rw [if_neg h, if_neg h]; rfl

end Actions

end Machine

namespace Routine

open Machine

/-- When a routine refuses, and how. -/
def Refuses (pc : Int) (opcode : Nat) (m : Machine) (f : Fault) : Routine → Prop
  | returnFrom => m.stack.depth = 0 ∧ f = .stack .underflow
  | call => m.stack.depth = m.stack.capacity ∧
      f = .stack (.overflow m.cpu.pc m.stack.capacity)
  | storeDecimal => ∃ e b, f = .memory e ∧ Bus.storeBlock m.cpu.i
      (decimalDigits (m.cpu.v.get (Operands.ofWord opcode).x)) m.bus = .error e b
  | storeRegisters => ∃ e b, f = .memory e ∧ Bus.storeBlock m.cpu.i
      ((m.registersTo (Operands.ofWord opcode).x).map fun b => (b.toNat : Int)) m.bus = .error e b
  | loadRegisters => ∃ e, f = .memory e ∧
      m.bus.loadBlock m.cpu.i ((Operands.ofWord opcode).x.val + 1) = .error e
  | draw => ∃ e, f = .memory e ∧
      m.bus.loadBlock m.cpu.i (Operands.ofWord opcode).n.val = .error e
  | waitKey => f = .unimplemented pc opcode
  | _ => False

variable {pc : Int} {opcode : Nat} {m t : Machine} {f : Fault}

/-! ## The routines that can refuse or branch -/

theorem run_returnFrom : run returnFrom pc opcode m = .ok () t ↔
    ∃ a s, CallStack.pop m.stack = .ok a s ∧
      t = { m with stack := s, cpu := { m.cpu with pc := a.toNat } } := by
  constructor
  · intro h
    obtain ⟨a, u, hp, hn⟩ := bind_eq_ok.mp h
    obtain ⟨s, hs, rfl⟩ := onStack_eq_ok.mp hp
    cases hn
    exact ⟨a, s, hs, rfl⟩
  · intro h
    obtain ⟨a, s, hs, rfl⟩ := h
    exact bind_eq_ok.mpr ⟨a, _, onStack_eq_ok.mpr ⟨s, hs, rfl⟩, rfl⟩

theorem run_call : run call pc opcode m = .ok () t ↔
    ∃ s, CallStack.push m.cpu.pc m.stack = .ok () s ∧
      t = { m with stack := s, cpu := { m.cpu with pc := (Operands.ofWord opcode).nnn } } := by
  constructor
  · intro h
    obtain ⟨_, u, hp, hn⟩ := bind_eq_ok.mp h
    obtain ⟨_, u', hp', hn⟩ := bind_eq_ok.mp hn
    cases hp
    obtain ⟨s, hs, rfl⟩ := onStack_eq_ok.mp hp'
    cases hn
    exact ⟨s, hs, rfl⟩
  · intro h
    obtain ⟨s, hs, rfl⟩ := h
    exact bind_eq_ok.mpr ⟨_, m, rfl, bind_eq_ok.mpr ⟨(), _, onStack_eq_ok.mpr ⟨s, hs, rfl⟩, rfl⟩⟩

theorem run_storeDecimal : run storeDecimal pc opcode m = .ok () t ↔
    ∃ b, Bus.storeBlock m.cpu.i
        (decimalDigits (m.cpu.v.get (Operands.ofWord opcode).x)) m.bus = .ok () b ∧
      t = { m with bus := b } :=
  onBus_eq_ok

theorem run_storeRegisters : run storeRegisters pc opcode m = .ok () t ↔
    ∃ b, Bus.storeBlock m.cpu.i ((m.registersTo (Operands.ofWord opcode).x).map
        fun b => (b.toNat : Int)) m.bus = .ok () b ∧
      advance (Operands.ofWord opcode).x { m with bus := b } = .ok () t := by
  constructor
  · intro h
    obtain ⟨_, _, hget, hstore⟩ := bind_eq_ok.mp h
    cases hget
    obtain ⟨_, _, hon, hadv⟩ := bind_eq_ok.mp hstore
    obtain ⟨b, hb, rfl⟩ := onBus_eq_ok.mp hon
    exact ⟨b, hb, hadv⟩
  · intro h
    obtain ⟨b, hb, hadv⟩ := h
    exact bind_eq_ok.mpr ⟨m, m, rfl, bind_eq_ok.mpr ⟨(), _, onBus_eq_ok.mpr ⟨b, hb, rfl⟩, hadv⟩⟩

theorem run_loadRegisters : run loadRegisters pc opcode m = .ok () t ↔
    ∃ bs, m.bus.loadBlock m.cpu.i ((Operands.ofWord opcode).x.val + 1) = .ok bs ∧
      advance (Operands.ofWord opcode).x
        { m with cpu := { m.cpu with v := fillRegisters 0 bs m.cpu.v } } = .ok () t := by
  constructor
  · intro h
    obtain ⟨_, _, hget, hread⟩ := bind_eq_ok.mp h
    cases hget
    obtain ⟨bs, _, hpeek, hfill⟩ := bind_eq_ok.mp hread
    obtain ⟨hb, rfl⟩ := peek_eq_ok.mp hpeek
    exact ⟨bs, hb, hfill⟩
  · intro h
    obtain ⟨bs, hb, hadv⟩ := h
    exact bind_eq_ok.mpr ⟨m, m, rfl, bind_eq_ok.mpr ⟨bs, m, peek_eq_ok.mpr ⟨hb, rfl⟩, hadv⟩⟩

/-- What drawing the rows does: the picture, and whether a lit pixel went out in `VF`. -/
def drawn (opcode : Nat) (rows : List UInt8) (m : Machine) : Machine :=
  let o := Operands.ofWord opcode
  let (hit, display) := m.display.drawRows (m.cpu.v.get o.x).toNat (m.cpu.v.get o.y).toNat rows
  { m with
    display
    cpu := { m.cpu with v := setAt m.cpu.v flagRegister (if hit then 1 else 0) } }

theorem run_draw : run draw pc opcode m = .ok () t ↔
    ∃ rows, m.bus.loadBlock m.cpu.i (Operands.ofWord opcode).n.val = .ok rows ∧
      t = drawn opcode rows m := by
  constructor
  · intro h
    obtain ⟨_, _, hget, hread⟩ := bind_eq_ok.mp h
    cases hget
    obtain ⟨rows, _, hpeek, hdraw⟩ := bind_eq_ok.mp hread
    obtain ⟨hb, rfl⟩ := peek_eq_ok.mp hpeek
    cases hdraw
    exact ⟨rows, hb, rfl⟩
  · intro h
    obtain ⟨rows, hb, rfl⟩ := h
    exact bind_eq_ok.mpr ⟨m, m, rfl, bind_eq_ok.mpr ⟨rows, m, peek_eq_ok.mpr ⟨hb, rfl⟩, rfl⟩⟩

/-- The test of a routine that passes over the next instruction if its test holds. -/
def skipTest? (o : Operands) (m : Machine) : Routine → Option Bool
  | skipEqualImmediate => some ((m.cpu.v.get o.x).toNat == o.nn)
  | skipUnequalImmediate => some ((m.cpu.v.get o.x).toNat != o.nn)
  | skipEqual => some (m.cpu.v.get o.x == m.cpu.v.get o.y)
  | skipUnequal => some (m.cpu.v.get o.x != m.cpu.v.get o.y)
  | skipPressed => some (m.keypad.isDown (nibbleOf (m.cpu.v.get o.x).toNat))
  | skipReleased => some (!m.keypad.isDown (nibbleOf (m.cpu.v.get o.x).toNat))
  | _ => none

theorem run_skip {r : Routine} {test : Bool}
    (h : r.skipTest? (Operands.ofWord opcode) m = some test) :
    run r pc opcode m = .ok () { m with cpu := { m.cpu with
      pc := if test then (m.cpu.pc + 2) % 65536 else m.cpu.pc } } := by
  cases r with
  | skipEqualImmediate | skipUnequalImmediate | skipEqual | skipUnequal | skipPressed
  | skipReleased =>
    cases h
    exact skipIf_eq _ m
  | _ => cases h

/-! ## Refusals -/

theorem returnFrom_eq_error : run returnFrom pc opcode m = .error f t ↔
    returnFrom.Refuses pc opcode m f ∧ t = m := by
  constructor
  · intro h
    obtain hpop | ⟨_, _, _, hset⟩ := bind_eq_error.mp h
    · obtain ⟨e, s, hs, rfl, rfl⟩ := onStack_eq_error.mp hpop
      obtain ⟨hd, rfl, rfl⟩ := CallStack.pop_of_error hs
      exact ⟨⟨hd, rfl⟩, rfl⟩
    · cases hset
  · intro h
    obtain ⟨⟨hd, rfl⟩, rfl⟩ := h
    exact bind_eq_error.mpr
      (.inl (onStack_eq_error.mpr ⟨_, _, CallStack.pop_of_empty hd, rfl, rfl⟩))

theorem call_eq_error : run call pc opcode m = .error f t ↔
    call.Refuses pc opcode m f ∧ t = m := by
  constructor
  · intro h
    obtain hget | ⟨_, _, hget, h⟩ := bind_eq_error.mp h
    · cases hget
    cases hget
    obtain hpush | ⟨_, _, _, hset⟩ := bind_eq_error.mp h
    · obtain ⟨e, s, hs, rfl, rfl⟩ := onStack_eq_error.mp hpush
      obtain ⟨hd, rfl, rfl⟩ := CallStack.push_of_error hs
      exact ⟨⟨hd, rfl⟩, rfl⟩
    · cases hset
  · intro h
    obtain ⟨⟨hd, rfl⟩, rfl⟩ := h
    exact bind_eq_error.mpr (.inr ⟨t, t, rfl, bind_eq_error.mpr
      (.inl (onStack_eq_error.mpr ⟨_, _, CallStack.push_of_full _ hd, rfl, rfl⟩))⟩)

theorem storeDecimal_eq_error (hm : m.bus.Covered) :
    run storeDecimal pc opcode m = .error f t ↔
      storeDecimal.Refuses pc opcode m f ∧ t = m := by
  constructor
  · intro h
    obtain ⟨e, b, hb, rfl, rfl⟩ := onBus_eq_error.mp h
    obtain ⟨rfl, _⟩ := Bus.storeBlock_eq_error hm hb
    exact ⟨⟨e, _, rfl, hb⟩, rfl⟩
  · intro h
    obtain ⟨⟨e, b, rfl, hb⟩, rfl⟩ := h
    obtain ⟨rfl, _⟩ := Bus.storeBlock_eq_error hm hb
    exact onBus_eq_error.mpr ⟨e, _, hb, rfl, rfl⟩

theorem storeRegisters_eq_error (hm : m.bus.Covered) :
    run storeRegisters pc opcode m = .error f t ↔
      storeRegisters.Refuses pc opcode m f ∧ t = m := by
  constructor
  · intro h
    obtain hget | ⟨_, _, hget, h⟩ := bind_eq_error.mp h
    · cases hget
    cases hget
    obtain hstore | ⟨_, _, _, hadv⟩ := bind_eq_error.mp h
    · obtain ⟨e, b, hb, rfl, rfl⟩ := onBus_eq_error.mp hstore
      obtain ⟨rfl, _⟩ := Bus.storeBlock_eq_error hm hb
      exact ⟨⟨e, _, rfl, hb⟩, rfl⟩
    · rw [advance_eq] at hadv
      cases hadv
  · intro h
    obtain ⟨⟨e, b, rfl, hb⟩, rfl⟩ := h
    obtain ⟨rfl, _⟩ := Bus.storeBlock_eq_error hm hb
    exact bind_eq_error.mpr (.inr ⟨t, t, rfl, bind_eq_error.mpr
      (.inl (onBus_eq_error.mpr ⟨e, _, hb, rfl, rfl⟩))⟩)

theorem loadRegisters_eq_error : run loadRegisters pc opcode m = .error f t ↔
    loadRegisters.Refuses pc opcode m f ∧ t = m := by
  constructor
  · intro h
    obtain hget | ⟨_, _, hget, h⟩ := bind_eq_error.mp h
    · cases hget
    cases hget
    obtain hread | ⟨_, _, _, hfill⟩ := bind_eq_error.mp h
    · obtain ⟨e, he, rfl, rfl⟩ := peek_eq_error.mp hread
      exact ⟨⟨e, rfl, he⟩, rfl⟩
    · obtain hset | ⟨_, _, _, hadv⟩ := bind_eq_error.mp hfill
      · cases hset
      · rw [advance_eq] at hadv
        cases hadv
  · intro h
    obtain ⟨⟨e, rfl, he⟩, rfl⟩ := h
    exact bind_eq_error.mpr (.inr ⟨t, t, rfl, bind_eq_error.mpr
      (.inl (peek_eq_error.mpr ⟨e, he, rfl, rfl⟩))⟩)

theorem draw_eq_error : run draw pc opcode m = .error f t ↔
    draw.Refuses pc opcode m f ∧ t = m := by
  constructor
  · intro h
    obtain hget | ⟨_, _, hget, h⟩ := bind_eq_error.mp h
    · cases hget
    cases hget
    obtain hread | ⟨_, _, _, hdraw⟩ := bind_eq_error.mp h
    · obtain ⟨e, he, rfl, rfl⟩ := peek_eq_error.mp hread
      exact ⟨⟨e, rfl, he⟩, rfl⟩
    · cases hdraw
  · intro h
    obtain ⟨⟨e, rfl, he⟩, rfl⟩ := h
    exact bind_eq_error.mpr (.inr ⟨t, t, rfl, bind_eq_error.mpr
      (.inl (peek_eq_error.mpr ⟨e, he, rfl, rfl⟩))⟩)

/-- A routine that can refuse asks before it writes, so nothing has changed when it does. -/
theorem run_eq_error (hm : m.bus.Covered) {r : Routine} :
    run r pc opcode m = .error f t ↔ r.Refuses pc opcode m f ∧ t = m := by
  cases r with
  | returnFrom => exact returnFrom_eq_error
  | call => exact call_eq_error
  | storeDecimal => exact storeDecimal_eq_error hm
  | storeRegisters => exact storeRegisters_eq_error hm
  | loadRegisters => exact loadRegisters_eq_error
  | draw => exact draw_eq_error
  | waitKey =>
    constructor
    · intro h
      cases h
      exact ⟨rfl, rfl⟩
    · intro h
      obtain ⟨rfl, rfl⟩ := h
      rfl
  | skipEqualImmediate | skipUnequalImmediate | skipEqual | skipUnequal | skipPressed
  | skipReleased =>
    refine ⟨fun h => ?_, fun h => h.1.elim⟩
    rw [run_skip rfl] at h
    cases h
  | _ =>
    refine ⟨fun h => ?_, fun h => h.1.elim⟩
    cases h

/-- Only stores can have begun when a routine faults. This holds on any bus, also on one that
refuses a store in the middle of a block. -/
theorem run_error_rest {r : Routine} (h : run r pc opcode m = .error f t) :
    t = { m with bus := t.bus } := by
  cases r with
  | returnFrom => obtain ⟨_, rfl⟩ := returnFrom_eq_error.mp h; rfl
  | call => obtain ⟨_, rfl⟩ := call_eq_error.mp h; rfl
  | loadRegisters => obtain ⟨_, rfl⟩ := loadRegisters_eq_error.mp h; rfl
  | draw => obtain ⟨_, rfl⟩ := draw_eq_error.mp h; rfl
  | storeDecimal => obtain ⟨e, b, _, _, rfl⟩ := onBus_eq_error.mp h; rfl
  | storeRegisters =>
    obtain hget | ⟨_, _, hget, h⟩ := bind_eq_error.mp h
    · cases hget
    cases hget
    obtain hstore | ⟨_, _, _, hadv⟩ := bind_eq_error.mp h
    · obtain ⟨e, b, _, _, rfl⟩ := onBus_eq_error.mp hstore; rfl
    · rw [advance_eq] at hadv
      cases hadv
  | waitKey => cases h; rfl
  | skipEqualImmediate | skipUnequalImmediate | skipEqual | skipUnequal | skipPressed
  | skipReleased =>
    rw [run_skip rfl] at h
    cases h
  | _ => cases h

/-! ## What a routine writes -/

/-- The parts of a machine that routines change. All else stays as it is. -/
inductive Part
  | registers | index | counter | delay | sound | stack | memory | display | random
deriving DecidableEq

/-- The machines agree in this part. -/
def Part.Same (m t : Machine) : Part → Prop
  | registers => t.cpu.v = m.cpu.v
  | index => t.cpu.i = m.cpu.i
  | counter => t.cpu.pc = m.cpu.pc
  | delay => t.cpu.delay = m.cpu.delay
  | sound => t.cpu.sound = m.cpu.sound
  | stack => t.stack = m.stack
  | memory => t.bus = m.bus
  | display => t.display = m.display
  | random => t.random = m.random

def writes : Routine → List Part
  | clearScreen => [.display]
  | returnFrom | call => [.stack, .counter]
  | machineCall | waitKey => []
  | jump | jumpOffset => [.counter]
  | skipEqualImmediate | skipUnequalImmediate | skipEqual | skipUnequal => [.counter]
  | skipPressed | skipReleased => [.counter]
  | random => [.random, .registers]
  | loadIndex | addIndex | loadGlyph => [.index]
  | storeDecimal => [.memory]
  | storeRegisters => [.memory, .index]
  | loadRegisters => [.registers, .index]
  | draw => [.display, .registers]
  | setDelay => [.delay]
  | setSound => [.sound]
  | _ => [.registers]

theorem run_same {r : Routine} {p : Part} (h : run r pc opcode m = .ok () t)
    (hp : p ∉ r.writes) : p.Same m t := by
  cases r with
  | returnFrom =>
    obtain ⟨a, s, _, rfl⟩ := run_returnFrom.mp h
    cases p <;> first | rfl | simp [writes] at hp
  | call =>
    obtain ⟨s, _, rfl⟩ := run_call.mp h
    cases p <;> first | rfl | simp [writes] at hp
  | storeDecimal =>
    obtain ⟨b, _, rfl⟩ := run_storeDecimal.mp h
    cases p <;> first | rfl | simp [writes] at hp
  | storeRegisters =>
    obtain ⟨b, _, hadv⟩ := run_storeRegisters.mp h
    cases (advance_eq _ _).symm.trans hadv
    cases p <;> first | rfl | simp [writes] at hp
  | loadRegisters =>
    obtain ⟨bs, _, hadv⟩ := run_loadRegisters.mp h
    cases (advance_eq _ _).symm.trans hadv
    cases p <;> first | rfl | simp [writes] at hp
  | draw =>
    obtain ⟨rows, _, rfl⟩ := run_draw.mp h
    cases p <;> first | rfl | simp [writes] at hp
  | skipEqualImmediate | skipUnequalImmediate | skipEqual | skipUnequal | skipPressed
  | skipReleased =>
    cases (run_skip rfl).symm.trans h
    cases p <;> first | rfl | simp [writes] at hp
  | waitKey => cases h
  | _ =>
    cases h
    cases p <;> first | rfl | simp [writes] at hp

/-- Whatever a routine does, the rest of the machine is not among it. -/
theorem run_rest {r : Routine} (h : run r pc opcode m = .ok () t) :
    t = { m with cpu := t.cpu, stack := t.stack, bus := t.bus, display := t.display,
                 random := t.random } := by
  cases r with
  | returnFrom => obtain ⟨a, s, _, rfl⟩ := run_returnFrom.mp h; rfl
  | call => obtain ⟨s, _, rfl⟩ := run_call.mp h; rfl
  | storeDecimal => obtain ⟨b, _, rfl⟩ := run_storeDecimal.mp h; rfl
  | storeRegisters =>
    obtain ⟨b, _, hadv⟩ := run_storeRegisters.mp h
    cases (advance_eq _ _).symm.trans hadv
    rfl
  | loadRegisters =>
    obtain ⟨bs, _, hadv⟩ := run_loadRegisters.mp h
    cases (advance_eq _ _).symm.trans hadv
    rfl
  | draw => obtain ⟨rows, _, rfl⟩ := run_draw.mp h; rfl
  | skipEqualImmediate | skipUnequalImmediate | skipEqual | skipUnequal | skipPressed
  | skipReleased =>
    cases (run_skip rfl).symm.trans h
    rfl
  | waitKey => cases h
  | _ =>
    cases h
    rfl

end Routine

end Chip8
