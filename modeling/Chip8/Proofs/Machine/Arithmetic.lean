import Chip8.Proofs.Machine.FaultDomain

/-! # Arithmetic with a flag

Five operations on two registers leave a flag in `VF`. Both operands are read before anything is
written, and the flag is written last. So the results are those of the registers as they were, also
where `Vx`, `Vy` and `VF` are not three registers but two or one, and where `VF` is the destination
the flag is what remains. -/

namespace Chip8

/-- The operations on `Vx` and `Vy` that leave a flag. -/
inductive FlagOperation
  | add | subtract | shiftRight | subtractFrom | shiftLeft
deriving DecidableEq, Repr

namespace FlagOperation

/-- The last digit of their words, of which the first is 8. -/
def digit : FlagOperation → Int
  | add => 4
  | subtract => 5
  | shiftRight => 6
  | subtractFrom => 7
  | shiftLeft => 0xE

def word (op : FlagOperation) (x y : Nibble) : Nat :=
  Operands.word ⟨nibbleOf 8, x, y, nibbleOf op.digit⟩

/-- What becomes of `Vx`, from the values of `Vx` and `Vy`. -/
def result (a b : Int) : FlagOperation → Int
  | add => (a + b) % 256
  | subtract => (a - b) % 256
  | shiftRight => b / 2
  | subtractFrom => (b - a) % 256
  | shiftLeft => 2 * b % 256

/-- Whether a sum is too large or a difference is none, and the bit that a shift drops. -/
def flag (a b : Int) : FlagOperation → Int
  | add => if a + b > 255 then 1 else 0
  | subtract => if a ≥ b then 1 else 0
  | shiftRight => b % 2
  | subtractFrom => if b ≥ a then 1 else 0
  | shiftLeft => b / 128

def routine : FlagOperation → Routine
  | add => .add
  | subtract => .subtract
  | shiftRight => .shiftRight
  | subtractFrom => .subtractFrom
  | shiftLeft => .shiftLeft

variable (op : FlagOperation) (x y : Nibble)

theorem decodes_word : InstructionTable.Decodes (op.word x y) op.routine := by
  refine InstructionTable.decodes_of_accepts (by cases op <;> decide) ?_
  rw [Pattern.accepts_iff, word, Operands.ofWord_word]
  cases op <;> exact ⟨rfl, rfl, rfl, rfl⟩

/-- The two bytes that an operation writes, into `Vx` and then into `VF`. -/
def bytes (a b : UInt8) : FlagOperation → UInt8 × Bool
  | add => (a + b, decide (255 < a.toNat + b.toNat))
  | subtract => (a - b, decide (b ≤ a))
  | shiftRight => (b >>> 1, b.toNat % 2 == 1)
  | subtractFrom => (b - a, decide (a ≤ b))
  | shiftLeft => (b <<< 1, decide (128 ≤ b.toNat))

theorem run_routine {pc : Int} {m : Machine} : op.routine.run pc (op.word x y) m =
    let (value, flag) := op.bytes (m.cpu.v.get x) (m.cpu.v.get y)
    .ok () { m with cpu := { m.cpu with
      v := setAt (setAt m.cpu.v x value) Machine.flagRegister (if flag then 1 else 0) } } := by
  have ho : Operands.ofWord (op.word x y) = ⟨nibbleOf 8, x, y, nibbleOf op.digit⟩ :=
    Operands.ofWord_word _
  unfold Routine.run
  rw [ho]
  cases op <;> rfl

theorem toNat_bytes (a b : UInt8) : ((op.bytes a b).1.toNat : Int) = op.result a.toNat b.toNat := by
  have ha := a.toNat_lt
  have hb := b.toNat_lt
  cases op with
  | add => simp [bytes, result]
  | subtract =>
    simp only [bytes, result, UInt8.toNat_sub]
    omega
  | shiftRight => simp [bytes, result, Nat.shiftRight_eq_div_pow]
  | subtractFrom =>
    simp only [bytes, result, UInt8.toNat_sub]
    omega
  | shiftLeft =>
    simp [bytes, result, Nat.shiftLeft_eq]
    omega

theorem toNat_bit (p : Bool) : ((if p then 1 else 0 : UInt8).toNat : Int) = if p then 1 else 0 := by
  cases p <;> rfl

theorem toNat_flag (a b : UInt8) :
    ((if (op.bytes a b).2 then 1 else 0 : UInt8).toNat : Int) = op.flag a.toNat b.toNat := by
  have hb := b.toNat_lt
  rw [toNat_bit]
  cases op with
  | add =>
    simp only [bytes, flag, decide_eq_true_eq]
    exact if_congr (by omega) rfl rfl
  | subtract =>
    simp only [bytes, flag, decide_eq_true_eq, UInt8.le_iff_toNat_le]
    exact if_congr (by omega) rfl rfl
  | shiftRight =>
    simp only [bytes, flag, beq_iff_eq]
    omega
  | subtractFrom =>
    simp only [bytes, flag, decide_eq_true_eq, UInt8.le_iff_toNat_le]
    exact if_congr (by omega) rfl rfl
  | shiftLeft =>
    simp only [bytes, flag, decide_eq_true_eq]
    omega

end FlagOperation

namespace Machine

/-- What an operation makes of the machine: the result, unless the flag replaces it, the flag, and
nothing else but a step to the next instruction. -/
structure Computes (op : FlagOperation) (x y : Nibble) (m t : Machine) : Prop where
  result : x ≠ flagRegister →
    ((t.cpu.v.get x).toNat : Int) = op.result (m.cpu.v.get x).toNat (m.cpu.v.get y).toNat
  flag : ((t.cpu.v.get flagRegister).toNat : Int) =
    op.flag (m.cpu.v.get x).toNat (m.cpu.v.get y).toNat
  others : ∀ k, k ≠ x → k ≠ flagRegister → t.cpu.v.get k = m.cpu.v.get k
  rest : t = { m with
    cpu := { m.cpu with v := t.cpu.v, pc := m.cpu.pc + 2 }
    cycles := m.cycles + 1 }

/-- Whatever registers it names, an operation goes through and computes with the registers as they
were. -/
theorem cycle_computes {m : Machine} {op : FlagOperation} {x y : Nibble} (hm : m.Wired)
    (ht : m.table = .standard) (hw : m.bus.load16 m.cpu.pc = .ok (op.word x y)) :
    ∃ i t, cycle m = .ok i t ∧ Computes op x y m t := by
  obtain ⟨i, hf⟩ := finds_of_decodes ht hw (op.decodes_word x y)
  obtain ⟨lo, hi⟩ := hm.standard.load16_eq_ok.mp ⟨_, hw⟩
  refine ⟨i, _, cycle_eq_ok.mpr ⟨_, _, _, hf, op.run_routine x y, rfl⟩, ?_, ?_, ?_, ?_⟩
  · intro hx
    change (((setAt (setAt m.cpu.v x _) flagRegister _).get x).toNat : Int) = _
    rw [get_setAt, if_neg hx, get_setAt, if_pos rfl]
    exact op.toNat_bytes _ _
  · change (((setAt (setAt m.cpu.v x _) flagRegister _).get flagRegister).toNat : Int) = _
    rw [get_setAt, if_pos rfl]
    exact op.toNat_flag _ _
  · intro k hx hflag
    change (setAt (setAt m.cpu.v x _) flagRegister _).get k = _
    rw [get_setAt, if_neg hflag, get_setAt, if_neg hx]
  · rw [← pc_behind lo hi]
    rfl

/-- A machine that is about to add the flag register to itself. -/
def doubling : Machine :=
  { bare with
    bus := wordBus 0x8F 0xF4
    cpu := { v := setAt (Vector.replicate 16 0) flagRegister 200 } }

/-- The sum of 400 is too large, and of it only that is left. -/
theorem cycle_computes_doubling : doubling.Wired ∧ doubling.table = .standard ∧
    doubling.bus.load16 doubling.cpu.pc = .ok (FlagOperation.add.word flagRegister flagRegister) ∧
    ∃ i t, cycle doubling = .ok i t ∧ Computes .add flagRegister flagRegister doubling t ∧
      (t.cpu.v.get flagRegister).toNat = 1 := by
  have hm : doubling.Wired := ⟨{}, bare, create_bare, wordBus_layout 0x8F 0xF4⟩
  have hw : doubling.bus.load16 doubling.cpu.pc =
      .ok (FlagOperation.add.word flagRegister flagRegister) := load16_wordBus 0x8F 0xF4
  obtain ⟨i, t, hc, ht⟩ := cycle_computes hm rfl hw
  have hsum : FlagOperation.add.flag (doubling.cpu.v.get flagRegister).toNat
      (doubling.cpu.v.get flagRegister).toNat = 1 := by decide
  have hflag := ht.flag
  rw [hsum] at hflag
  exact ⟨hm, rfl, hw, i, t, hc, ht, by omega⟩

end Machine

end Chip8
