import Chip8.Instruction.Pattern
import Chip8.Proofs.Operands

/-! # Patterns nibble by nibble

The one masked comparison by which a pattern judges a word comes to four separate
judgements, one for each nibble. -/

namespace Chip8

/-- Masking works on each digit to the base sixteen by itself. -/
theorem land_digits {a b c d : Nat} (hb : b < 16) (hd : d < 16) :
    (a * 16 + b) &&& (c * 16 + d) = (a &&& c) * 16 + (b &&& d) := by
  have hbd : b &&& d < 2 ^ 4 := Nat.and_lt_two_pow b hd
  apply Nat.eq_of_testBit_eq
  intro j
  rw [Nat.testBit_and, show a * 16 + b = 2 ^ 4 * a + b by omega,
    show c * 16 + d = 2 ^ 4 * c + d by omega,
    show (a &&& c) * 16 + (b &&& d) = 2 ^ 4 * (a &&& c) + (b &&& d) by omega,
    Nat.testBit_two_pow_mul_add a hb, Nat.testBit_two_pow_mul_add c hd,
    Nat.testBit_two_pow_mul_add (a &&& c) hbd]
  by_cases hj : j < 4
  · simp [hj]
  · simp [hj]

namespace PatternNibble

/-- A digit stands for itself, an operand for every nibble. -/
def admits : PatternNibble → Nibble → Bool
  | digit d, k => d == k
  | _, _ => true

theorem mask_lt (p : PatternNibble) : p.mask < 16 := by
  cases p <;> simp [mask]

theorem value_lt (p : PatternNibble) : p.value < 16 := by
  cases p with
  | digit d => exact d.isLt
  | _ => decide

theorem admits_iff (p : PatternNibble) (k : Nibble) :
    p.admits k = true ↔ k.val &&& p.mask = p.value := by
  cases p with
  | digit d =>
    have h : k.val &&& 15 = k.val := Nat.and_two_pow_sub_one_of_lt_two_pow (n := 4) k.isLt
    simp only [admits, mask, value, h, beq_iff_eq]
    exact ⟨fun e => by rw [e], fun e => Fin.ext e.symm⟩
  | _ => simp [admits, mask, value]

@[simp] theorem admits_ofNat (d : Nat) (k : Nibble) :
    (no_index (OfNat.ofNat d) : PatternNibble).admits k = true ↔ k.val = d % 16 := by
  change (Fin.ofNat 16 d == k) = true ↔ _
  rw [beq_iff_eq, Fin.ext_iff]
  exact eq_comm

@[simp] theorem admits_x (k : Nibble) : x.admits k = true := rfl

@[simp] theorem admits_y (k : Nibble) : y.admits k = true := rfl

@[simp] theorem admits_n (k : Nibble) : n.admits k = true := rfl

end PatternNibble

namespace Pattern

def admits (p : Pattern) (o : Operands) : Bool :=
  p.first.admits o.lead && p.second.admits o.x && p.third.admits o.y && p.fourth.admits o.n

theorem mask_eq (p : Pattern) : p.mask =
    ((p.first.mask * 16 + p.second.mask) * 16 + p.third.mask) * 16 + p.fourth.mask := by
  simp [mask, toList]

theorem value_eq (p : Pattern) : p.value =
    ((p.first.value * 16 + p.second.value) * 16 + p.third.value) * 16 + p.fourth.value := by
  simp [value, toList]

theorem accepts_eq (p : Pattern) (w : Int) : p.accepts w = p.admits (Operands.ofWord w) := by
  have hw : (w % 65536).toNat = (Operands.ofWord w).word := by
    have := Operands.word_ofWord w
    omega
  generalize Operands.ofWord w = o at hw
  unfold accepts
  rw [hw, Bool.eq_iff_iff, beq_iff_eq, mask_eq, value_eq, Operands.word,
    land_digits o.n.isLt p.fourth.mask_lt, land_digits o.y.isLt p.third.mask_lt,
    land_digits o.x.isLt p.second.mask_lt]
  have h1 := p.first.admits_iff o.lead
  have h2 := p.second.admits_iff o.x
  have h3 := p.third.admits_iff o.y
  have h4 := p.fourth.admits_iff o.n
  simp only [admits, Bool.and_eq_true, h1, h2, h3, h4]
  -- the digits of equal numbers are equal
  have b2 : o.x.val &&& p.second.mask < 16 := Nat.and_lt_two_pow (n := 4) _ p.second.mask_lt
  have b3 : o.y.val &&& p.third.mask < 16 := Nat.and_lt_two_pow (n := 4) _ p.third.mask_lt
  have b4 : o.n.val &&& p.fourth.mask < 16 := Nat.and_lt_two_pow (n := 4) _ p.fourth.mask_lt
  have v2 := p.second.value_lt
  have v3 := p.third.value_lt
  have v4 := p.fourth.value_lt
  omega

theorem accepts_iff (p : Pattern) (w : Int) : p.accepts w = true ↔
    p.first.admits (Operands.ofWord w).lead = true ∧ p.second.admits (Operands.ofWord w).x = true ∧
      p.third.admits (Operands.ofWord w).y = true ∧
      p.fourth.admits (Operands.ofWord w).n = true := by
  rw [accepts_eq]
  simp only [admits, Bool.and_eq_true, and_assoc]

/-- A pattern that starts with a digit stands in the group of that digit. -/
theorem leading_of_fixed {p : Pattern} {d : Nibble} (h : p.first = .digit d) :
    p.leading = d := by
  have v2 := p.second.value_lt
  have v3 := p.third.value_lt
  have v4 := p.fourth.value_lt
  have hd : p.first.value = d.val := by rw [h]; rfl
  have hlt := d.isLt
  have hv := p.value_eq
  apply Fin.ext
  unfold leading nibbleOf
  simp only [hv, hd]
  omega

/-- Any other pattern stands in group zero. -/
theorem leading_of_operand {p : Pattern} (h : p.first.isFixed = false) : p.leading = 0 := by
  have v2 := p.second.value_lt
  have v3 := p.third.value_lt
  have v4 := p.fourth.value_lt
  have hv := p.value_eq
  have hzero : p.first.value = 0 := by
    cases hf : p.first with
    | digit d => rw [hf] at h; cases h
    | _ => rfl
  apply Fin.ext
  unfold leading nibbleOf
  simp only [hv, hzero]
  omega

/-- Whatever a pattern accepts starts with the digit that the pattern starts with. -/
theorem lead_of_accepts {p : Pattern} {w : Int} (hp : p.first.isFixed = true)
    (h : p.accepts w = true) : p.leading = (Operands.ofWord w).lead := by
  rw [accepts_eq] at h
  unfold admits at h
  simp only [Bool.and_eq_true] at h
  cases hf : p.first with
  | digit d =>
    rw [leading_of_fixed hf]
    have := h.1.1.1
    rw [hf] at this
    exact beq_iff_eq.mp this
  | _ => rw [hf] at hp; cases hp

end Pattern

end Chip8
