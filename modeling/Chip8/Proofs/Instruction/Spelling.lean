import Chip8.Instruction.Basic
import Chip8.Proofs.Instruction.Pattern
import Chip8.Proofs.Operands.Masks
import Chip8.Proofs.Outcome
import Mathlib.Data.List.Basic

/-! # The spelling of patterns

A pattern is spelled in four characters, one for each nibble, and no other text is one. What an
instruction does with words can be read off them: a digit stands for itself and a letter for every
nibble. Mask and value, which are gathered from the characters by shifts, and the comparison of a
masked integer of any sign and size come to just that. -/

namespace Chip8

/-! ## Characters -/

/-- The digits, each at the place of its value. -/
def digitChars : List Char := "0123456789ABCDEF".toList

def operandChars : List Char := "XYN".toList

/-- The character goes with this nibble: letters go with all of them. -/
def GoesWith (c : Char) (d : Int) : Prop := c ∈ operandChars ∨ digitChars[d.toNat]? = some c

instance (c : Char) (d : Int) : Decidable (GoesWith c d) := inferInstanceAs (Decidable (_ ∨ _))

namespace PatternNibble

theorem ofChar?_toChar (p : PatternNibble) : ofChar? p.toChar = some p := by
  have hdigit : ∀ d : Nibble, ofChar? (digit d).toChar = some (digit d) := by decide
  cases p with
  | digit d => exact hdigit d
  | x | y | n => decide

/-- Every character that is read is the one that is written. -/
theorem toChar_of_ofChar? {c : Char} {p : PatternNibble} (h : ofChar? c = some p) :
    p.toChar = c := by
  have hdecimal : ∀ n < 58, 48 ≤ n →
      (digit (Fin.ofNat 16 (n - 48))).toChar = Char.ofNat n := by decide
  have hletter : ∀ n < 71, 65 ≤ n →
      (digit (Fin.ofNat 16 (n - 55))).toChar = Char.ofNat n := by decide
  unfold ofChar? at h
  split_ifs at h with hd hl hx hy hn <;> cases h
  · rw [hdecimal c.toNat (Nat.lt_succ_of_le hd.2) hd.1, Char.ofNat_toNat]
  · rw [hletter c.toNat (Nat.lt_succ_of_le hl.2) hl.1, Char.ofNat_toNat]
  · exact hx.symm
  · exact hy.symm
  · exact hn.symm

theorem ofChar?_eq_some {c : Char} {p : PatternNibble} : ofChar? c = some p ↔ c = p.toChar :=
  ⟨fun h => (toChar_of_ofChar? h).symm, fun h => h ▸ p.ofChar?_toChar⟩

/-- The fixed nibbles are written as digits, and no other ones. -/
theorem toChar_mem_digitChars (p : PatternNibble) : p.toChar ∈ digitChars ↔ p.isFixed = true := by
  have hdigit : ∀ d : Nibble, (digit d).toChar ∈ digitChars := by decide
  cases p with
  | digit d => exact iff_of_true (hdigit d) rfl
  | x | y | n => decide

theorem exists_toChar {c : Char} :
    (∃ p : PatternNibble, c = p.toChar) ↔ c ∈ digitChars ∨ c ∈ operandChars := by
  constructor
  · rintro ⟨p, rfl⟩
    cases p with
    | digit d => exact .inl ((toChar_mem_digitChars _).mpr rfl)
    | x | y | n => exact .inr (by decide)
  · have hplace : ∀ d : Nibble, digitChars[d.val]? = some (digit d).toChar := by decide
    have hlength : digitChars.length = 16 := by decide
    rintro (h | h)
    · obtain ⟨k, hk⟩ := List.mem_iff_getElem?.mp h
      have hlt : k < 16 := hlength ▸ (List.getElem?_eq_some_iff.mp hk).1
      exact ⟨digit ⟨k, hlt⟩, Option.some.inj (hk.symm.trans (hplace ⟨k, hlt⟩))⟩
    · obtain rfl | rfl | rfl : c = 'X' ∨ c = 'Y' ∨ c = 'N' := by simpa [operandChars] using h
      · exact ⟨x, rfl⟩
      · exact ⟨y, rfl⟩
      · exact ⟨n, rfl⟩

theorem goesWith_toChar (p : PatternNibble) (k : Nibble) :
    GoesWith p.toChar k.val ↔ p.admits k = true := by
  have hdigit : ∀ d k : Nibble, GoesWith (digit d).toChar k.val ↔ (d == k) = true := by
    decide +kernel
  cases p with
  | digit d => exact hdigit d k
  | x | y | n => exact iff_of_true (.inl (by decide)) rfl

theorem value_land_mask (p : PatternNibble) : p.value &&& p.mask = p.value := by
  cases p with
  | digit d => exact Nat.and_two_pow_sub_one_of_lt_two_pow (n := 4) d.isLt
  | x | y | n => rfl

theorem isFixed_iff (p : PatternNibble) : p.isFixed = true ↔ (p.mask : Int) ≠ 0 := by
  cases p <;> simp [isFixed, mask]

end PatternNibble

/-! ## Texts -/

namespace Pattern

/-- Reads one character of a text. -/
def readChar (text : String) (c : Char) : Except PatternError PatternNibble :=
  match PatternNibble.ofChar? c with
  | some p => .ok p
  | none => .error (.character c text)

theorem readChar_eq_ok {text : String} {c : Char} {p : PatternNibble} :
    readChar text c = .ok p ↔ c = p.toChar := by
  rw [← PatternNibble.ofChar?_eq_some]
  unfold readChar
  cases PatternNibble.ofChar? c <;> simp

theorem parse_of_four {text : String} {a b c d : Char} (h : text.toList = [a, b, c, d]) :
    parse text = do
      return ⟨← readChar text a, ← readChar text b, ← readChar text c, ← readChar text d⟩ := by
  unfold parse
  rw [h]
  rfl

theorem length_of_parse {text : String} {p : Pattern} (h : parse text = .ok p) :
    text.toList.length = 4 := by
  unfold parse at h
  dsimp only at h
  split at h
  · rename_i hcs
    rw [hcs]
    rfl
  · cases h

/-- A text is a pattern if it is what the pattern is written as. -/
theorem parse_eq_ok {text : String} {p : Pattern} :
    parse text = .ok p ↔ text.toList = p.toList.map PatternNibble.toChar := by
  constructor
  · intro h
    obtain ⟨a, b, c, d, hcs⟩ := List.length_eq_four.mp (length_of_parse h)
    rw [parse_of_four hcs] at h
    obtain ⟨q₁, h₁, h⟩ := except_bind_eq_ok.mp h
    obtain ⟨q₂, h₂, h⟩ := except_bind_eq_ok.mp h
    obtain ⟨q₃, h₃, h⟩ := except_bind_eq_ok.mp h
    obtain ⟨q₄, h₄, h⟩ := except_bind_eq_ok.mp h
    cases h
    rw [hcs, readChar_eq_ok.mp h₁, readChar_eq_ok.mp h₂, readChar_eq_ok.mp h₃,
      readChar_eq_ok.mp h₄]
    rfl
  · intro h
    rw [parse_of_four h, readChar_eq_ok.mpr rfl, readChar_eq_ok.mpr rfl, readChar_eq_ok.mpr rfl,
      readChar_eq_ok.mpr rfl]
    rfl

/-- Four characters, each of them a digit or a letter for an operand, are a pattern. -/
theorem parse_isOk {text : String} : (∃ p, parse text = .ok p) ↔
    text.toList.length = 4 ∧ ∀ c ∈ text.toList, c ∈ digitChars ∨ c ∈ operandChars := by
  simp only [parse_eq_ok, ← PatternNibble.exists_toChar]
  constructor
  · rintro ⟨p, hp⟩
    rw [hp]
    refine ⟨rfl, fun c hc => ?_⟩
    obtain ⟨q, _, rfl⟩ := List.mem_map.mp hc
    exact ⟨q, rfl⟩
  · rintro ⟨hlen, hall⟩
    obtain ⟨a, b, c, d, hcs⟩ := List.length_eq_four.mp hlen
    simp only [hcs, List.forall_mem_cons] at hall
    obtain ⟨⟨q₁, rfl⟩, ⟨q₂, rfl⟩, ⟨q₃, rfl⟩, ⟨q₄, rfl⟩, _⟩ := hall
    exact ⟨⟨q₁, q₂, q₃, q₄⟩, hcs⟩

/-- Mask and value move up, and the nibble of the character goes in behind them. -/
def gatherChar (acc : Int × Int) (c : Char) : Option (Int × Int) :=
  match digitChars.idxOf? c with
  | some d => some (Int.lor (acc.1 <<< (4 : Nat)) 0xF, Int.lor (acc.2 <<< (4 : Nat)) d)
  | none => if c ∈ operandChars then some (acc.1 <<< (4 : Nat), acc.2 <<< (4 : Nat)) else none

def gather (cs : List Char) : Option (Int × Int) := cs.foldlM gatherChar (0, 0)

theorem gatherChar_toChar (mask value : Nat) (p : PatternNibble) :
    gatherChar (mask, value) p.toChar =
      some (↑(mask * 16 + p.mask), ↑(value * 16 + p.value)) := by
  have hmove (v : Nat) : (v : Int) <<< (4 : Nat) = (v * 16 : Nat) := Int.shiftLeft_eq v 4
  have hdigit : ∀ d : Nibble, digitChars.idxOf? (PatternNibble.digit d).toChar = some d.val := by
    decide
  unfold gatherChar
  cases p with
  | digit d =>
    rw [hdigit d]
    exact congrArg some (Prod.ext (lor_shiftLeft mask (Fin.last 15)) (lor_shiftLeft value d))
  | x | y | n => exact congrArg some (Prod.ext (hmove mask) (hmove value))

theorem foldlM_gatherChar (ps : List PatternNibble) (mask value : Nat) :
    (ps.map PatternNibble.toChar).foldlM gatherChar ((mask : Int), (value : Int)) =
      some (↑(ps.foldl (fun acc p => acc * 16 + p.mask) mask),
        ↑(ps.foldl (fun acc p => acc * 16 + p.value) value)) := by
  induction ps generalizing mask value with
  | nil => rfl
  | cons p ps ih =>
    rw [List.map_cons, List.foldlM_cons, gatherChar_toChar, List.foldl_cons, List.foldl_cons, ← ih]
    rfl

theorem mask_lt (p : Pattern) : p.mask < 65536 := by
  have h₁ := p.first.mask_lt
  have h₂ := p.second.mask_lt
  have h₃ := p.third.mask_lt
  have h₄ := p.fourth.mask_lt
  rw [mask_eq]
  omega

/-- An integer of any size is masked and compared. -/
theorem accepts_iff_land (p : Pattern) (w : Int) :
    p.accepts w = true ↔ Int.land w p.mask = p.value := by
  rw [land_natCast (k := 16) p.mask_lt, Int.natCast_inj]
  exact beq_iff_eq

theorem value_land_mask (p : Pattern) : p.value &&& p.mask = p.value := by
  rw [value_eq, mask_eq, land_digits p.fourth.value_lt p.fourth.mask_lt,
    land_digits p.third.value_lt p.third.mask_lt, land_digits p.second.value_lt p.second.mask_lt]
  simp only [PatternNibble.value_land_mask]

/-- No bit of the value stands where the mask has none. -/
theorem value_land_lnot_mask (p : Pattern) : Int.land p.value (Int.lnot p.mask) = 0 := by
  change ((Nat.ldiff p.value p.mask : Nat) : Int) = 0
  rw [Int.natCast_eq_zero]
  apply Nat.eq_of_testBit_eq
  intro j
  have hj : (p.value.testBit j && p.mask.testBit j) = p.value.testBit j := by
    rw [← Nat.testBit_and, value_land_mask]
  rw [Nat.testBit_ldiff, Nat.zero_testBit, ← hj, Bool.and_assoc, Bool.and_not_self, Bool.and_false]

/-- The fixed nibbles are those in which the mask has ones. -/
theorem specificity_eq (p : Pattern) : p.specificity =
    [12, 8, 4, 0].countP fun s : Nat => Int.land ((p.mask : Int) >>> s) 0xF ≠ 0 := by
  have h₁ := p.first.mask_lt
  have h₂ := p.second.mask_lt
  have h₃ := p.third.mask_lt
  have h₄ := p.fourth.mask_lt
  have hmask := p.mask_eq
  have hcut (s : Nat) :
      Int.land ((p.mask : Int) >>> s) 0xF = (p.mask : Int) / (2 ^ s : Nat) % 16 := by
    rw [land_nibble, Int.shiftRight_eq_div_pow]
  have hfirst : Int.land ((p.mask : Int) >>> (12 : Nat)) 0xF = p.first.mask := by
    rw [hcut]
    omega
  have hsecond : Int.land ((p.mask : Int) >>> (8 : Nat)) 0xF = p.second.mask := by
    rw [hcut]
    omega
  have hthird : Int.land ((p.mask : Int) >>> (4 : Nat)) 0xF = p.third.mask := by
    rw [hcut]
    omega
  have hfourth : Int.land ((p.mask : Int) >>> (0 : Nat)) 0xF = p.fourth.mask := by
    rw [hcut]
    omega
  simp only [specificity, toList, List.countP_cons, List.countP_nil, hfirst, hsecond, hthird,
    hfourth, decide_eq_true_eq, PatternNibble.isFixed_iff]

theorem specificity_of_chars {p : Pattern} {cs : List Char}
    (h : cs = p.toList.map PatternNibble.toChar) :
    p.specificity = cs.countP (· ∈ digitChars) := by
  rw [h, List.countP_map, specificity]
  refine List.countP_congr fun q _ => ?_
  simp only [Function.comp_apply, decide_eq_true_eq, q.toChar_mem_digitChars]

/-- At each place the character has to go with the nibble of the word. -/
theorem accepts_iff_goesWith {p : Pattern} {cs : List Char}
    (h : cs = p.toList.map PatternNibble.toChar) (w : Int) : p.accepts w = true ↔
      ∀ k < 4, ∃ c, cs[k]? = some c ∧ GoesWith c (w % 65536 / 16 ^ (3 - k) % 16) := by
  -- the digits of the remainder are the nibbles of the word
  have hlead : w % 65536 / 16 ^ (3 - 0) % 16 = (Operands.ofWord w).lead.val := by
    rw [Operands.val_lead]
    omega
  have hx : w % 65536 / 16 ^ (3 - 1) % 16 = (Operands.ofWord w).x.val := by
    rw [Operands.val_x]
    omega
  have hy : w % 65536 / 16 ^ (3 - 2) % 16 = (Operands.ofWord w).y.val := by
    rw [Operands.val_y]
    omega
  have hn : w % 65536 / 16 ^ (3 - 3) % 16 = (Operands.ofWord w).n.val := by
    rw [Operands.val_n]
    omega
  have hfour (P : Nat → Prop) : (∀ k < 4, P k) ↔ P 0 ∧ P 1 ∧ P 2 ∧ P 3 := by
    simp only [Nat.forall_lt_succ_right, Nat.not_lt_zero, false_implies, implies_true, true_and,
      and_assoc]
  rw [accepts_iff, hfour, hlead, hx, hy, hn, h]
  simp only [toList, List.map_cons, List.getElem?_cons_zero, List.getElem?_cons_succ,
    Option.some.injEq, exists_eq_left', PatternNibble.goesWith_toChar]

end Pattern

/-! ## Instructions -/

namespace Instruction

/-- What an instruction does with words, read off the characters of its pattern. -/
structure Nibblewise (i : Instruction) (cs : List Char) : Prop where
  accepts : ∀ w : Int, i.accepts w = true ↔
    ∀ k < 4, ∃ c, cs[k]? = some c ∧ GoesWith c (w % 65536 / 16 ^ (3 - k) % 16)
  specificity : i.specificity = cs.countP (· ∈ digitChars)
  value_inside : Int.land i.pattern.value (Int.lnot i.pattern.mask) = 0

/-- The same by masks and shifts, on integers without bounds. -/
structure ByMasks (i : Instruction) (cs : List Char) : Prop where
  gathered : Pattern.gather cs = some (↑i.pattern.mask, ↑i.pattern.value)
  accepts : ∀ w : Int, i.accepts w = true ↔ Int.land w i.pattern.mask = i.pattern.value
  specificity : i.specificity =
    [12, 8, 4, 0].countP fun s : Nat => Int.land ((i.pattern.mask : Int) >>> s) 0xF ≠ 0

variable {text mnemonic routine template : String} {i : Instruction}

theorem ofText_isOk : (∃ i, ofText text mnemonic routine template = .ok i) ↔
    ∃ p, Pattern.parse text = .ok p := by
  unfold ofText
  cases Pattern.parse text <;> simp

theorem parse_of_ofText (h : ofText text mnemonic routine template = .ok i) :
    text.toList = i.pattern.toList.map PatternNibble.toChar := by
  obtain ⟨p, hp, h⟩ := except_bind_eq_ok.mp h
  cases h
  exact Pattern.parse_eq_ok.mp hp

/-- Four characters, each of them a digit or a letter for an operand, make an instruction, and
nothing else does. The instruction accepts a word if every digit is the nibble at its place, in a
word of any sign and size; it is as specific as there are digits; and the mask and the value that
its comparison uses are those that the characters gather. -/
theorem ofText_nibblewise (text mnemonic routine template : String) :
    ((∃ i, ofText text mnemonic routine template = .ok i) ↔
      text.toList.length = 4 ∧ ∀ c ∈ text.toList, c ∈ digitChars ∨ c ∈ operandChars) ∧
    ∀ i, ofText text mnemonic routine template = .ok i →
      i.Nibblewise text.toList ∧ i.ByMasks text.toList := by
  refine ⟨ofText_isOk.trans Pattern.parse_isOk, fun i h => ?_⟩
  have hcs := parse_of_ofText h
  refine ⟨⟨Pattern.accepts_iff_goesWith hcs, Pattern.specificity_of_chars hcs,
    i.pattern.value_land_lnot_mask⟩, ⟨?_, i.pattern.accepts_iff_land, i.pattern.specificity_eq⟩⟩
  rw [hcs]
  exact Pattern.foldlM_gatherChar i.pattern.toList 0 0

/-- A digit of zero is asked for as well, and a negative word is judged by its last nibbles. -/
theorem ofText_nibblewise_zero : ∃ i, ofText "0X0E" "" "" "" = .ok i ∧
    i.accepts (-0x10000 + 0x0A0E) = true ∧ i.accepts 0x1A0E = false ∧ i.specificity = 3 := by
  obtain ⟨hiff, hall⟩ := ofText_nibblewise "0X0E" "" "" ""
  have hchars : ("0X0E".toList.all fun c => decide (c ∈ digitChars ∨ c ∈ operandChars)) = true := by
    decide
  obtain ⟨i, hi⟩ := hiff.mpr
    ⟨rfl, fun c hc => of_decide_eq_true (List.all_eq_true.mp hchars c hc)⟩
  have hn := (hall i hi).1
  refine ⟨i, hi, (hn.accepts _).mpr fun k hk => ?_, Bool.eq_false_iff.mpr fun h => ?_,
    hn.specificity⟩
  · match k, hk with
    | 0, _ => exact ⟨'0', rfl, by decide⟩
    | 1, _ => exact ⟨'X', rfl, by decide⟩
    | 2, _ => exact ⟨'0', rfl, by decide⟩
    | 3, _ => exact ⟨'E', rfl, by decide⟩
  · obtain ⟨c, hc, hgoes⟩ := (hn.accepts 0x1A0E).mp h 0 (by decide)
    cases hc
    exact absurd hgoes (by decide)

end Instruction

end Chip8
