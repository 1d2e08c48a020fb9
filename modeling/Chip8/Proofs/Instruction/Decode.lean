import Chip8.Instruction.Standard
import Chip8.Proofs.Instruction.Table
import Mathlib.Data.List.Nodup

/-! # Decoding with the standard table

Each routine has one pattern, and of two patterns that accept a common word one is more
specific. So the standard table finds for a word the routine of the most specific pattern
that accepts it, which for every routine but the call of machine code is the only one. -/

namespace Chip8

/-! ## Patterns that exclude each other -/

def PatternNibble.clashes : PatternNibble → PatternNibble → Bool
  | digit d, digit e => d != e
  | _, _ => false

theorem PatternNibble.not_clashes {p q : PatternNibble} {k : Nibble} (hp : p.admits k = true)
    (hq : q.admits k = true) : p.clashes q = false := by
  cases p with
  | digit d =>
    cases q with
    | digit e =>
      obtain rfl : d = k := beq_iff_eq.mp hp
      obtain rfl : e = d := beq_iff_eq.mp hq
      simp [clashes]
    | _ => rfl
  | _ => rfl

/-- The patterns have different digits at some place. -/
def Pattern.clashes (p q : Pattern) : Bool :=
  p.first.clashes q.first || p.second.clashes q.second || p.third.clashes q.third
    || p.fourth.clashes q.fourth

theorem PatternNibble.clashes_comm (p q : PatternNibble) : p.clashes q = q.clashes p := by
  cases p <;> cases q <;> simp [clashes, bne_comm]

theorem Pattern.clashes_comm (p q : Pattern) : p.clashes q = q.clashes p := by
  unfold clashes
  rw [PatternNibble.clashes_comm p.first, PatternNibble.clashes_comm p.second,
    PatternNibble.clashes_comm p.third, PatternNibble.clashes_comm p.fourth]

theorem Pattern.not_clashes {p q : Pattern} {w : Int} (hp : p.accepts w = true)
    (hq : q.accepts w = true) : p.clashes q = false := by
  rw [accepts_eq] at hp hq
  unfold admits at hp hq
  simp only [Bool.and_eq_true] at hp hq
  obtain ⟨⟨⟨hp1, hp2⟩, hp3⟩, hp4⟩ := hp
  obtain ⟨⟨⟨hq1, hq2⟩, hq3⟩, hq4⟩ := hq
  unfold clashes
  rw [PatternNibble.not_clashes hp1 hq1, PatternNibble.not_clashes hp2 hq2,
    PatternNibble.not_clashes hp3 hq3, PatternNibble.not_clashes hp4 hq4]
  rfl

namespace Routine

/-- The words that a routine is there for. -/
def pattern : Routine → Pattern
  | clearScreen => ⟨0, 0, 0xE, 0⟩
  | returnFrom => ⟨0, 0, 0xE, 0xE⟩
  | machineCall => ⟨0, .n, .n, .n⟩
  | jump => ⟨1, .n, .n, .n⟩
  | call => ⟨2, .n, .n, .n⟩
  | skipEqualImmediate => ⟨3, .x, .n, .n⟩
  | skipUnequalImmediate => ⟨4, .x, .n, .n⟩
  | skipEqual => ⟨5, .x, .y, 0⟩
  | loadImmediate => ⟨6, .x, .n, .n⟩
  | addImmediate => ⟨7, .x, .n, .n⟩
  | copy => ⟨8, .x, .y, 0⟩
  | or => ⟨8, .x, .y, 1⟩
  | and => ⟨8, .x, .y, 2⟩
  | xor => ⟨8, .x, .y, 3⟩
  | add => ⟨8, .x, .y, 4⟩
  | subtract => ⟨8, .x, .y, 5⟩
  | shiftRight => ⟨8, .x, .y, 6⟩
  | subtractFrom => ⟨8, .x, .y, 7⟩
  | shiftLeft => ⟨8, .x, .y, 0xE⟩
  | skipUnequal => ⟨9, .x, .y, 0⟩
  | loadIndex => ⟨0xA, .n, .n, .n⟩
  | jumpOffset => ⟨0xB, .n, .n, .n⟩
  | random => ⟨0xC, .x, .n, .n⟩
  | draw => ⟨0xD, .x, .y, .n⟩
  | skipPressed => ⟨0xE, .x, 9, 0xE⟩
  | skipReleased => ⟨0xE, .x, 0xA, 1⟩
  | readDelay => ⟨0xF, .x, 0, 7⟩
  | waitKey => ⟨0xF, .x, 0, 0xA⟩
  | setDelay => ⟨0xF, .x, 1, 5⟩
  | setSound => ⟨0xF, .x, 1, 8⟩
  | addIndex => ⟨0xF, .x, 1, 0xE⟩
  | loadGlyph => ⟨0xF, .x, 2, 9⟩
  | storeDecimal => ⟨0xF, .x, 3, 3⟩
  | storeRegisters => ⟨0xF, .x, 5, 5⟩
  | loadRegisters => ⟨0xF, .x, 6, 5⟩

/-! The words of the routines that can refuse, as numbers. -/

section Words

variable {w : Nat} (hw : w < 65536)
include hw

theorem accepts_returnFrom : returnFrom.pattern.accepts w = true ↔ w = 0x00EE := by
  have hl := Operands.val_lead w
  have hx := Operands.val_x w
  have hy := Operands.val_y w
  have hn := Operands.val_n w
  simp only [pattern, Pattern.accepts_iff, PatternNibble.admits_ofNat]
  omega

theorem accepts_call : call.pattern.accepts w = true ↔ w / 4096 = 2 := by
  have hl := Operands.val_lead w
  simp only [pattern, Pattern.accepts_iff, PatternNibble.admits_ofNat, PatternNibble.admits_n,
    and_true]
  omega

theorem accepts_draw : draw.pattern.accepts w = true ↔ w / 4096 = 13 := by
  have hl := Operands.val_lead w
  simp only [pattern, Pattern.accepts_iff, PatternNibble.admits_ofNat, PatternNibble.admits_x,
    PatternNibble.admits_y, PatternNibble.admits_n, and_true]
  omega

/-- The words that start with F and end in two given digits. -/
theorem accepts_miscellaneous (d e : Nat) (hd : d < 16) (he : e < 16) :
    (Pattern.mk 0xF .x (OfNat.ofNat d) (OfNat.ofNat e)).accepts w = true ↔
      w / 4096 = 15 ∧ w % 256 = d * 16 + e := by
  have hl := Operands.val_lead w
  have hy := Operands.val_y w
  have hn := Operands.val_n w
  simp only [Pattern.accepts_iff, PatternNibble.admits_ofNat, PatternNibble.admits_x, true_and]
  omega

end Words

theorem mem_all (r : Routine) : r ∈ all := by
  cases r <;> decide

theorem specificity_ne_of_not_clashes {r s : Routine} (hne : r ≠ s)
    (h : r.pattern.clashes s.pattern = false) :
    r.pattern.specificity ≠ s.pattern.specificity := by
  have hall : ∀ r ∈ all, ∀ s ∈ all, r ≠ s → r.pattern.clashes s.pattern = false →
      r.pattern.specificity ≠ s.pattern.specificity := by decide +kernel
  exact hall r (mem_all r) s (mem_all s) hne h

theorem eq_machineCall_of_not_clashes {r s : Routine}
    (hlt : r.pattern.specificity < s.pattern.specificity)
    (h : r.pattern.clashes s.pattern = false) : r = machineCall := by
  have hall : ∀ r ∈ all, ∀ s ∈ all, r.pattern.specificity < s.pattern.specificity →
      r.pattern.clashes s.pattern = false → r = machineCall := by decide +kernel
  exact hall r (mem_all r) s (mem_all s) hlt h

end Routine

namespace InstructionTable

theorem standard_grouped : standard.Grouped := Grouped.empty.insertAll Standard.instructions

theorem entries_standard : standard.entries = Standard.instructions :=
  entries_insertAll {} Standard.instructions

/-- An entry of the standard table carries the pattern of its routine. -/
theorem exists_routine {i : Instruction} (h : i ∈ standard.entries) :
    ∃ r, Routine.ofName? i.routine = some r ∧ i.pattern = r.pattern := by
  have hall : ∀ i ∈ Standard.instructions,
      (Routine.ofName? i.routine).map Routine.pattern = some i.pattern := by decide +kernel
  rw [entries_standard] at h
  obtain ⟨r, hr, hp⟩ := Option.map_eq_some_iff.mp (hall i h)
  exact ⟨r, hr, hp.symm⟩

theorem exists_entry (r : Routine) :
    ∃ i ∈ standard.entries, Routine.ofName? i.routine = some r := by
  have hall : ∀ r ∈ Routine.all, ∃ i ∈ Standard.instructions,
      Routine.ofName? i.routine = some r := by decide +kernel
  rw [entries_standard]
  exact hall r (Routine.mem_all r)

/-- Each has a pattern of its own. -/
theorem nodup_standard : (Standard.instructions.map (·.pattern)).Nodup := by decide +kernel

theorem standard_fixed : standard.Fixed := by
  have hall : ∀ i ∈ Standard.instructions, i.pattern.first.isFixed = true := by decide +kernel
  intro i hi
  rw [entries_standard] at hi
  exact hall i hi

/-- The word is one for this routine. -/
def Decodes (w : Int) (r : Routine) : Prop :=
  ∃ i, standard.lookup w = some i ∧ Routine.ofName? i.routine = some r

variable {w : Int} {r : Routine}

/-- The table finds the most specific pattern that accepts a word. -/
theorem decodes_iff : Decodes w r ↔ r.pattern.accepts w = true ∧
    ∀ s : Routine, s.pattern.accepts w = true → s.pattern.specificity ≤ r.pattern.specificity := by
  constructor
  · intro h
    obtain ⟨i, hl, hr⟩ := h
    obtain ⟨hi, ha⟩ := standard_grouped.mem_of_lookup hl
    obtain ⟨r', hr', hp⟩ := exists_routine hi
    obtain rfl : r' = r := Option.some.inj (hr'.symm.trans hr)
    rw [← hp]
    refine ⟨ha, fun s hs => ?_⟩
    obtain ⟨j, hj, hsj⟩ := exists_entry s
    obtain ⟨s', hs', hp'⟩ := exists_routine hj
    obtain rfl : s' = s := Option.some.inj (hs'.symm.trans hsj)
    have haj : j.accepts w = true := by rw [← hp'] at hs; exact hs
    rw [← hp']
    exact standard_grouped.specificity_le standard_fixed hl hj haj
  · intro h
    obtain ⟨ha, hmax⟩ := h
    obtain ⟨j, hj, hrj⟩ := exists_entry r
    obtain ⟨r', hr', hp⟩ := exists_routine hj
    obtain rfl : r' = r := Option.some.inj (hr'.symm.trans hrj)
    have haj : j.accepts w = true := by rw [← hp] at ha; exact ha
    cases hl : standard.lookup w with
    | none =>
      have := (standard_grouped.lookup_eq_none standard_fixed).mp hl j hj
      rw [haj] at this
      cases this
    | some i =>
      obtain ⟨hi, hai⟩ := standard_grouped.mem_of_lookup hl
      obtain ⟨s, hs, hps⟩ := exists_routine hi
      have hle : r'.pattern.specificity ≤ s.pattern.specificity := by
        have := standard_grouped.specificity_le standard_fixed hl hj haj
        rwa [Instruction.specificity, Instruction.specificity, hp, hps] at this
      have hge : s.pattern.specificity ≤ r'.pattern.specificity := by
        refine hmax s ?_
        rw [← hps]
        exact hai
      -- two routines with patterns as specific as each other exclude each other
      by_cases he : s = r'
      · rw [he] at hs
        exact ⟨i, hl, hs⟩
      · have hc := Pattern.not_clashes (p := s.pattern) (by rw [← hps]; exact hai) ha
        exact absurd (Nat.le_antisymm hge hle) (Routine.specificity_ne_of_not_clashes he hc)

/-- But for the call of machine code the pattern alone decides. -/
theorem decodes_of_accepts (hr : r ≠ .machineCall) (ha : r.pattern.accepts w = true) :
    Decodes w r := by
  refine decodes_iff.mpr ⟨ha, fun s hs => ?_⟩
  by_cases hle : s.pattern.specificity ≤ r.pattern.specificity
  · exact hle
  · have hc := Pattern.not_clashes ha hs
    exact absurd (Routine.eq_machineCall_of_not_clashes (by omega) hc) hr

theorem Decodes.accepts (h : Decodes w r) : r.pattern.accepts w = true := (decodes_iff.mp h).1

theorem Decodes.unique {s : Routine} (h : Decodes w r) (h' : Decodes w s) : r = s := by
  obtain ⟨i, hl, hr⟩ := h
  obtain ⟨j, hl', hs⟩ := h'
  obtain rfl : i = j := Option.some.inj (hl.symm.trans hl')
  exact Option.some.inj (hr.symm.trans hs)

/-- For words of one routine the same entry is found. -/
theorem Decodes.lookup_eq {v : Int} (h : Decodes w r) (h' : Decodes v r) :
    standard.lookup w = standard.lookup v := by
  obtain ⟨i, hi, hri⟩ := h
  obtain ⟨j, hj, hrj⟩ := h'
  obtain ⟨him, _⟩ := standard_grouped.mem_of_lookup hi
  obtain ⟨hjm, _⟩ := standard_grouped.mem_of_lookup hj
  obtain ⟨r', hr', hip⟩ := exists_routine him
  obtain ⟨s, hs, hjp⟩ := exists_routine hjm
  obtain rfl : r = r' := Option.some.inj (hri.symm.trans hr')
  obtain rfl : r = s := Option.some.inj (hrj.symm.trans hs)
  rw [entries_standard] at him hjm
  rw [hi, hj, List.inj_on_of_nodup_map nodup_standard him hjm (hip.trans hjp.symm)]

theorem Decodes.accepts_iff {s : Routine} (hs : s ≠ .machineCall) (h : Decodes w r) :
    s.pattern.accepts w = true ↔ r = s := by
  constructor
  · intro ha
    exact h.unique (decodes_of_accepts hs ha)
  · intro he
    rw [← he]
    exact h.accepts

end InstructionTable

end Chip8
