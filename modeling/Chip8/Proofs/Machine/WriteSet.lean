import Chip8.Proofs.Machine.FaultDomain
import Chip8.Proofs.Memory.Store

/-! # Which instructions write what

For each part of a machine there are a few instructions that may write it, and a word says
which bytes and which registers. Whatever is different behind a cycle was written by one of
these instructions, in the range that belongs to it. -/

namespace Chip8

/-- The word is one that these patterns stand for. -/
def Pattern.AnyAccepts (ps : List Pattern) (w : Nat) : Prop := ∃ p ∈ ps, p.accepts w = true

namespace Routine

open Machine

variable {r : Routine} {pc : Int} {w : Nat} {m t : Machine}

/-! ## Parts of the machine -/

/-- The patterns of the routines that write a part. -/
def Part.patterns (p : Part) : List Pattern :=
  (all.filter fun r => decide (p ∈ r.writes)).map pattern

theorem anyAccepts_of_mem {rs : List Routine} (ha : r.pattern.accepts w = true) (hr : r ∈ rs) :
    Pattern.AnyAccepts (rs.map pattern) w :=
  ⟨r.pattern, List.mem_map_of_mem hr, ha⟩

/-- A part that is different was written by an instruction that writes it. -/
theorem anyAccepts_of_changed {p : Part} (ha : r.pattern.accepts w = true)
    (h : run r pc w m = .ok () t) (hne : ¬ p.Same m t) : Pattern.AnyAccepts p.patterns w := by
  refine anyAccepts_of_mem ha (List.mem_filter.mpr ⟨mem_all r, decide_eq_true ?_⟩)
  refine Decidable.byContradiction fun hp => ?_
  exact hne (run_same h hp)

/-! ## The index -/

theorem index_of_changed (h : run r pc w m = .ok () t) (hne : t.cpu.i ≠ m.cpu.i) :
    r ∈ [loadIndex, addIndex, loadGlyph] ∨
      m.advances = true ∧ r ∈ [storeRegisters, loadRegisters] := by
  cases r with
  | loadIndex | addIndex | loadGlyph => exact .inl (by decide)
  | storeRegisters =>
    obtain ⟨b, _, hadv⟩ := run_storeRegisters.mp h
    cases (advance_eq _ _).symm.trans hadv
    exact .inr ⟨Decidable.byContradiction fun ha => hne (if_neg ha), by decide⟩
  | loadRegisters =>
    obtain ⟨bs, _, hadv⟩ := run_loadRegisters.mp h
    cases (advance_eq _ _).symm.trans hadv
    exact .inr ⟨Decidable.byContradiction fun ha => hne (if_neg ha), by decide⟩
  | _ => exact absurd (run_same (p := .index) h (by decide)) hne

/-! ## Registers -/

/-- The registers that a routine may change. -/
def Targets (o : Operands) (k : Nibble) : Routine → Prop
  | loadRegisters => k.val ≤ o.x.val
  | draw => k = flagRegister
  | add | subtract | shiftRight | subtractFrom | shiftLeft => k = o.x ∨ k = flagRegister
  | loadImmediate | addImmediate | copy | or | and | xor | random | readDelay => k = o.x
  | _ => False

theorem eq_of_setAt {v : Vector UInt8 16} {x k : Nibble} {b : UInt8}
    (hne : (setAt v x b).get k ≠ v.get k) : k = x := by
  rw [get_setAt] at hne
  exact Decidable.byContradiction fun h => hne (if_neg h)

theorem eq_of_setAt_setAt {v : Vector UInt8 16} {x y k : Nibble} {b c : UInt8}
    (hne : (setAt (setAt v x b) y c).get k ≠ v.get k) : k = x ∨ k = y := by
  rw [get_setAt] at hne
  by_cases h : k = y
  · exact .inr h
  · rw [if_neg h] at hne
    exact .inl (eq_of_setAt hne)

/-- The registers from `Vj` on get the bytes as far as these go. -/
theorem get_fillRegisters_eq (bs : List UInt8) (j : Nat) (v : Vector UInt8 16) (k : Nibble) :
    (fillRegisters j bs v).get k =
      if j ≤ k.val then bs.getD (k.val - j) (v.get k) else v.get k := by
  induction bs generalizing j v with
  | nil => simp [fillRegisters]
  | cons b bs ih =>
    have hput : (v.setIfInBounds j b).get k = if j = k.val then b else v.get k :=
      Vector.getElem_setIfInBounds k.isLt
    rw [fillRegisters, ih, hput]
    by_cases he : j = k.val
    · rw [if_neg (by omega), if_pos he, if_pos (by omega), he, Nat.sub_self, List.getD_cons_zero]
    · by_cases hlt : j ≤ k.val
      · rw [if_neg he, if_pos (by omega), if_pos hlt,
          show k.val - j = k.val - (j + 1) + 1 by omega, List.getD_cons_succ]
      · rw [if_neg he, if_neg (by omega), if_neg hlt]

theorem get_fillRegisters {bs : List UInt8} {j : Nat} {v : Vector UInt8 16} {k : Nibble}
    (hk : j + bs.length ≤ k.val) : (fillRegisters j bs v).get k = v.get k := by
  rw [get_fillRegisters_eq, if_pos (by omega), List.getD_eq_getElem?_getD,
    List.getElem?_eq_none (by omega), Option.getD_none]

theorem targets_of_changed (h : run r pc w m = .ok () t) {k : Nibble}
    (hne : t.cpu.v.get k ≠ m.cpu.v.get k) : r.Targets (Operands.ofWord w) k := by
  have same (hp : Part.registers ∉ r.writes) : False :=
    hne (congrArg (·.get k) (run_same (p := .registers) h hp))
  cases r with
  | loadRegisters =>
    obtain ⟨bs, hbs, hadv⟩ := run_loadRegisters.mp h
    cases (advance_eq _ _).symm.trans hadv
    have hlen := Bus.length_loadBlock (n := (Operands.ofWord w).x.val + 1) hbs
    refine Nat.le_of_not_lt fun hlt => hne (get_fillRegisters ?_)
    omega
  | draw =>
    obtain ⟨rows, _, rfl⟩ := run_draw.mp h
    exact eq_of_setAt hne
  | add | subtract | shiftRight | subtractFrom | shiftLeft =>
    cases h
    exact eq_of_setAt_setAt hne
  | loadImmediate | addImmediate | copy | or | and | xor | random | readDelay =>
    cases h
    exact eq_of_setAt hne
  | _ => exact same (by decide)

/-! ## Memory -/

theorem range_of_changed (hm : m.bus.Standard) (h : run r pc w m = .ok () t) {a : Int}
    (hne : t.bus.load8 a ≠ m.bus.load8 a) :
    0x50 ≤ a ∧ m.cpu.i ≤ a ∧ (r = storeDecimal ∧ a ≤ m.cpu.i + 2 ∨
      r = storeRegisters ∧ a ≤ m.cpu.i + (Operands.ofWord w).x.val) := by
  cases r with
  | storeDecimal =>
    obtain ⟨b, hb, rfl⟩ := run_storeDecimal.mp h
    have hlen : (decimalDigits (m.cpu.v.get (Operands.ofWord w).x)).length = 3 := rfl
    have hdata := List.ne_nil_of_length_pos (Nat.lt_of_lt_of_eq (Nat.succ_pos _) hlen.symm)
    obtain ⟨hfont, lo, hi⟩ := hm.changed_of_storeBlock hdata hb hne
    exact ⟨hfont, lo, .inl ⟨rfl, by omega⟩⟩
  | storeRegisters =>
    obtain ⟨b, hb, hadv⟩ := run_storeRegisters.mp h
    cases (advance_eq _ _).symm.trans hadv
    obtain ⟨hlen, hdata⟩ :=
      m.length_map_registersTo (Operands.ofWord w).x fun b => (b.toNat : Int)
    obtain ⟨hfont, lo, hi⟩ := hm.changed_of_storeBlock hdata hb hne
    exact ⟨hfont, lo, .inr ⟨rfl, by omega⟩⟩
  | _ => exact absurd (congrArg (·.load8 a) (run_same (p := .memory) h (by decide))) hne

end Routine

namespace Machine

open Pattern (AnyAccepts)

/-- What may be different behind a cycle that carried out the word. -/
structure WritesWithin (w : Nat) (m t : Machine) : Prop where
  memory : t.bus ≠ m.bus → AnyAccepts [⟨0xF, .x, 3, 3⟩, ⟨0xF, .x, 5, 5⟩] w
  bytes : ∀ a, t.bus.load8 a ≠ m.bus.load8 a → 0x50 ≤ a ∧ m.cpu.i ≤ a ∧
    (AnyAccepts [⟨0xF, .x, 3, 3⟩] w ∧ a ≤ m.cpu.i + 2 ∨
      AnyAccepts [⟨0xF, .x, 5, 5⟩] w ∧ a ≤ m.cpu.i + (Operands.ofWord w).x.val)
  display : t.display ≠ m.display → AnyAccepts [⟨0, 0, 0xE, 0⟩, ⟨0xD, .x, .y, .n⟩] w
  stack : t.stack ≠ m.stack → AnyAccepts [⟨0, 0, 0xE, 0xE⟩, ⟨2, .n, .n, .n⟩] w
  delay : t.cpu.delay ≠ m.cpu.delay → AnyAccepts [⟨0xF, .x, 1, 5⟩] w
  sound : t.cpu.sound ≠ m.cpu.sound → AnyAccepts [⟨0xF, .x, 1, 8⟩] w
  index : t.cpu.i ≠ m.cpu.i →
    AnyAccepts [⟨0xA, .n, .n, .n⟩, ⟨0xF, .x, 1, 0xE⟩, ⟨0xF, .x, 2, 9⟩] w ∨
      m.advances = true ∧ AnyAccepts [⟨0xF, .x, 5, 5⟩, ⟨0xF, .x, 6, 5⟩] w
  random : t.random ≠ m.random → AnyAccepts [⟨0xC, .x, .n, .n⟩] w
  keypad : t.keypad = m.keypad
  registers : ∀ k, t.cpu.v.get k ≠ m.cpu.v.get k →
    AnyAccepts [⟨0xF, .x, 6, 5⟩] w ∧ k.val ≤ (Operands.ofWord w).x.val ∨
    AnyAccepts [⟨0xD, .x, .y, .n⟩] w ∧ k = flagRegister ∨
    AnyAccepts [⟨8, .x, .y, 4⟩, ⟨8, .x, .y, 5⟩, ⟨8, .x, .y, 6⟩, ⟨8, .x, .y, 7⟩, ⟨8, .x, .y, 0xE⟩] w ∧
      (k = (Operands.ofWord w).x ∨ k = flagRegister) ∨
    AnyAccepts [⟨6, .x, .n, .n⟩, ⟨7, .x, .n, .n⟩, ⟨8, .x, .y, 0⟩, ⟨8, .x, .y, 1⟩, ⟨8, .x, .y, 2⟩,
      ⟨8, .x, .y, 3⟩, ⟨0xC, .x, .n, .n⟩, ⟨0xF, .x, 0, 7⟩] w ∧ k = (Operands.ofWord w).x

/-- Behind a cycle that went through nothing is different but what its word lets it write. -/
theorem cycle_writesWithin {m t : Machine} {i : Instruction} (hm : m.Wired)
    (ht : m.table = .standard) (h : cycle m = .ok i t) :
    ∃ w, m.bus.load16 m.cpu.pc = .ok w ∧ WritesWithin w m t := by
  obtain ⟨w, r, u, hf, hrun, rfl⟩ := cycle_eq_ok.mp h
  have ha := (hf.decodes ht).accepts
  have part {p : Routine.Part} (hne : ¬ p.Same m.behind u) : AnyAccepts p.patterns w :=
    Routine.anyAccepts_of_changed ha hrun hne
  have named (rs : List Routine) (hr : r ∈ rs) : AnyAccepts (rs.map Routine.pattern) w :=
    Routine.anyAccepts_of_mem ha hr
  refine ⟨w, hf.word,
    { memory := part (p := .memory)
      bytes := fun a hne => ?_
      display := part (p := .display)
      stack := part (p := .stack)
      delay := part (p := .delay)
      sound := part (p := .sound)
      index := fun hne => ?_
      random := part (p := .random)
      keypad := by rw [Routine.run_rest hrun]; rfl
      registers := fun k hne => ?_ }⟩
  · obtain ⟨hfont, lo, ⟨rfl, hi⟩ | ⟨rfl, hi⟩⟩ :=
      Routine.range_of_changed (m := m.behind) hm.standard hrun hne
    · exact ⟨hfont, lo, .inl ⟨named [.storeDecimal] (by decide), hi⟩⟩
    · exact ⟨hfont, lo, .inr ⟨named [.storeRegisters] (by decide), hi⟩⟩
  · rcases Routine.index_of_changed hrun hne with hr | ⟨hadv, hr⟩
    · exact .inl (named _ hr)
    · exact .inr ⟨hadv, named _ hr⟩
  · have htarget := Routine.targets_of_changed hrun hne
    cases r with
    | loadRegisters => exact .inl ⟨named [.loadRegisters] (by decide), htarget⟩
    | draw => exact .inr (.inl ⟨named [.draw] (by decide), htarget⟩)
    | add | subtract | shiftRight | subtractFrom | shiftLeft =>
      exact .inr (.inr (.inl ⟨named
        [.add, .subtract, .shiftRight, .subtractFrom, .shiftLeft] (by decide), htarget⟩))
    | loadImmediate | addImmediate | copy | or | and | xor | random | readDelay =>
      exact .inr (.inr (.inr ⟨named [.loadImmediate, .addImmediate, .copy, .or, .and, .xor, .random,
        .readDelay] (by decide), htarget⟩))
    | _ => exact htarget.elim

/-- A machine that is about to store `V0` and `V1` where programs begin, over the instruction
itself, and to move the index behind them. -/
def dumping : Machine :=
  { bare with
    bus := wordBus 0xF1 0x55
    advances := true
    cpu := { v := setAt (Vector.replicate 16 0) (nibbleOf 1) 7, i := 0x200 } }

theorem dumping_cycle : ∃ i b, Bus.storeBlock 0x200 [0, 7] dumping.bus = .ok () b ∧
    cycle dumping = .ok i { dumping with
      bus := b, cpu := { dumping.cpu with i := 0x202, pc := 0x202 }, cycles := 1 } := by
  have hd : InstructionTable.Decodes 0xF155 .storeRegisters :=
    InstructionTable.decodes_of_accepts (by decide) (by decide)
  obtain ⟨i, hf⟩ := finds_of_decodes (m := dumping) (w := 0xF155) rfl (load16_wordBus 0xF1 0x55) hd
  have hdata : ([0, 7] : List Int) ≠ [] := by decide
  obtain ⟨b, hb⟩ : ∃ b, Bus.storeBlock 0x200 [0, 7] dumping.bus = .ok () b :=
    ((wordBus_standard 0xF1 0x55).storeBlock_eq_ok hdata).mpr ⟨by decide, by decide⟩
  have hrun : Routine.storeRegisters.run dumping.cpu.pc 0xF155 dumping.behind =
      .ok () { dumping with bus := b, cpu := { dumping.cpu with i := 0x202, pc := 0x202 } } :=
    Routine.run_storeRegisters.mpr ⟨b, hb, advance_eq _ _⟩
  exact ⟨i, b, hb, cycle_eq_ok.mpr ⟨_, _, _, hf, hrun, rfl⟩⟩

theorem dumping_writesWithin : dumping.Wired ∧ dumping.table = .standard ∧
    ∃ i t, cycle dumping = .ok i t ∧ t.bus.load8 0x201 = .ok 7 ∧ t.cpu.i = 0x202 ∧
      ∃ w, dumping.bus.load16 dumping.cpu.pc = .ok w ∧ WritesWithin w dumping t := by
  have hm : dumping.Wired := ⟨{}, bare, create_bare, wordBus_layout 0xF1 0x55⟩
  obtain ⟨i, b, hb, hc⟩ := dumping_cycle
  have hseven : b.load8 0x201 = .ok 7 :=
    (Bus.load8_storeBlock hm.standard.covered hb 0x201).trans (if_pos ⟨by decide, by decide⟩)
  exact ⟨hm, rfl, i, _, hc, hseven, rfl, cycle_writesWithin hm rfl hc⟩

end Machine

end Chip8
