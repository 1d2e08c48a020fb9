import Chip8.Proofs.Machine.WriteSet

/-! # Where the program goes

Behind a cycle the program counter stands where the word that was carried out sends it: at the
address that a jump or a call names, at the address that a return takes off the stack, behind the
next word if a skip finds its test met, and at the next word in all other cases. The word is read
before anything is done, so it does not matter what the instruction writes over itself. Skips and
jumps do nothing else, and calls and returns nothing but to move the stack. -/

namespace Chip8

open Pattern (AnyAccepts)

namespace Machine

/-- The words that may pass over the next one, with the test that decides it. -/
def skips (m : Machine) (o : Operands) : List (Pattern × Bool) :=
  let x := m.cpu.v.get o.x
  let y := m.cpu.v.get o.y
  [(⟨3, .x, .n, .n⟩, decide (x.toNat = o.nn)),
    (⟨4, .x, .n, .n⟩, decide (x.toNat ≠ o.nn)),
    (⟨5, .x, .y, 0⟩, decide (x = y)),
    (⟨9, .x, .y, 0⟩, decide (x ≠ y)),
    (⟨0xE, .x, 9, 0xE⟩, m.keypad.isDown (nibbleOf x.toNat)),
    (⟨0xE, .x, 0xA, 1⟩, !m.keypad.isDown (nibbleOf x.toNat))]

/-- What the word `w` makes of the program counter, and what it leaves alone. -/
structure Follows (w : Nat) (m t : Machine) : Prop where
  jump : AnyAccepts [⟨1, .n, .n, .n⟩, ⟨2, .n, .n, .n⟩] w → t.cpu.pc = (Operands.ofWord w).nnn
  offset : AnyAccepts [⟨0xB, .n, .n, .n⟩] w →
    t.cpu.pc = (m.cpu.v.get 0).toNat + (Operands.ofWord w).nnn
  back : AnyAccepts [⟨0, 0, 0xE, 0xE⟩] w →
    ∃ a, m.stack.toList = t.stack.toList ++ [a] ∧ t.cpu.pc = a.toNat
  skip : ∀ p test, (p, test) ∈ m.skips (Operands.ofWord w) → p.accepts w = true →
    t.cpu.pc = m.cpu.pc + if test then 4 else 2
  next : ¬ AnyAccepts ([⟨1, .n, .n, .n⟩, ⟨2, .n, .n, .n⟩, ⟨0xB, .n, .n, .n⟩, ⟨0, 0, 0xE, 0xE⟩]
    ++ (m.skips (Operands.ofWord w)).map Prod.fst) w → t.cpu.pc = m.cpu.pc + 2
  counterOnly : AnyAccepts ([⟨1, .n, .n, .n⟩, ⟨0xB, .n, .n, .n⟩]
    ++ (m.skips (Operands.ofWord w)).map Prod.fst) w →
    t = { m with cpu := { m.cpu with pc := t.cpu.pc }, cycles := m.cycles + 1 }
  stackOnly : AnyAccepts [⟨2, .n, .n, .n⟩, ⟨0, 0, 0xE, 0xE⟩] w →
    t = { m with cpu := { m.cpu with pc := t.cpu.pc }, stack := t.stack, cycles := m.cycles + 1 }
  call : AnyAccepts [⟨2, .n, .n, .n⟩] w →
    t.stack.toList = m.stack.toList ++ [wordOf (m.cpu.pc + 2)]

end Machine

namespace Routine

open Machine
open InstructionTable (Decodes)

variable {r : Routine} {w : Nat} {m t : Machine}

/-- But for the call of machine code the pattern tells the routine. -/
theorem anyAccepts_iff {rs : List Routine} (hd : Decodes w r) (hrs : machineCall ∉ rs) :
    AnyAccepts (rs.map pattern) w ↔ r ∈ rs := by
  constructor
  · intro h
    obtain ⟨p, hp, ha⟩ := h
    obtain ⟨s, hs, rfl⟩ := List.mem_map.mp hp
    have hne : s ≠ machineCall := fun he => hrs (he ▸ hs)
    exact (hd.accepts_iff hne).mp ha ▸ hs
  · exact anyAccepts_of_mem hd.accepts

/-- The routines that may pass over the next word. -/
def skipping : List Routine :=
  [skipEqualImmediate, skipUnequalImmediate, skipEqual, skipUnequal, skipPressed, skipReleased]

theorem exists_of_mem_skips {o : Operands} {p : Pattern} {test : Bool} (h : (p, test) ∈ m.skips o) :
    ∃ s ∈ skipping, s.pattern = p ∧ s.skipTest? o m = some test := by
  simp only [skips, List.mem_cons, List.not_mem_nil, or_false, Prod.mk.injEq] at h
  rcases h with ⟨rfl, rfl⟩ | ⟨rfl, rfl⟩ | ⟨rfl, rfl⟩ | ⟨rfl, rfl⟩ | ⟨rfl, rfl⟩ | ⟨rfl, rfl⟩
  · exact ⟨skipEqualImmediate, by decide, rfl, rfl⟩
  · exact ⟨skipUnequalImmediate, by decide, rfl, by simp [skipTest?, bne, beq_eq_decide]⟩
  · exact ⟨skipEqual, by decide, rfl, rfl⟩
  · exact ⟨skipUnequal, by decide, rfl, by simp [skipTest?, bne, beq_eq_decide]⟩
  · exact ⟨skipPressed, by decide, rfl, rfl⟩
  · exact ⟨skipReleased, by decide, rfl, rfl⟩

/-- Only jumps, calls, returns and skips say where to go on. -/
theorem mem_of_counter_mem_writes (h : Part.counter ∈ r.writes) :
    r ∈ [jump, call, jumpOffset, returnFrom] ++ skipping := by
  cases r <;> first | decide | exact absurd h (by decide)

/-! ## What the routines do to the counter -/

theorem counter_of_jump (h : run r pc w m = .ok () t) (hr : r ∈ [jump, call]) :
    t.cpu.pc = (Operands.ofWord w).nnn := by
  simp only [List.mem_cons, List.not_mem_nil, or_false] at hr
  rcases hr with rfl | rfl
  · cases h
    rfl
  · obtain ⟨s, _, rfl⟩ := run_call.mp h
    rfl

/-- The sum is too small to be cut. -/
theorem counter_of_jumpOffset (h : run jumpOffset pc w m = .ok () t) :
    t.cpu.pc = (m.cpu.v.get 0).toNat + (Operands.ofWord w).nnn := by
  have hv := (m.cpu.v.get 0).toNat_lt
  have hn := (Operands.ofWord w).nnn_lt
  cases h
  change (((m.cpu.v.get 0).toNat + (Operands.ofWord w).nnn : Nat) : Int) % 65536 = _
  omega

theorem counter_of_returnFrom (h : run returnFrom pc w m = .ok () t) :
    ∃ a, m.stack.toList = t.stack.toList ++ [a] ∧ t.cpu.pc = a.toNat := by
  obtain ⟨a, s, hp, rfl⟩ := run_returnFrom.mp h
  exact ⟨a, (CallStack.pop_of_ok hp).1, rfl⟩

theorem stack_of_call (h : run call pc w m = .ok () t) :
    t.stack.toList = m.stack.toList ++ [wordOf m.cpu.pc] := by
  obtain ⟨s, hp, rfl⟩ := run_call.mp h
  exact (CallStack.push_of_ok hp).2.1

/-! ## What they leave alone -/

theorem stack_of_stackOnly (h : run r pc w m = .ok () t) (hr : r ∈ [call, returnFrom]) :
    t = { m with cpu := { m.cpu with pc := t.cpu.pc }, stack := t.stack } := by
  simp only [List.mem_cons, List.not_mem_nil, or_false] at hr
  rcases hr with rfl | rfl
  · obtain ⟨s, _, rfl⟩ := run_call.mp h
    rfl
  · obtain ⟨a, s, _, rfl⟩ := run_returnFrom.mp h
    rfl

theorem exists_skipTest (hr : r ∈ skipping) (o : Operands) (m : Machine) :
    ∃ test, r.skipTest? o m = some test := by
  cases r <;> first | exact ⟨_, rfl⟩ | exact absurd hr (by decide)

theorem counter_of_counterOnly (h : run r pc w m = .ok () t)
    (hr : r ∈ [jump, jumpOffset] ++ skipping) :
    t = { m with cpu := { m.cpu with pc := t.cpu.pc } } := by
  rcases List.mem_append.mp hr with hr | hr
  · simp only [List.mem_cons, List.not_mem_nil, or_false] at hr
    rcases hr with rfl | rfl
    · cases h
      rfl
    · cases h
      rfl
  · obtain ⟨test, htest⟩ := exists_skipTest hr (Operands.ofWord w) m
    cases (run_skip htest).symm.trans h
    rfl

end Routine

namespace Machine

/-- With the counter behind the instruction, a skip that finds its test met adds two more. -/
theorem counter_of_skip {m t : Machine} {w : Nat} {r : Routine} {test : Bool} (lo : 0 ≤ m.cpu.pc)
    (hi : m.cpu.pc ≤ 0xFFE) (htest : r.skipTest? (Operands.ofWord w) m = some test)
    (h : r.run m.cpu.pc w m.behind = .ok () t) :
    t.cpu.pc = m.cpu.pc + if test then 4 else 2 := by
  cases (Routine.run_skip (m := m.behind) htest).symm.trans h
  change (if test then (m.behind.cpu.pc + 2) % 65536 else m.behind.cpu.pc) = _
  rw [pc_behind lo hi]
  cases test with
  | true =>
    rw [if_pos rfl, if_pos rfl]
    omega
  | false => rfl

/-- Behind a cycle that went through the program goes on where its word sends it. -/
theorem cycle_follows {m t : Machine} {i : Instruction} (hm : m.Wired) (ht : m.table = .standard)
    (h : cycle m = .ok i t) : ∃ w, m.bus.load16 m.cpu.pc = .ok w ∧ Follows w m t := by
  obtain ⟨w, r, u, hf, hrun, rfl⟩ := cycle_eq_ok.mp h
  have hd := hf.decodes ht
  obtain ⟨lo, hi⟩ := hm.standard.load16_eq_ok.mp ⟨w, hf.word⟩
  have hbehind := pc_behind lo hi
  have named (rs : List Routine) (hrs : .machineCall ∉ rs) :
      AnyAccepts (rs.map Routine.pattern) w ↔ r ∈ rs := Routine.anyAccepts_iff hd hrs
  have only {s : Routine} (hs : s ≠ .machineCall) (ha : AnyAccepts [s.pattern] w) : r = s :=
    List.mem_singleton.mp ((named [s] (List.mem_singleton.not.mpr hs.symm)).mp ha)
  refine ⟨w, hf.word,
    { jump := fun ha => ?_
      offset := fun ha => ?_
      back := fun ha => ?_
      skip := fun p test hp ha => ?_
      next := fun ha => ?_
      counterOnly := fun ha => ?_
      stackOnly := fun ha => ?_
      call := fun ha => ?_ }⟩
  · have hr := (named [.jump, .call] (by decide)).mp ha
    exact (Routine.counter_of_jump hrun hr :)
  · obtain rfl := only (s := .jumpOffset) (by decide) ha
    exact (Routine.counter_of_jumpOffset hrun :)
  · obtain rfl := only (s := .returnFrom) (by decide) ha
    exact (Routine.counter_of_returnFrom hrun :)
  · obtain ⟨s, hs, rfl, htest⟩ := Routine.exists_of_mem_skips hp
    have hne : s ≠ .machineCall := fun he => absurd (he ▸ hs) (by decide)
    obtain rfl := (hd.accepts_iff hne).mp ha
    exact (counter_of_skip lo hi htest hrun :)
  · have hc : Routine.Part.counter ∉ r.writes := by
      intro hc
      have hr := Routine.mem_of_counter_mem_writes hc
      exact ha ((named _ (by decide)).mpr hr)
    exact (Routine.run_same (p := .counter) hrun hc).trans hbehind
  · have hr := (named ([Routine.jump, Routine.jumpOffset] ++ Routine.skipping) (by decide)).mp ha
    rw [Routine.counter_of_counterOnly hrun hr]
    rfl
  · have hr := (named [.call, .returnFrom] (by decide)).mp ha
    rw [Routine.stack_of_stackOnly hrun hr]
    rfl
  · obtain rfl := only (s := .call) (by decide) ha
    rw [← hbehind]
    exact (Routine.stack_of_call hrun :)

/-- A machine that is about to ask for the key that the low nibble of `V0` names, which is down. -/
def pressing : Machine :=
  { bare with
    bus := wordBus 0xE0 0x9E
    cpu := { v := setAt (Vector.replicate 16 0) (nibbleOf 0) 0x1B }
    keypad := { keys := setAt (Vector.replicate 16 false) (nibbleOf 0xB) true } }

theorem cycle_follows_pressing : pressing.Wired ∧ pressing.table = .standard ∧
    ∃ i t, cycle pressing = .ok i t ∧ t.cpu.pc = 0x204 ∧
      t = { pressing with cpu := { pressing.cpu with pc := t.cpu.pc }, cycles := 1 } := by
  have hm : pressing.Wired := ⟨{}, bare, create_bare, wordBus_layout 0xE0 0x9E⟩
  have hw : pressing.bus.load16 pressing.cpu.pc = .ok 0xE09E := load16_wordBus 0xE0 0x9E
  have hd : InstructionTable.Decodes 0xE09E .skipPressed :=
    InstructionTable.decodes_of_accepts (by decide) (by decide)
  obtain ⟨i, hf⟩ := finds_of_decodes (m := pressing) (w := 0xE09E) rfl hw hd
  obtain ⟨t, hc⟩ : ∃ t, cycle pressing = .ok i t :=
    ⟨_, cycle_eq_ok.mpr ⟨_, _, _, hf, Routine.run_skip rfl, rfl⟩⟩
  obtain ⟨w, hw', hfollows⟩ := cycle_follows hm rfl hc
  obtain rfl := Except.ok.inj (hw'.symm.trans hw)
  have hskip : ((⟨0xE, .x, 9, 0xE⟩, true) : Pattern × Bool) ∈
      pressing.skips (Operands.ofWord (0xE09E : Nat)) := by decide
  have ha : (Pattern.mk 0xE .x 9 0xE).accepts (0xE09E : Nat) = true := by decide
  exact ⟨hm, rfl, i, t, hc, hfollows.skip _ _ hskip ha,
    hfollows.counterOnly ⟨_, List.mem_append_right _ (List.mem_map_of_mem hskip), ha⟩⟩

end Machine

end Chip8
