import Chip8.Proofs.Machine.Boot
import Chip8.Proofs.Machine.Routine

/-! # The law of cycles

A cycle finds a word, an instruction and a routine at the program counter, and then does
what the routine does. It stops in one of four ways: the word cannot be read, no pattern
accepts it, no routine has the name that its instruction gives, or the routine refuses.
Only a routine can write, so a cycle that stops leaves the machine as it was. -/

namespace Chip8

namespace Machine

/-- The machine with the program counter behind the instruction. -/
def behind (m : Machine) : Machine := { m with cpu := { m.cpu with pc := (m.cpu.pc + 2) % 65536 } }

/-- One more instruction was carried out. -/
def counted (m : Machine) : Machine := { m with cycles := m.cycles + 1 }

/-- What stands at the program counter: a word, its instruction and its routine. -/
structure Finds (m : Machine) (w : Nat) (i : Instruction) (r : Routine) : Prop where
  word : m.bus.load16 m.cpu.pc = .ok w
  instruction : m.decode w = some i
  routine : Routine.ofName? i.routine = some r

/-- The ways in which a cycle stops. -/
inductive Stops (m : Machine) : Fault → Prop
  | word {e : MemoryFault} (h : m.bus.load16 m.cpu.pc = .error e) : Stops m (.memory e)
  | illegal {w : Nat} (h : m.bus.load16 m.cpu.pc = .ok w) (hd : m.decode w = none) :
    Stops m (.illegal m.cpu.pc w)
  | noRoutine {w : Nat} {i : Instruction} (h : m.bus.load16 m.cpu.pc = .ok w)
      (hd : m.decode w = some i) (hr : Routine.ofName? i.routine = none) :
    Stops m (.noRoutine i.routine)
  | refused {w : Nat} {i : Instruction} {r : Routine} {f : Fault} (h : m.Finds w i r)
      (hr : r.Refuses m.cpu.pc w m.behind f) : Stops m f

variable {m t : Machine} {i : Instruction} {f : Fault}

/-- Behind an instruction that could be read no address is cut off. -/
theorem pc_behind (lo : 0 ≤ m.cpu.pc) (hi : m.cpu.pc ≤ 0xFFE) :
    m.behind.cpu.pc = m.cpu.pc + 2 := by
  change (m.cpu.pc + 2) % 65536 = m.cpu.pc + 2
  omega

theorem Finds.unique {w w' : Nat} {i i' : Instruction} {r r' : Routine} (h : m.Finds w i r)
    (h' : m.Finds w' i' r') : w = w' ∧ i = i' ∧ r = r' := by
  obtain rfl : w = w' := Except.ok.inj (h.word.symm.trans h'.word)
  obtain rfl : i = i' := Option.some.inj (h.instruction.symm.trans h'.instruction)
  exact ⟨rfl, rfl, Option.some.inj (h.routine.symm.trans h'.routine)⟩

theorem fetch_eq_ok {w : Nat} : fetch m = .ok (w, i) t ↔
    m.bus.load16 m.cpu.pc = .ok w ∧ m.decode w = some i ∧ t = m := by
  constructor
  · intro h
    obtain ⟨_, _, hget, h⟩ := bind_eq_ok.mp h
    cases hget
    obtain ⟨w', u, hpeek, h⟩ := bind_eq_ok.mp h
    obtain ⟨hw, rfl⟩ := peek_eq_ok.mp hpeek
    obtain ⟨_, _, hget, h⟩ := bind_eq_ok.mp h
    cases hget
    cases hd : u.decode w' with
    | none => rw [hd] at h; cases h
    | some j => rw [hd] at h; cases h; exact ⟨hw, hd, rfl⟩
  · intro h
    obtain ⟨hw, hd, rfl⟩ := h
    refine bind_eq_ok.mpr ⟨t, t, rfl, bind_eq_ok.mpr ⟨w, t, peek_eq_ok.mpr ⟨hw, rfl⟩, ?_⟩⟩
    refine bind_eq_ok.mpr ⟨t, t, rfl, ?_⟩
    rw [hd]
    rfl

theorem fetch_eq_error : fetch m = .error f t ↔
    ((∃ e, m.bus.load16 m.cpu.pc = .error e ∧ f = .memory e) ∨
      ∃ w, m.bus.load16 m.cpu.pc = .ok w ∧ m.decode w = none ∧ f = .illegal m.cpu.pc w) ∧
      t = m := by
  constructor
  · intro h
    obtain hget | ⟨_, _, hget, h⟩ := bind_eq_error.mp h
    · cases hget
    cases hget
    obtain hpeek | ⟨w, u, hpeek, h⟩ := bind_eq_error.mp h
    · obtain ⟨e, he, rfl, rfl⟩ := peek_eq_error.mp hpeek
      exact ⟨.inl ⟨e, he, rfl⟩, rfl⟩
    obtain ⟨hw, rfl⟩ := peek_eq_ok.mp hpeek
    obtain hget | ⟨_, _, hget, h⟩ := bind_eq_error.mp h
    · cases hget
    cases hget
    cases hd : u.decode w with
    | none => rw [hd] at h; cases h; exact ⟨.inr ⟨w, hw, hd, rfl⟩, rfl⟩
    | some j => rw [hd] at h; cases h
  · intro h
    rcases h with ⟨⟨e, he, rfl⟩ | ⟨w, hw, hd, rfl⟩, rfl⟩
    · exact bind_eq_error.mpr (.inr ⟨t, t, rfl, bind_eq_error.mpr
        (.inl (peek_eq_error.mpr ⟨e, he, rfl, rfl⟩))⟩)
    · refine bind_eq_error.mpr (.inr ⟨t, t, rfl, bind_eq_error.mpr
        (.inr ⟨w, t, peek_eq_ok.mpr ⟨hw, rfl⟩, bind_eq_error.mpr (.inr ⟨t, t, rfl, ?_⟩)⟩)⟩)
      rw [hd]
      rfl

theorem runAt_of_ok {w : Nat} {r : Routine} {u : Machine}
    (h : r.run m.cpu.pc w m.behind = .ok () u) : runAt m.cpu.pc w r m = .ok () u.counted := by
  unfold runAt
  rw [show r.run m.cpu.pc w { m with cpu := { m.cpu with pc := (m.cpu.pc + 2) % 65536 } } = _ from h]
  rfl

theorem runAt_of_error {w : Nat} {r : Routine} {u : Machine}
    (h : r.run m.cpu.pc w m.behind = .error f u) :
    runAt m.cpu.pc w r m = .error f { u with cpu := { u.cpu with pc := m.cpu.pc } } := by
  unfold runAt
  rw [show r.run m.cpu.pc w { m with cpu := { m.cpu with pc := (m.cpu.pc + 2) % 65536 } } = _ from h]

theorem runAt_eq_ok {w : Nat} {r : Routine} : runAt m.cpu.pc w r m = .ok () t ↔
    ∃ u, r.run m.cpu.pc w m.behind = .ok () u ∧ t = u.counted := by
  constructor
  · intro h
    cases hu : r.run m.cpu.pc w m.behind with
    | ok _ u =>
      rw [runAt_of_ok hu] at h
      cases h
      exact ⟨u, rfl, rfl⟩
    | error e u =>
      rw [runAt_of_error hu] at h
      cases h
  · intro h
    obtain ⟨u, hu, rfl⟩ := h
    exact runAt_of_ok hu

/-- The one thing that a routine finds changed when it refuses, the program counter, is put
back. -/
theorem runAt_eq_error (hm : m.bus.Covered) {w : Nat} {r : Routine} :
    runAt m.cpu.pc w r m = .error f t ↔ r.Refuses m.cpu.pc w m.behind f ∧ t = m := by
  have hrun : ∀ {f u}, r.run m.cpu.pc w m.behind = .error f u ↔
      r.Refuses m.cpu.pc w m.behind f ∧ u = m.behind :=
    Routine.run_eq_error (show m.behind.bus.Covered from hm)
  constructor
  · intro h
    cases hu : r.run m.cpu.pc w m.behind with
    | ok _ u =>
      rw [runAt_of_ok hu] at h
      cases h
    | error e u =>
      rw [runAt_of_error hu] at h
      cases h
      obtain ⟨href, rfl⟩ := hrun.mp hu
      exact ⟨href, rfl⟩
  · intro h
    obtain ⟨href, rfl⟩ := h
    exact runAt_of_error (u := t.behind) (hrun.mpr ⟨href, rfl⟩)

/-- A cycle carries out what it finds. -/
theorem cycle_eq_ok : cycle m = .ok i t ↔
    ∃ w r u, m.Finds w i r ∧ r.run m.cpu.pc w m.behind = .ok () u ∧ t = u.counted := by
  constructor
  · intro h
    obtain ⟨_, _, hget, h⟩ := bind_eq_ok.mp h
    cases hget
    obtain ⟨⟨w, j⟩, u, hfetch, h⟩ := bind_eq_ok.mp h
    obtain ⟨hw, hd, rfl⟩ := fetch_eq_ok.mp hfetch
    cases hr : Routine.ofName? j.routine with
    | none => simp only [hr] at h; cases h
    | some r =>
      simp only [hr] at h
      obtain ⟨_, _, hrun, hret⟩ := bind_eq_ok.mp h
      cases hret
      obtain ⟨v, hv, rfl⟩ := runAt_eq_ok.mp hrun
      exact ⟨w, r, v, ⟨hw, hd, hr⟩, hv, rfl⟩
  · intro h
    obtain ⟨w, r, u, ⟨hw, hd, hr⟩, hrun, rfl⟩ := h
    refine bind_eq_ok.mpr ⟨m, m, rfl, bind_eq_ok.mpr
      ⟨(w, i), m, fetch_eq_ok.mpr ⟨hw, hd, rfl⟩, ?_⟩⟩
    simp only [hr]
    exact bind_eq_ok.mpr ⟨(), _, runAt_eq_ok.mpr ⟨u, hrun, rfl⟩, rfl⟩

/-- A cycle that stops does so before its routine runs, or in it. -/
theorem cycle_of_error (h : cycle m = .error f t) : m.Stops f ∧ t = m ∨
    ∃ w i r, m.Finds w i r ∧ runAt m.cpu.pc w r m = .error f t := by
  obtain hget | ⟨_, _, hget, h⟩ := bind_eq_error.mp h
  · cases hget
  cases hget
  obtain hfetch | ⟨⟨w, i⟩, u, hfetch, h⟩ := bind_eq_error.mp h
  · obtain ⟨⟨e, he, rfl⟩ | ⟨w, hw, hd, rfl⟩, rfl⟩ := fetch_eq_error.mp hfetch
    · exact .inl ⟨.word he, rfl⟩
    · exact .inl ⟨.illegal hw hd, rfl⟩
  obtain ⟨hw, hd, rfl⟩ := fetch_eq_ok.mp hfetch
  cases hr : Routine.ofName? i.routine with
  | none => simp only [hr] at h; cases h; exact .inl ⟨.noRoutine hw hd hr, rfl⟩
  | some r =>
    simp only [hr] at h
    obtain hrun | ⟨_, _, _, hret⟩ := bind_eq_error.mp h
    · exact .inr ⟨w, i, r, ⟨hw, hd, hr⟩, hrun⟩
    · cases hret

/-- Whatever the bus, a cycle that stops has changed nothing but what it stored. -/
theorem cycle_error_rest (h : cycle m = .error f t) : t = { m with bus := t.bus } := by
  obtain ⟨_, rfl⟩ | ⟨w, i, r, _, hrun⟩ := cycle_of_error h
  · rfl
  · cases hu : r.run m.cpu.pc w m.behind with
    | ok _ u =>
      rw [runAt_of_ok hu] at hrun
      cases hrun
    | error e u =>
      rw [runAt_of_error hu] at hrun
      cases hrun
      rw [Routine.run_error_rest hu]
      rfl

/-- A cycle that stops has changed nothing. -/
theorem cycle_eq_error (hm : m.bus.Covered) : cycle m = .error f t ↔ m.Stops f ∧ t = m := by
  constructor
  · intro h
    obtain hs | ⟨w, i, r, hf, hrun⟩ := cycle_of_error h
    · exact hs
    · obtain ⟨href, rfl⟩ := (runAt_eq_error hm).mp hrun
      exact ⟨.refused hf href, rfl⟩
  · intro h
    obtain ⟨hs, rfl⟩ := h
    have found {w : Nat} {i : Instruction} (hw : t.bus.load16 t.cpu.pc = .ok w)
        (hd : t.decode w = some i) := fetch_eq_ok.mpr ⟨hw, hd, rfl⟩
    refine bind_eq_error.mpr (.inr ⟨t, t, rfl, bind_eq_error.mpr ?_⟩)
    cases hs with
    | word h => exact .inl (fetch_eq_error.mpr ⟨.inl ⟨_, h, rfl⟩, rfl⟩)
    | illegal h hd => exact .inl (fetch_eq_error.mpr ⟨.inr ⟨_, h, hd, rfl⟩, rfl⟩)
    | noRoutine h hd hr =>
      refine .inr ⟨_, t, found h hd, ?_⟩
      simp only [hr]
      rfl
    | refused hf hr =>
      refine .inr ⟨_, t, found hf.word hf.instruction, ?_⟩
      simp only [hf.routine]
      exact bind_eq_error.mpr (.inl ((runAt_eq_error hm).mpr ⟨hr, rfl⟩))

/-! ## Cycles that stop -/

/-- A cycle that stops leaves every part of the machine as it was, so it stops again, and
in the same way, whenever it is repeated. -/
theorem cycle_unchanged_of_error (hm : m.Wired) (h : cycle m = .error f t) :
    t = m ∧ cycle t = .error f t := by
  obtain ⟨hs, rfl⟩ := (cycle_eq_error hm.standard.covered).mp h
  exact ⟨rfl, h⟩

/-- Sixteen return addresses. -/
def fullStack : CallStack := ⟨16, Array.replicate 16 0x202, by simp⟩

/-- A machine that is about to carry out two bytes of the font, which are a call, with its
stack full. -/
def stuck : Machine := { bare with cpu := { pc := 5 }, stack := fullStack }

theorem stuck_wired : stuck.Wired := ⟨{}, bare, create_bare, rfl⟩

theorem stuck_finds : ∃ i, stuck.Finds 0x2060 i .call := by
  have high := Bus.blankBus_fonted.load8 (a := 5) (by decide)
  have low := Bus.blankBus_fonted.load8 (a := 6) (by decide)
  have hw : blankBus.load16 (5 : Nat) = .ok 0x2060 := by
    rw [Bus.load16_of_load8 high low]
    rfl
  have hd : (InstructionTable.standard.lookup 0x2060).bind (Routine.ofName? ·.routine) =
      some .call := by decide +kernel
  obtain ⟨i, hi, hr⟩ := Option.bind_eq_some_iff.mp hd
  exact ⟨i, hw, hi, hr⟩

theorem stuck_unchanged : stuck.Wired ∧
    ∃ t, cycle stuck = .error (.stack (.overflow 7 16)) t ∧
      t = stuck ∧ cycle t = .error (.stack (.overflow 7 16)) t := by
  obtain ⟨i, hi⟩ := stuck_finds
  have h : cycle stuck = .error (.stack (.overflow 7 16)) stuck :=
    (cycle_eq_error stuck_wired.standard.covered).mpr ⟨.refused hi ⟨rfl, rfl⟩, rfl⟩
  exact ⟨stuck_wired, stuck, h, cycle_unchanged_of_error stuck_wired h⟩

end Machine

end Chip8
