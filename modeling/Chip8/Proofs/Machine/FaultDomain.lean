import Chip8.Proofs.Instruction.Decode
import Chip8.Proofs.Machine.Cycle

/-! # Where cycles stop

With the standard map and the standard table it can be read off a word, the index and the
depth of the stack whether a cycle stops, and with what kind of fault. A block of bytes is
refused where it would leave memory or, if it is to be written, touch the font; a call is
refused on a full stack and a return on an empty one; everything else that the table knows
goes through, but for the wait for a key, which never does. -/

namespace Chip8

open InstructionTable (Decodes)

theorem Bus.load16_lt {m : Bus} {a : Int} {w : Nat} (h : m.load16 a = .ok w) : w < 65536 := by
  obtain ⟨high, _, h⟩ := except_bind_eq_ok.mp h
  obtain ⟨low, _, h⟩ := except_bind_eq_ok.mp h
  cases h
  exact wordFrom_lt high low

theorem Machine.length_registersTo (m : Machine) (x : Nibble) :
    (m.registersTo x).length = x.val + 1 := by
  have hx := x.isLt
  simp only [registersTo, List.length_take, Vector.length_toList]
  omega

/-- Registers that are stored are at least one. -/
theorem Machine.length_map_registersTo (m : Machine) (x : Nibble) (f : UInt8 → Int) :
    ((m.registersTo x).map f).length = x.val + 1 ∧ (m.registersTo x).map f ≠ [] := by
  have hlen : ((m.registersTo x).map f).length = x.val + 1 := by
    rw [List.length_map, m.length_registersTo]
  exact ⟨hlen, List.ne_nil_of_length_eq_add_one hlen⟩

namespace Routine

section Blocks

variable {pc : Int} {w : Nat} {m : Machine} (hm : m.bus.Standard)
include hm

theorem storeDecimal_refuses : (∃ e, storeDecimal.Refuses pc w m (.memory e)) ↔
    m.cpu.i < 0x50 ∨ 0xFFF < m.cpu.i + 2 := by
  have hstore : (∃ e t, Bus.storeBlock m.cpu.i
      (Machine.decimalDigits (m.cpu.v.get (Operands.ofWord w).x)) m.bus = .error e t) ↔
        m.cpu.i < 0x50 ∨ 0x1000 < m.cpu.i + (3 : Nat) :=
    hm.storeBlock_refused (List.cons_ne_nil _ _)
  constructor
  · intro h
    obtain ⟨_, e, t, _, h⟩ := h
    have := hstore.mp ⟨e, t, h⟩
    omega
  · intro h
    obtain ⟨e, t, ht⟩ := hstore.mpr (by omega)
    exact ⟨e, e, t, rfl, ht⟩

theorem storeRegisters_refuses : (∃ e, storeRegisters.Refuses pc w m (.memory e)) ↔
    m.cpu.i < 0x50 ∨ 0xFFF < m.cpu.i + (Operands.ofWord w).x.val := by
  obtain ⟨hlen, hne⟩ := m.length_map_registersTo (Operands.ofWord w).x fun b => (b.toNat : Int)
  have hstore : (∃ e t, Bus.storeBlock m.cpu.i _ m.bus = .error e t) ↔ _ :=
    hm.storeBlock_refused hne
  rw [hlen] at hstore
  constructor
  · intro h
    obtain ⟨_, e, t, _, h⟩ := h
    have := hstore.mp ⟨e, t, h⟩
    omega
  · intro h
    obtain ⟨e, t, ht⟩ := hstore.mpr (by omega)
    exact ⟨e, e, t, rfl, ht⟩

theorem loadRegisters_refuses (hi : 0 ≤ m.cpu.i) :
    (∃ e, loadRegisters.Refuses pc w m (.memory e)) ↔
      0xFFF < m.cpu.i + (Operands.ofWord w).x.val := by
  have hload : (∃ e, m.bus.loadBlock m.cpu.i ((Operands.ofWord w).x.val + 1 : Nat) = .error e) ↔ _ :=
    hm.loadBlock_refused
  constructor
  · intro h
    obtain ⟨_, e, _, h⟩ := h
    have := hload.mp ⟨e, h⟩
    omega
  · intro h
    obtain ⟨e, he⟩ := hload.mpr (by omega)
    exact ⟨e, e, rfl, he⟩

theorem draw_refuses (hi : 0 ≤ m.cpu.i) : (∃ e, draw.Refuses pc w m (.memory e)) ↔
    0x1000 < m.cpu.i + (Operands.ofWord w).n.val := by
  have hload : (∃ e, m.bus.loadBlock m.cpu.i (Operands.ofWord w).n.val = .error e) ↔ _ :=
    hm.loadBlock_refused
  constructor
  · intro h
    obtain ⟨_, e, _, h⟩ := h
    have := hload.mp ⟨e, h⟩
    omega
  · intro h
    obtain ⟨e, he⟩ := hload.mpr (by omega)
    exact ⟨e, e, rfl, he⟩

end Blocks

/-- A refusal is one of memory, one of the stack, or the wait for a key. -/
theorem kind_of_refuses {pc : Int} {w : Nat} {m : Machine} {f : Fault} {r : Routine}
    (h : r.Refuses pc w m f) :
    (∃ e, f = .memory e) ∨ (∃ e, f = .stack e) ∨ r = waitKey ∧ f = .unimplemented pc w := by
  cases r with
  | returnFrom | call => exact .inr (.inl ⟨_, h.2⟩)
  | storeDecimal | storeRegisters =>
    obtain ⟨e, _, rfl, _⟩ := h
    exact .inl ⟨e, rfl⟩
  | loadRegisters | draw =>
    obtain ⟨e, rfl, _⟩ := h
    exact .inl ⟨e, rfl⟩
  | waitKey => exact .inr (.inr ⟨rfl, h⟩)
  | _ => exact h.elim

end Routine

namespace Machine

/-! ## The four obstacles -/

/-- No entry of the table accepts the word. -/
def Unlisted (m : Machine) (w : Nat) : Prop := ∀ i ∈ m.table.entries, i.accepts w = false

/-- The word is FX0A. -/
def WaitsForKey (w : Nat) : Prop := w / 4096 = 0xF ∧ w % 256 = 0x0A

/-- The word is 00EE and the stack is empty, or it is 2NNN and the stack is full. -/
def StackBarred (m : Machine) (w : Nat) : Prop :=
  w = 0x00EE ∧ m.stack.depth = 0 ∨ w / 4096 = 2 ∧ m.stack.depth = 16

/-- The word is FX33, FX55, FX65 or DXYN and its block is out of place. -/
def BlockBarred (m : Machine) (w : Nat) : Prop :=
  w / 4096 = 0xF ∧ w % 256 = 0x33 ∧ (m.cpu.i < 0x50 ∨ 0xFFF < m.cpu.i + 2) ∨
  w / 4096 = 0xF ∧ w % 256 = 0x55 ∧ (m.cpu.i < 0x50 ∨ 0xFFF < m.cpu.i + (w / 256 % 16 : Nat)) ∨
  w / 4096 = 0xF ∧ w % 256 = 0x65 ∧ 0xFFF < m.cpu.i + (w / 256 % 16 : Nat) ∨
  w / 4096 = 0xD ∧ 0x1000 < m.cpu.i + (w % 16 : Nat)

section Obstacles

variable {m : Machine} {w : Nat}

theorem decode_standard (ht : m.table = .standard) :
    m.decode w = InstructionTable.standard.lookup w := by
  unfold decode
  rw [ht]

theorem unlisted_iff (ht : m.table = .standard) : m.Unlisted w ↔ m.decode w = none := by
  rw [decode_standard ht, InstructionTable.standard_grouped.lookup_eq_none
    InstructionTable.standard_fixed]
  unfold Unlisted
  rw [ht]

theorem waitsForKey_iff (hw : w < 65536) : WaitsForKey w ↔ Decodes w .waitKey := by
  have ha : Routine.waitKey.pattern.accepts w = true ↔ _ :=
    Routine.accepts_miscellaneous hw 0x0 0xA (by decide) (by decide)
  exact ⟨fun h => InstructionTable.decodes_of_accepts (by decide) (ha.mpr h),
    fun h => ha.mp h.accepts⟩

theorem stackBarred_iff (hw : w < 65536) (hc : m.stack.capacity = 16) : m.StackBarred w ↔
    ∃ r e, Decodes w r ∧ r.Refuses m.cpu.pc w m.behind (.stack e) := by
  constructor
  · intro h
    rcases h with ⟨h, hd⟩ | ⟨h, hd⟩
    · have ha := (Routine.accepts_returnFrom hw).mpr h
      exact ⟨_, _, InstructionTable.decodes_of_accepts (by decide) ha, hd, rfl⟩
    · have ha := (Routine.accepts_call hw).mpr h
      exact ⟨_, _, InstructionTable.decodes_of_accepts (by decide) ha, hd.trans hc.symm, rfl⟩
  · intro h
    obtain ⟨r, e, hd, hr⟩ := h
    cases r with
    | returnFrom => exact .inl ⟨(Routine.accepts_returnFrom hw).mp hd.accepts, hr.1⟩
    | call => exact .inr ⟨(Routine.accepts_call hw).mp hd.accepts, hr.1.trans hc⟩
    | storeDecimal | storeRegisters | loadRegisters | draw => simp [Routine.Refuses] at hr
    | waitKey => cases hr
    | _ => exact hr.elim

theorem blockBarred_iff (hw : w < 65536) (hm : m.bus.Standard) (hi : 0 ≤ m.cpu.i) :
    m.BlockBarred w ↔ ∃ r e, Decodes w r ∧ r.Refuses m.cpu.pc w m.behind (.memory e) := by
  have hb : m.behind.bus.Standard := hm
  have hx := Operands.val_x w
  have hn := Operands.val_n w
  have aDecimal : Routine.storeDecimal.pattern.accepts w = true ↔ _ :=
    Routine.accepts_miscellaneous hw 0x3 0x3 (by decide) (by decide)
  have aStore : Routine.storeRegisters.pattern.accepts w = true ↔ _ :=
    Routine.accepts_miscellaneous hw 0x5 0x5 (by decide) (by decide)
  have aLoad : Routine.loadRegisters.pattern.accepts w = true ↔ _ :=
    Routine.accepts_miscellaneous hw 0x6 0x5 (by decide) (by decide)
  constructor
  · intro h
    rcases h with ⟨h1, h2, h⟩ | ⟨h1, h2, h⟩ | ⟨h1, h2, h⟩ | ⟨h1, h⟩
    · obtain ⟨e, he⟩ := (Routine.storeDecimal_refuses hb).mpr h
      exact ⟨_, e, InstructionTable.decodes_of_accepts (by decide) (aDecimal.mpr ⟨h1, h2⟩), he⟩
    · obtain ⟨e, he⟩ := (Routine.storeRegisters_refuses (w := w) hb).mpr
        (show m.cpu.i < 0x50 ∨ 0xFFF < m.cpu.i + _ by omega)
      exact ⟨_, e, InstructionTable.decodes_of_accepts (by decide) (aStore.mpr ⟨h1, h2⟩), he⟩
    · obtain ⟨e, he⟩ := (Routine.loadRegisters_refuses (w := w) hb hi).mpr
        (show 0xFFF < m.cpu.i + _ by omega)
      exact ⟨_, e, InstructionTable.decodes_of_accepts (by decide) (aLoad.mpr ⟨h1, h2⟩), he⟩
    · obtain ⟨e, he⟩ := (Routine.draw_refuses (w := w) hb hi).mpr
        (show 0x1000 < m.cpu.i + _ by omega)
      have ha := (Routine.accepts_draw hw).mpr h1
      exact ⟨_, e, InstructionTable.decodes_of_accepts (by decide) ha, he⟩
  · intro h
    obtain ⟨r, e, hd, hr⟩ := h
    cases r with
    | storeDecimal =>
      obtain ⟨h1, h2⟩ := aDecimal.mp hd.accepts
      exact .inl ⟨h1, h2, (Routine.storeDecimal_refuses hb).mp ⟨e, hr⟩⟩
    | storeRegisters =>
      obtain ⟨h1, h2⟩ := aStore.mp hd.accepts
      have h : m.cpu.i < 0x50 ∨ 0xFFF < m.cpu.i + _ :=
        (Routine.storeRegisters_refuses hb).mp ⟨e, hr⟩
      exact .inr (.inl ⟨h1, h2, by omega⟩)
    | loadRegisters =>
      obtain ⟨h1, h2⟩ := aLoad.mp hd.accepts
      have h : 0xFFF < m.cpu.i + _ := (Routine.loadRegisters_refuses hb hi).mp ⟨e, hr⟩
      exact .inr (.inr (.inl ⟨h1, h2, by omega⟩))
    | draw =>
      have h1 := (Routine.accepts_draw hw).mp hd.accepts
      have h : 0x1000 < m.cpu.i + _ := (Routine.draw_refuses hb hi).mp ⟨e, hr⟩
      exact .inr (.inr (.inr ⟨h1, by omega⟩))
    | returnFrom | call => cases hr.2
    | waitKey => cases hr
    | _ => exact hr.elim

theorem finds_of_decodes {r : Routine} (ht : m.table = .standard)
    (hw : m.bus.load16 m.cpu.pc = .ok w) (hd : Decodes w r) : ∃ i, m.Finds w i r := by
  obtain ⟨i, hi, hr⟩ := hd
  exact ⟨i, hw, (decode_standard ht).trans hi, hr⟩

theorem Finds.decodes {r : Routine} {i : Instruction} (ht : m.table = .standard)
    (h : m.Finds w i r) : Decodes w r :=
  ⟨i, (decode_standard ht).symm.trans h.instruction, h.routine⟩

/-- A routine that the standard table finds for the word, and that refuses, stops the cycle. -/
theorem stops_of_decodes {r : Routine} {f : Fault} (ht : m.table = .standard)
    (hw : m.bus.load16 m.cpu.pc = .ok w) (hd : Decodes w r)
    (hr : r.Refuses m.cpu.pc w m.behind f) : m.Stops f := by
  obtain ⟨i, hf⟩ := finds_of_decodes ht hw hd
  exact .refused hf hr

/-- There is no other obstacle. -/
theorem obstacle_of_stops {f : Fault} (hm : m.bus.Standard) (ht : m.table = .standard)
    (hc : m.stack.capacity = 16) (hi : 0 ≤ m.cpu.i) (hw : m.bus.load16 m.cpu.pc = .ok w)
    (h : m.Stops f) :
    m.Unlisted w ∨ WaitsForKey w ∨ m.StackBarred w ∨ m.BlockBarred w := by
  have hlt := Bus.load16_lt hw
  cases h with
  | word h => cases h.symm.trans hw
  | illegal h hd =>
    obtain rfl := Except.ok.inj (h.symm.trans hw)
    exact .inl ((unlisted_iff ht).mpr hd)
  | noRoutine h hd hr =>
    rw [decode_standard ht] at hd
    obtain ⟨hmem, _⟩ := InstructionTable.standard_grouped.mem_of_lookup hd
    obtain ⟨r, hr', _⟩ := InstructionTable.exists_routine hmem
    cases hr.symm.trans hr'
  | @refused w' i r _ hf hr =>
    obtain rfl := Except.ok.inj (hf.word.symm.trans hw)
    have hd := hf.decodes ht
    rcases Routine.kind_of_refuses hr with ⟨e, rfl⟩ | ⟨e, rfl⟩ | ⟨rfl, _⟩
    · exact .inr (.inr (.inr ((blockBarred_iff hlt hm hi).mpr ⟨r, e, hd, hr⟩)))
    · exact .inr (.inr (.inl ((stackBarred_iff hlt hc).mpr ⟨r, e, hd, hr⟩)))
    · exact .inr (.inl ((waitsForKey_iff hlt).mpr hd))

end Obstacles

theorem counts_of_cycle {m t : Machine} {i : Instruction} (h : cycle m = .ok i t) :
    t.cycles = m.cycles + 1 := by
  obtain ⟨w, r, u, _, hrun, rfl⟩ := cycle_eq_ok.mp h
  rw [Routine.run_rest hrun]
  rfl

/-- What a cycle comes to, for every state of a machine with the standard map, the standard
table and a stack of sixteen. -/
theorem cycle_verdict {m : Machine} (hm : m.Wired) (ht : m.table = .standard)
    (hc : m.stack.capacity = 16) (hpc : 0 ≤ m.cpu.pc ∧ m.cpu.pc ≤ 0xFFFF)
    (hi : 0 ≤ m.cpu.i ∧ m.cpu.i ≤ 0xFFFF) :
    (0xFFE < m.cpu.pc → ∃ e, cycle m = .error (.memory e) m) ∧
    (m.cpu.pc ≤ 0xFFE → ∃ w : Nat, m.bus.load16 m.cpu.pc = .ok w ∧
      (m.Unlisted w → cycle m = .error (.illegal m.cpu.pc w) m) ∧
      (WaitsForKey w → cycle m = .error (.unimplemented m.cpu.pc w) m) ∧
      (m.StackBarred w → ∃ e, cycle m = .error (.stack e) m) ∧
      (m.BlockBarred w → ∃ e, cycle m = .error (.memory e) m) ∧
      (¬ m.Unlisted w → ¬ WaitsForKey w → ¬ m.StackBarred w → ¬ m.BlockBarred w →
        ∃ i t, cycle m = .ok i t ∧ t.cycles = m.cycles + 1)) := by
  have hs := hm.standard
  have stop {f : Fault} (h : m.Stops f) : cycle m = .error f m :=
    (cycle_eq_error hs.covered).mpr ⟨h, rfl⟩
  constructor
  · intro hout
    cases hl : m.bus.load16 m.cpu.pc with
    | ok w =>
      have := hs.load16_eq_ok.mp ⟨w, hl⟩
      omega
    | error e => exact ⟨e, stop (.word hl)⟩
  · intro hin
    obtain ⟨w, hw⟩ := hs.load16_eq_ok.mpr ⟨hpc.1, hin⟩
    have hlt := Bus.load16_lt hw
    refine ⟨w, hw, ?_, ?_, ?_, ?_, ?_⟩
    · intro hu
      exact stop (.illegal hw ((unlisted_iff ht).mp hu))
    · intro hk
      exact stop (stops_of_decodes ht hw ((waitsForKey_iff hlt).mp hk) rfl)
    · intro hb
      obtain ⟨r, e, hd, hr⟩ := (stackBarred_iff hlt hc).mp hb
      exact ⟨e, stop (stops_of_decodes ht hw hd hr)⟩
    · intro hb
      obtain ⟨r, e, hd, hr⟩ := (blockBarred_iff hlt hs hi.1).mp hb
      exact ⟨e, stop (stops_of_decodes ht hw hd hr)⟩
    · intro hu hk hst hb
      cases hcy : cycle m with
      | ok i t => exact ⟨i, t, rfl, counts_of_cycle hcy⟩
      | error f t =>
        obtain ⟨hstop, _⟩ := (cycle_eq_error hs.covered).mp hcy
        rcases obstacle_of_stops hs ht hc hi.1 hw hstop with h | h | h | h
        · exact absurd h hu
        · exact absurd h hk
        · exact absurd h hst
        · exact absurd h hb

theorem stuck_verdict :
    stuck.Wired ∧ stuck.table = .standard ∧ stuck.stack.capacity = 16 ∧
      (0 ≤ stuck.cpu.pc ∧ stuck.cpu.pc ≤ 0xFFFF) ∧ (0 ≤ stuck.cpu.i ∧ stuck.cpu.i ≤ 0xFFFF) ∧
      stuck.StackBarred 0x2060 ∧ ∃ e, cycle stuck = .error (.stack e) stuck := by
  have ht : stuck.table = .standard := rfl
  have hc : stuck.stack.capacity = 16 := rfl
  have hpc : 0 ≤ stuck.cpu.pc ∧ stuck.cpu.pc ≤ 0xFFFF := ⟨by decide, by decide⟩
  have hi : 0 ≤ stuck.cpu.i ∧ stuck.cpu.i ≤ 0xFFFF := ⟨by decide, by decide⟩
  have hb : stuck.StackBarred 0x2060 := .inr ⟨rfl, rfl⟩
  obtain ⟨w, hw, _, _, hstack, _⟩ := (cycle_verdict stuck_wired ht hc hpc hi).2 (by decide)
  obtain ⟨i, hf⟩ := stuck_finds
  obtain rfl := Except.ok.inj (hw.symm.trans hf.word)
  exact ⟨stuck_wired, ht, hc, hpc, hi, hb, hstack hb⟩

end Machine

end Chip8
