import Chip8.Proofs.Machine.Routine
import Chip8.Proofs.Operands
import Chip8.Proofs.Screen.Display

/-! # Bounds that routines keep

For each part of the machine that has a range of its own: which routines write it, and
that what they write is in the range. -/

namespace Chip8.Routine

open Machine

variable {r : Routine} {pc : Int} {w : Nat} {m t : Machine}

theorem byte_range (b : UInt8) : 0 ≤ (b.toNat : Int) ∧ (b.toNat : Int) ≤ 255 := by
  have := b.toNat_lt
  omega

theorem run_index (h : run r pc w m = .ok () t) (hi : 0 ≤ m.cpu.i ∧ m.cpu.i ≤ 0xFFFF) :
    0 ≤ t.cpu.i ∧ t.cpu.i ≤ 0xFFFF := by
  cases r with
  | loadIndex =>
    cases h
    have := (Operands.ofWord w).nnn_lt
    change 0 ≤ ((Operands.ofWord w).nnn : Int) ∧ ((Operands.ofWord w).nnn : Int) ≤ 0xFFFF
    omega
  | addIndex =>
    cases h
    change 0 ≤ (m.cpu.i + _) % 65536 ∧ (m.cpu.i + _) % 65536 ≤ 0xFFFF
    omega
  | loadGlyph =>
    cases h
    have := (nibbleOf (m.cpu.v.get (Operands.ofWord w).x).toNat).isLt
    change 0 ≤ ((_ * 5 : Nat) : Int) ∧ ((_ * 5 : Nat) : Int) ≤ 0xFFFF
    omega
  | storeRegisters =>
    obtain ⟨b, _, hadv⟩ := run_storeRegisters.mp h
    cases (advance_eq _ _).symm.trans hadv
    dsimp only
    split <;> omega
  | loadRegisters =>
    obtain ⟨bs, _, hadv⟩ := run_loadRegisters.mp h
    cases (advance_eq _ _).symm.trans hadv
    dsimp only
    split <;> omega
  | _ =>
    have hs : t.cpu.i = m.cpu.i := run_same (p := .index) h (by decide)
    rw [hs]
    exact hi

/-- From behind an instruction that could be read a routine gets at most as far as the
largest offset behind the last address. -/
theorem run_counter (h : run r pc w m = .ok () t) (lo : 0 ≤ m.cpu.pc) (hi : m.cpu.pc ≤ 0x1000)
    (hr : ∀ a ∈ m.stack.toList, a.toNat ≤ 0x1000) : 0 ≤ t.cpu.pc ∧ t.cpu.pc ≤ 0x10FE := by
  have hn := (Operands.ofWord w).nnn_lt
  cases r with
  | returnFrom =>
    obtain ⟨a, s, hp, rfl⟩ := run_returnFrom.mp h
    have := hr a (by rw [(CallStack.pop_of_ok hp).1]; simp)
    change 0 ≤ (a.toNat : Int) ∧ (a.toNat : Int) ≤ 0x10FE
    omega
  | call =>
    obtain ⟨s, _, rfl⟩ := run_call.mp h
    dsimp only
    omega
  | jump =>
    cases h
    change 0 ≤ ((Operands.ofWord w).nnn : Int) ∧ ((Operands.ofWord w).nnn : Int) ≤ 0x10FE
    omega
  | jumpOffset =>
    cases h
    have hv := (m.cpu.v.get offsetRegister).toNat_lt
    change 0 ≤ ((_ + (Operands.ofWord w).nnn : Nat) : Int) % 65536 ∧
      ((_ + (Operands.ofWord w).nnn : Nat) : Int) % 65536 ≤ 0x10FE
    omega
  | skipEqualImmediate | skipUnequalImmediate | skipEqual | skipUnequal | skipPressed
  | skipReleased =>
    cases (run_skip rfl).symm.trans h
    dsimp only
    split <;> omega
  | _ =>
    have hs : t.cpu.pc = m.cpu.pc := run_same (p := .counter) h (by decide)
    omega

theorem run_delay (h : run r pc w m = .ok () t) (hd : 0 ≤ m.cpu.delay ∧ m.cpu.delay ≤ 255) :
    0 ≤ t.cpu.delay ∧ t.cpu.delay ≤ 255 := by
  cases r with
  | setDelay =>
    cases h
    exact byte_range (m.cpu.v.get (Operands.ofWord w).x)
  | _ =>
    have hs : t.cpu.delay = m.cpu.delay := run_same (p := .delay) h (by decide)
    rw [hs]
    exact hd

theorem run_sound (h : run r pc w m = .ok () t) (hd : 0 ≤ m.cpu.sound ∧ m.cpu.sound ≤ 255) :
    0 ≤ t.cpu.sound ∧ t.cpu.sound ≤ 255 := by
  cases r with
  | setSound =>
    cases h
    exact byte_range (m.cpu.v.get (Operands.ofWord w).x)
  | _ =>
    have hs : t.cpu.sound = m.cpu.sound := run_same (p := .sound) h (by decide)
    rw [hs]
    exact hd

theorem run_capacity (h : run r pc w m = .ok () t) : t.stack.capacity = m.stack.capacity := by
  cases r with
  | returnFrom =>
    obtain ⟨a, s, hp, rfl⟩ := run_returnFrom.mp h
    exact (CallStack.pop_of_ok hp).2
  | call =>
    obtain ⟨s, hp, rfl⟩ := run_call.mp h
    exact (CallStack.push_of_ok hp).2.2
  | _ =>
    have hs : t.stack = m.stack := run_same (p := .stack) h (by decide)
    rw [hs]

/-- A return takes an address off, and a call adds the one behind it. -/
theorem run_returns (h : run r pc w m = .ok () t) (lo : 2 ≤ m.cpu.pc) (hi : m.cpu.pc ≤ 0x1000)
    (hr : ∀ a ∈ m.stack.toList, 2 ≤ a.toNat ∧ a.toNat ≤ 0x1000) :
    ∀ a ∈ t.stack.toList, 2 ≤ a.toNat ∧ a.toNat ≤ 0x1000 := by
  cases r with
  | returnFrom =>
    obtain ⟨b, s, hp, rfl⟩ := run_returnFrom.mp h
    intro a ha
    exact hr a (by rw [(CallStack.pop_of_ok hp).1]; exact List.mem_append_left _ ha)
  | call =>
    obtain ⟨s, hp, rfl⟩ := run_call.mp h
    intro a ha
    rw [(CallStack.push_of_ok hp).2.1] at ha
    rcases List.mem_append.mp ha with ha | ha
    · exact hr a ha
    · obtain rfl := List.mem_singleton.mp ha
      rw [toNat_wordOf]
      omega
  | _ =>
    have hs : t.stack = m.stack := run_same (p := .stack) h (by decide)
    rw [hs]
    exact hr

theorem run_stored (h : run r pc w m = .ok () t) : Bus.Stored m.bus t.bus := by
  cases r with
  | storeDecimal =>
    obtain ⟨b, hb, rfl⟩ := run_storeDecimal.mp h
    exact leftBy_of_ok hb ▸ Bus.stored_storeBlock m.bus _ _
  | storeRegisters =>
    obtain ⟨b, hb, hadv⟩ := run_storeRegisters.mp h
    cases (advance_eq _ _).symm.trans hadv
    exact leftBy_of_ok hb ▸ Bus.stored_storeBlock m.bus _ _
  | _ =>
    have hs : t.bus = m.bus := run_same (p := .memory) h (by decide)
    rw [hs]
    exact Bus.Stored.refl m.bus

/-- Drawing and clearing leave the picture as wide and as high as it was. -/
theorem run_dimensions (h : run r pc w m = .ok () t) :
    t.display.screen.width = m.display.screen.width ∧
      t.display.screen.height = m.display.screen.height := by
  cases r with
  | clearScreen =>
    cases h
    change m.display.clear.screen.width = _ ∧ m.display.clear.screen.height = _
    rw [Display.screen_clear]
    exact ⟨rfl, rfl⟩
  | draw =>
    obtain ⟨rows, _, rfl⟩ := run_draw.mp h
    change (m.display.drawRows _ _ rows).2.screen.width = _ ∧
      (m.display.drawRows _ _ rows).2.screen.height = _
    rw [Display.screen_drawRows]
    exact ⟨rfl, rfl⟩
  | _ =>
    have hs : t.display = m.display := run_same (p := .display) h (by decide)
    rw [hs]
    exact ⟨rfl, rfl⟩

theorem run_random (h : run r pc w m = .ok () t) {l : Lanes} (hl : m.random = .lanes l) :
    ∃ l', t.random = .lanes l' := by
  cases r with
  | random =>
    cases h
    refine ⟨l.next, ?_⟩
    change m.random.next.2 = _
    rw [hl]
    rfl
  | _ =>
    have hs : t.random = m.random := run_same (p := .random) h (by decide)
    exact ⟨l, hs.trans hl⟩

end Chip8.Routine
