import Chip8.Proofs.Machine.Reachable
import Chip8.Proofs.Trace

/-! # What a trace says of a run

Every step, carried out or not, adds one entry to the trace. The entry is about the machine
as the step found it and about how the step ended, so it does not depend on what comes
after, and the trace is at any time the end of one and the same sequence of entries. -/

namespace Chip8.Pacer

variable {σ : Type}

/-- The pacer behind a number of steps. A step that faults is a step as well. -/
def behind (p : Pacer σ) : Nat → Pacer σ
  | 0 => p
  | n + 1 => leftBy step (p.behind n)

/-- The word at the program counter, if memory holds one there. -/
def wordAhead (m : Machine) : Option Int :=
  match m.bus.load16 m.cpu.pc with
  | .ok w => some (w : Int)
  | .error _ => none

/-- What a step goes down as. -/
def record (p : Pacer σ) : Trace.Entry :=
  let m := p.machine
  let entry := Trace.Entry.ofState m.cpu (wordAhead m) m.stack.depth
  match step p with
  | .ok i _ => entry i.mnemonic ""
  | .error f _ => entry "" f.name

theorem trace_step (p : Pacer σ) :
    (leftBy step p).trace = p.trace.map fun t => t.record p.record := by
  unfold leftBy record step
  dsimp only
  cases Machine.cycle p.machine <;> rfl

/-- The entry tells of a step from this pacer: how it found the machine, and how it ended. -/
structure Tells (e : Trace.Entry) (p : Pacer σ) : Prop where
  counter : (e.pc.toNat : Int) = p.machine.cpu.pc
  index : (e.i.toNat : Int) = p.machine.cpu.i
  depth : e.sp = p.machine.stack.depth
  registers : e.v = p.machine.cpu.v.toList
  delay : (e.delay.toNat : Int) = p.machine.cpu.delay
  sound : (e.sound.toNat : Int) = p.machine.cpu.sound
  word : ∀ w, e.opcode = some w → p.machine.bus.load16 p.machine.cpu.pc = .ok w.toNat
  noWord : e.opcode = none ↔ 0xFFE < p.machine.cpu.pc
  carriedOut : ∀ i q, step p = .ok i q → e.mnemonic = i.mnemonic ∧ e.note = ""
  stopped : ∀ f q, step p = .error f q → e.mnemonic = "" ∧ e.note = f.name

theorem toNat_wordOf_of_range {v : Int} (lo : 0 ≤ v) (hi : v ≤ 0xFFFF) :
    ((wordOf v).toNat : Int) = v := by
  rw [toNat_wordOf]
  omega

theorem toNat_byteOf_of_range {v : Int} (lo : 0 ≤ v) (hi : v ≤ 255) :
    ((byteOf v).toNat : Int) = v := by
  rw [toNat_byteOf]
  omega

/-- Numbers that are in range are not cut, so the entry holds them as they are. -/
theorem tells_record {o : Machine.Options} {p : Pacer σ} (h : p.machine.Sound o) :
    Tells p.record p := by
  have hc := h.cpu
  have hpc := hc.counter
  -- all but the end of the step is the same in both cases
  obtain ⟨mnemonic, note, hrecord⟩ : ∃ mnemonic note, p.record =
      .ofState p.machine.cpu (wordAhead p.machine) p.machine.stack.depth mnemonic note := by
    unfold record
    cases step p <;> exact ⟨_, _, rfl⟩
  have hopcode : p.record.opcode = (wordAhead p.machine).map wordOf := by rw [hrecord]; rfl
  refine
    { counter := by rw [hrecord]; exact toNat_wordOf_of_range hpc.1 (by omega)
      index := by rw [hrecord]; exact toNat_wordOf_of_range hc.index.1 hc.index.2
      depth := by rw [hrecord]; rfl
      registers := by rw [hrecord]; rfl
      delay := by rw [hrecord]; exact toNat_byteOf_of_range hc.delay.1 hc.delay.2
      sound := by rw [hrecord]; exact toNat_byteOf_of_range hc.sound.1 hc.sound.2
      word := fun w hw => ?_
      noWord := ?_
      carriedOut := fun i q hs => ?_
      stopped := fun f q hs => ?_ }
  · rw [hopcode] at hw
    unfold wordAhead at hw
    cases hl : p.machine.bus.load16 p.machine.cpu.pc with
    | error e => rw [hl] at hw; cases hw
    | ok v =>
      rw [hl] at hw
      cases hw
      have hlt := Bus.load16_lt hl
      have hv := toNat_wordOf_of_range (v := v) (by omega) (by omega)
      rw [show (wordOf v).toNat = v by omega]
  · have hread := h.fonted.standard.load16_eq_ok (a := p.machine.cpu.pc)
    rw [hopcode]
    unfold wordAhead
    cases hl : p.machine.bus.load16 p.machine.cpu.pc with
    | error e =>
      refine ⟨fun _ => ?_, fun _ => rfl⟩
      refine Int.not_le.mp fun hle => ?_
      obtain ⟨w, hw⟩ := hread.mpr ⟨hpc.1, hle⟩
      cases hl.symm.trans hw
    | ok v =>
      have hle := (hread.mp ⟨v, hl⟩).2
      exact ⟨fun hn => (nomatch hn), fun hlt => absurd hle (Int.not_le.mpr hlt)⟩
  · unfold record
    rw [hs]
    exact ⟨rfl, rfl⟩
  · unfold record
    rw [hs]
    exact ⟨rfl, rfl⟩

theorem reachable_behind {o : Machine.Options} {p : Pacer σ} (h : Machine.Reachable o p.machine)
    (n : Nat) : Machine.Reachable o (p.behind n).machine := by
  induction n with
  | zero => exact h
  | succ n ih =>
    change Machine.Reachable o (leftBy step (p.behind n)).machine
    rw [machine_step]
    exact ih.event .cycle

/-- Behind any number of steps the trace holds the last of their records. -/
theorem remembers_behind {p : Pacer σ} {capacity : Nat} (hc : 0 < capacity)
    (ht : p.trace = some (.empty capacity)) (n : Nat) :
    ∃ t, (p.behind n).trace = some t ∧ t.capacity = capacity ∧
      t.Remembers ((List.range n).map fun k => (p.behind k).record) := by
  induction n with
  | zero => exact ⟨_, ht, rfl, Trace.remembers_empty hc⟩
  | succ n ih =>
    obtain ⟨t, htrace, hcap, hrem⟩ := ih
    refine ⟨t.record (p.behind n).record, ?_, ?_, ?_⟩
    · change (leftBy step (p.behind n)).trace = _
      rw [trace_step, htrace, Option.map_some]
    · rw [Trace.capacity_record, hcap]
    · rw [List.range_succ, List.map_append]
      exact hrem.record _

/-- There is one sequence of entries, each of them telling of one step, and behind `n` steps
the trace lists the last of the first `n`, as many as it has room for. -/
theorem trace_tells_of_run {o : Machine.Options} {p : Pacer σ} {capacity : Nat}
    (h : Machine.Reachable o p.machine) (hc : 0 < capacity)
    (ht : p.trace = some (.empty capacity)) :
    ∃ entry : Nat → Trace.Entry, ∀ n, Tells (entry n) (p.behind n) ∧
      ∃ t, (p.behind n).trace = some t ∧ (p.behind (n + 1)).trace = some (t.record (entry n)) ∧
        t.size = min n capacity ∧
        t.entries none = ((List.range n).map entry).drop (n - min n capacity) := by
  refine ⟨fun k => (p.behind k).record, fun n => ⟨tells_record (reachable_behind h n).sound, ?_⟩⟩
  obtain ⟨t, htrace, hcap, hrem⟩ := remembers_behind hc ht n
  have hlen : ((List.range n).map fun k => (p.behind k).record).length = n := by
    rw [List.length_map, List.length_range]
  refine ⟨t, htrace, ?_, ?_, ?_⟩
  · change (leftBy step (p.behind n)).trace = _
    rw [trace_step, htrace, Option.map_some]
  · rw [hrem.size, hlen, hcap]
  · rw [hrem.entries none, hlen, hcap]
    rfl

theorem usualRate_pos : (0 : Int) < 60 := by decide

/-- A pacer whose machine waits for a key, which faults at each step, with room for two
entries in its trace. -/
def waiting : Pacer where
  machine := (Event.store16 0x200 0xF00A).after Machine.bare
  cyclesPerSecond := 600
  timerRate := 60
  cycles_pos := by decide
  timer_pos := usualRate_pos
  trace := some (.empty 2)
  debug := .none
  watcher := none

theorem trace_tells_of_waiting :
    Machine.Reachable {} waiting.machine ∧ 0 < 2 ∧ waiting.trace = some (.empty 2) ∧
      ∃ entry : Nat → Trace.Entry,
        Tells (entry 1) (waiting.behind 1) ∧ Tells (entry 2) (waiting.behind 2) ∧
        ∃ t, (waiting.behind 3).trace = some t ∧ t.entries none = [entry 1, entry 2] := by
  have h : Machine.Reachable {} waiting.machine := by
    unfold waiting
    dsimp only
    exact .event _ (.created Machine.create_bare)
  have ht : waiting.trace = some (.empty 2) := rfl
  obtain ⟨entry, hentry⟩ := trace_tells_of_run h (by decide) ht
  obtain ⟨t, htrace, _, _, hlist⟩ := (hentry 3).2
  exact ⟨h, by decide, ht, entry, (hentry 1).1, (hentry 2).1, t, htrace, hlist⟩

end Chip8.Pacer
