import Chip8.Pacer
import Chip8.Proofs.Machine.Bounds
import Chip8.Proofs.Machine.Cycle

/-! # Runs of a machine

An event is one thing that is done to a machine from outside: a cycle, a tick of the
timers, a reset, or an access to a register, to memory or to the keypad. An event that is
refused is an event as well. A run is any list of events. Apart from cycles and resets no
event touches the program counter, the index or the stack. -/

namespace Chip8

inductive Event
  | cycle
  | tick
  | reset
  | writeRegister (index value : Int)
  | store8 (address value : Int)
  | store16 (address value : Int)
  | storeBlock (start : Int) (data : List Int)
  | setKey (key : Int) (pressed : Bool)
  | setNamedKey (name : String) (pressed : Bool)
  | releaseKeys
  | addListener
deriving DecidableEq

namespace Event

open Machine

/-- The machine behind an event, whether it was carried out or refused. -/
def after : Event → Machine → Machine
  | cycle, m => leftBy Machine.cycle m
  | tick, m => m.tick
  | reset, m => m.reset
  | writeRegister index value, m => leftBy (Machine.writeRegister index value) m
  | store8 a v, m => leftBy (onBus (Bus.store8 a v)) m
  | store16 a v, m => leftBy (onBus (Bus.store16 a v)) m
  | storeBlock start data, m => leftBy (onBus (Bus.storeBlock start data)) m
  | setKey key pressed, m =>
    match m.keypad.setIndex key pressed with
    | .ok (_, keypad) => { m with keypad }
    | .error _ => m
  | setNamedKey name pressed, m => { m with keypad := (m.keypad.setNamed name pressed).2.2 }
  | releaseKeys, m => { m with keypad := m.keypad.reset }
  | addListener, m => { m with keypad := m.keypad.addListener.2 }

/-- The machine behind a run. -/
def run (m : Machine) (es : List Event) : Machine := es.foldl (fun m e => e.after m) m

theorem run_nil (m : Machine) : run m [] = m := rfl

theorem run_cons (m : Machine) (e : Event) (es : List Event) :
    run m (e :: es) = run (e.after m) es := rfl

theorem run_append (m : Machine) (es fs : List Event) : run m (es ++ fs) = run (run m es) fs :=
  List.foldl_append

/-- What an event other than a cycle and a reset can change: registers, timers, the keypad,
and what is stored in memory. -/
structure Aside (e : Event) (m t : Machine) : Prop where
  rest : t = { m with
    cpu := { m.cpu with v := t.cpu.v, delay := t.cpu.delay, sound := t.cpu.sound }
    bus := t.bus
    keypad := t.keypad }
  stored : Bus.Stored m.bus t.bus
  timers : t.cpu.delay = m.cpu.delay ∧ t.cpu.sound = m.cpu.sound ∨ e = tick ∧ t = m.tick

theorem leftBy_onBus {α : Type} (act : EStateM MemoryFault Bus α) (m : Machine) :
    leftBy (onBus act) m = { m with bus := leftBy act m.bus } := by
  unfold leftBy onBus
  cases act m.bus <;> rfl

theorem aside_onBus {α : Type} {act : EStateM MemoryFault Bus α} {e : Event} {m : Machine}
    (h : Bus.Stored m.bus (leftBy act m.bus)) : Aside e m (leftBy (onBus act) m) := by
  rw [leftBy_onBus]
  exact ⟨rfl, h, .inl ⟨rfl, rfl⟩⟩

theorem aside_keypad (e : Event) (m : Machine) (keypad : Keypad) : Aside e m { m with keypad } :=
  ⟨rfl, Bus.Stored.refl m.bus, .inl ⟨rfl, rfl⟩⟩

theorem aside_refl (e : Event) (m : Machine) : Aside e m m :=
  ⟨rfl, Bus.Stored.refl m.bus, .inl ⟨rfl, rfl⟩⟩

theorem after_aside {e : Event} (m : Machine) (hc : e ≠ cycle) (hr : e ≠ reset) :
    Aside e m (e.after m) := by
  cases e with
  | cycle => exact absurd rfl hc
  | reset => exact absurd rfl hr
  | tick => exact ⟨rfl, Bus.Stored.refl m.bus, .inr ⟨rfl, rfl⟩⟩
  | writeRegister index value =>
    change Aside _ m (leftBy (if 0 ≤ index ∧ index < 16 then setReg (nibbleOf index) (byteOf value)
      else throw (.noRegister index)) m)
    by_cases hi : 0 ≤ index ∧ index < 16
    · rw [if_pos hi]
      exact ⟨rfl, Bus.Stored.refl m.bus, .inl ⟨rfl, rfl⟩⟩
    · rw [if_neg hi]
      exact aside_refl _ m
  | store8 a v => exact aside_onBus (Bus.stored_store8 m.bus a v)
  | store16 a v => exact aside_onBus (Bus.stored_store16 m.bus a v)
  | storeBlock start data => exact aside_onBus (Bus.stored_storeBlock m.bus start data)
  | setKey key pressed =>
    change Aside _ m (match m.keypad.setIndex key pressed with
      | .ok (_, keypad) => { m with keypad }
      | .error _ => m)
    cases m.keypad.setIndex key pressed with
    | ok p => exact aside_keypad _ m p.2
    | error e => exact aside_refl _ m
  | setNamedKey name pressed => exact aside_keypad _ m _
  | releaseKeys => exact aside_keypad _ m _
  | addListener => exact aside_keypad _ m _

theorem after_of_ok {m t : Machine} {i : Instruction} (h : Machine.cycle m = .ok i t) :
    cycle.after m = t := leftBy_of_ok h

theorem after_of_error {m t : Machine} {f : Fault} (h : Machine.cycle m = .error f t) :
    cycle.after m = t := leftBy_of_error h

/-- Behind a cycle there is the machine that it left, or after a fault the one that it found. -/
theorem after_cycle {m : Machine} (hm : m.bus.Covered) :
    (∃ i t, Machine.cycle m = .ok i t ∧ cycle.after m = t) ∨
      (∃ f, Machine.cycle m = .error f m) ∧ cycle.after m = m := by
  cases h : Machine.cycle m with
  | ok i t => exact .inl ⟨i, t, rfl, after_of_ok h⟩
  | error f t =>
    obtain ⟨_, rfl⟩ := (cycle_eq_error hm).mp h
    exact .inr ⟨⟨f, rfl⟩, after_of_error h⟩

/-- Whatever an event does to memory, it stores. -/
theorem stored_after {m : Machine} (hm : m.bus.Covered) (e : Event) :
    Bus.Stored m.bus (e.after m).bus := by
  by_cases hc : e = cycle
  · rw [hc]
    obtain ⟨i, t, hcyc, ht⟩ | ⟨_, ht⟩ := after_cycle hm
    · obtain ⟨w, r, u, _, hrun, rfl⟩ := cycle_eq_ok.mp hcyc
      have hstored : Bus.Stored m.behind.bus u.bus := Routine.run_stored hrun
      rw [ht]
      exact hstored
    · rw [ht]
      exact .refl m.bus
  · by_cases hr : e = reset
    · rw [hr]
      exact .refl m.bus
    · exact (after_aside m hc hr).stored

theorem covered_run {m : Machine} (hm : m.bus.Covered) (es : List Event) :
    (run m es).bus.Covered := by
  induction es generalizing m with
  | nil => exact hm
  | cons e es ih => exact ih (hm.of_layout (stored_after hm e).layout)

/-- The table, and what block transfers do to the index, are given with the machine. -/
theorem settings_after (m : Machine) (e : Event) :
    (e.after m).table = m.table ∧ (e.after m).advances = m.advances := by
  by_cases hc : e = cycle
  · rw [hc]
    cases hcyc : Machine.cycle m with
    | ok i t =>
      obtain ⟨w, r, u, _, hrun, rfl⟩ := cycle_eq_ok.mp hcyc
      have htable : u.table = m.behind.table := by rw [Routine.run_rest hrun]
      have hadvances : u.advances = m.behind.advances := by rw [Routine.run_rest hrun]
      rw [after_of_ok hcyc]
      exact ⟨htable, hadvances⟩
    | error f t =>
      rw [after_of_error hcyc, cycle_error_rest hcyc]
      exact ⟨rfl, rfl⟩
  · by_cases hr : e = reset
    · rw [hr]
      exact ⟨rfl, rfl⟩
    · rw [(after_aside m hc hr).rest]
      exact ⟨rfl, rfl⟩

theorem table_after (m : Machine) (e : Event) : (e.after m).table = m.table :=
  (settings_after m e).1

theorem table_run (m : Machine) (es : List Event) : (run m es).table = m.table := by
  induction es generalizing m with
  | nil => rfl
  | cons e es ih => exact (ih (e.after m)).trans (table_after m e)

end Event

/-! ## Pacers -/

namespace Pacer

variable {σ : Type}

/-- To the machine a step is a cycle. -/
theorem machine_step (p : Pacer σ) : (leftBy step p).machine = Event.cycle.after p.machine := by
  change (leftBy step p).machine = leftBy Machine.cycle p.machine
  unfold leftBy step
  dsimp only
  cases Machine.cycle p.machine <;> rfl

/-- What holds of the machine of the one pacer holds of that of the other. -/
def Keeps (P : Machine → Prop) (p q : Pacer σ) : Prop := P p.machine → P q.machine

theorem Keeps.trans {P : Machine → Prop} {p q r : Pacer σ} (h : Keeps P p q) (h' : Keeps P q r) :
    Keeps P p r := fun hp => h' (h hp)

section

variable {P : Machine → Prop} (hcycle : ∀ m, P m → P (Event.cycle.after m))
include hcycle

theorem steps_keeps (n : Nat) (p : Pacer σ) : Keeps P p (leftBy (steps n) p) := by
  induction n generalizing p with
  | zero => exact id
  | succ n ih =>
    refine leftBy_bind (R := Keeps P) Keeps.trans ?_ fun _ q _ => ih q
    intro hp
    rw [machine_step]
    exact hcycle _ hp

/-- Whatever cycles and ticks keep, frames keep. -/
theorem frame_keeps (htick : ∀ m, P m → P m.tick) (p : Pacer σ) :
    Keeps P p (leftBy frame p) := by
  refine leftBy_bind (R := Keeps P) Keeps.trans id fun q t hget => ?_
  cases hget
  refine leftBy_bind (R := Keeps P) Keeps.trans (steps_keeps hcycle _ _) fun _ t _ => ?_
  exact htick t.machine

end

end Pacer

end Chip8
