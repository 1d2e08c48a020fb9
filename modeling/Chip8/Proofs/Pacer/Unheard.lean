import Chip8.Proofs.Machine.Unread
import Chip8.Proofs.Pacer.Operation

/-! # The sound timer and the count of cycles

A sound is made outside of the machine, by those who look at the sound timer, and the cycles are
counted for them as well. Nothing comes back from there: machines that differ in the two, and in
nothing else, give the same answers to all that does not ask for the timers, and go on to differ in
nothing else. -/

namespace Chip8

/-- The answer shows the timers: the lines of a trace, and the summary. -/
def Operation.tellsTimers : Operation → Bool
  | traceLines _ | summary => true
  | _ => false

namespace Machine

/-- The machine without the sound timer and the count of cycles. -/
def unheard (m : Machine) : Machine := { m with cpu := { m.cpu with sound := 0 }, cycles := 0 }

/-- Any sound timers, any counts, and all else the same. -/
def soundAndCount : Leeway where
  sound _ _ := True
  cycles _ _ := True
  display := Eq

theorem soundAndCount_kept : soundAndCount.Kept where
  loaded _ := trivial
  tick _ := trivial
  zero := trivial
  succ _ := trivial
  clear h := congrArg Display.clear h
  drawRows h x y rows := by
    cases h
    exact ⟨rfl, rfl⟩

variable {m t : Machine}

theorem Within.unheard_eq (h : Within soundAndCount m t) : m.unheard = t.unheard := by
  obtain ⟨_, _, rfl⟩ := h
  rfl

end Machine

namespace Pacer

open Machine

variable {σ τ : Type} {R : Machine → Machine → Prop} {δ : Leeway} {p : Pacer σ} {q : Pacer τ}

theorem Beside.values {α : Type} (h : Beside R p q) (numbers : α → List Nat)
    {act : Machine.Action α} (hact : InStep R (act p.machine) (act q.machine)) :
    (p.values numbers act).1 = (q.values numbers act).1 ∧
      Beside R (p.values numbers act).2 (q.values numbers act).2 := by
  unfold Pacer.values
  generalize act p.machine = x at hact ⊢
  generalize act q.machine = y at hact ⊢
  cases hact with
  | ok hm => exact ⟨rfl, { h with machine := hm }⟩
  | error hm => exact ⟨rfl, { h with machine := hm }⟩

theorem Beside.access (h : Beside (Within δ) p q) (a : Access) :
    (p.access a).1 = (q.access a).1 ∧ Beside (Within δ) (p.access a).2 (q.access a).2 := by
  cases a with
  | load8 | load16 | loadBlock => exact h.values _ (h.machine.peek _)
  | store8 | store16 | storeBlock => exact h.values _ (h.machine.onBus _)

/-- One operation has one answer, and leaves the machines within their leeway. -/
theorem Beside.respond (hδ : δ.Kept) (h : Beside (Within δ) p q) {op : Operation}
    (hop : op.tellsTimers = false) : (p.respond op).1 = (q.respond op).1 ∧
      Beside (Within δ) (p.respond op).2 (q.respond op).2 := by
  have hR := within_lockstep hδ
  cases op with
  | request r =>
    obtain ⟨hreply, hnext⟩ := h.perform hR r
    exact ⟨congrArg Answer.reply hreply, hnext⟩
  | frames count =>
    obtain ⟨hreply, hnext⟩ := reply_inStep Reply.cycles (h.runFrames hR count.toNat)
    exact ⟨congrArg Answer.reply hreply, hnext⟩
  | isPressed key =>
    have hkeypad := hR.keypad h.machine
    exact ⟨congrArg (fun k : Keypad => Answer.pressed (k.isPressed key)) hkeypad, h⟩
  | readRegister index => exact h.values _ (h.machine.readRegister index)
  | writeRegister index value => exact h.values _ (h.machine.writeRegister index value)
  | access a => exact h.access a
  | traceLines | summary => cases hop

/-- What operations show, but for the sound timer and the count of cycles: behind each of them the
answer, the machine, and the number of frames so far. -/
def report (ops : List Operation) (p : Pacer σ) : List (Answer × Machine × Nat) :=
  (dialogue ops p).map fun (answer, p) => (answer, p.machine.unheard, p.frames)

theorem report_eq (h : Beside (Within soundAndCount) p q) (ops : List Operation)
    (hops : ∀ op ∈ ops, op.tellsTimers = false) : p.report ops = q.report ops := by
  induction ops generalizing p q with
  | nil => rfl
  | cons op ops ih =>
    obtain ⟨hop, hops⟩ := List.forall_mem_cons.mp hops
    obtain ⟨hanswer, hnext⟩ := h.respond soundAndCount_kept hop
    change ((p.respond op).1, (p.respond op).2.machine.unheard, (p.respond op).2.frames) ::
        (p.respond op).2.report ops =
      ((q.respond op).1, (q.respond op).2.machine.unheard, (q.respond op).2.frames) ::
        (q.respond op).2.report ops
    rw [hanswer, hnext.machine.unheard_eq, hnext.frames, ih hnext hops]

/-- Whatever the sound timer shows and however many cycles were counted, the same operations have
the same answers and faults, and behind each of them the machines differ in nothing else. Traces,
watchers and debug lines may be others as well. -/
theorem sound_and_count_bear_on_nothing (m : Machine) (sound : Int) (cycles : Nat)
    (cyclesPerSecond timerRate : Int) (trace trace' : Option Trace)
    (debug debug' : Debug.Categories) (watcher : Option (Watcher σ))
    (watcher' : Option (Watcher τ)) (ops : List Operation)
    (h : ∀ op ∈ ops, op.tellsTimers = false) :
    (watched m cyclesPerSecond timerRate trace debug watcher).map (report ops) =
      (watched { m with cpu := { m.cpu with sound }, cycles } cyclesPerSecond timerRate trace'
        debug' watcher').map (report ops) := by
  have hm : Within soundAndCount m { m with cpu := { m.cpu with sound }, cycles } :=
    .intro trivial trivial rfl
  obtain ⟨e, hp, hq⟩ | ⟨p, q, hp, hq, hpq⟩ :=
    beside_watched hm cyclesPerSecond timerRate trace trace' debug debug' watcher watcher'
  · rw [hp, hq]
    rfl
  · rw [hp, hq]
    exact congrArg Except.ok (report_eq hpq ops h)

/-- A program that loads the sound timer from a register, over a timer that sounds already. -/
theorem sound_and_count_bear_on_nothing_loading :
    let ops : List Operation := [.access (.store16 0x200 0xF018), .request .step, .request .tick,
      .request (.setKey 3 true), .frames 2, .readRegister 0]
    (∀ op ∈ ops, op.tellsTimers = false) ∧
      (watched bare 600 60 none .none (none : Option (Watcher Notes))).map (report ops) =
        (watched { bare with cpu := { bare.cpu with sound := 7 }, cycles := 40 } 600 60 none .none
          (none : Option (Watcher Notes))).map (report ops) := by
  intro ops
  have h : ∀ op ∈ ops, op.tellsTimers = false := by decide
  exact ⟨h, sound_and_count_bear_on_nothing bare 7 40 600 60 none none .none .none none none ops h⟩

end Pacer

end Chip8
