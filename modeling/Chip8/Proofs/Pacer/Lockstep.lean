import Chip8.Pacer
import Chip8.Proofs.Outcome

/-! # Pacers side by side

Two machines that a relation holds between may stay in it whatever is asked of both. What a
machine has to keep for that is little: one cycle, a tick, a reset, and the keypad. All that
can be asked of a pacer is made of these, and the observers of a pacer have no part in it. -/

namespace Chip8

/-! ## Requests -/

/-- What can be asked of a pacer and its machine from outside. -/
inductive Request
  | step
  | frame
  | tick
  | reset
  | setKey (key : Int) (pressed : Bool)
  | setNamedKey (name : String) (pressed : Bool)
  | releaseKeys
deriving DecidableEq

/-- What is answered to a request, or the fault or error in which it ends. -/
inductive Reply
  | instruction (i : Instruction)
  | cycles (n : Nat)
  | fault (f : Fault)
  /-- Whether there is such a key, and what the listeners of the keypad hear. -/
  | key (known : Bool) (heard : List KeyEvent)
  | noKey (e : KeyError)
  | done

namespace Pacer

variable {σ τ : Type}

def setKeypad (p : Pacer σ) (keypad : Keypad) (log : List String) : Pacer σ :=
  { p with machine := { p.machine with keypad }, printed := p.printed ++ log.map Emission.line }

/-- The reply that an outcome comes to, with the pacer that is left. -/
def reply {α : Type} (answer : α → Reply) : EStateM.Result Fault (Pacer σ) α → Reply × Pacer σ
  | .ok a p => (answer a, p)
  | .error f p => (.fault f, p)

def perform (p : Pacer σ) : Request → Reply × Pacer σ
  | .step => reply .instruction (step p)
  | .frame => reply .cycles (frame p)
  | .tick => (.done, { p with machine := p.machine.tick })
  | .reset => (.done, { p with machine := p.machine.reset })
  | .setKey key pressed => match p.machine.keypad.setIndex key pressed with
    | .ok (heard, keypad) =>
      (.key true heard, p.setKeypad keypad (Keypad.setIndexLog p.debug key pressed))
    | .error e => (.noKey e, p)
  | .setNamedKey name pressed =>
    let (known, heard, keypad) := p.machine.keypad.setNamed name pressed
    (.key known heard, p.setKeypad keypad (Keypad.setNamedLog p.debug name pressed))
  | .releaseKeys => (.done, p.setKeypad p.machine.keypad.reset [])

/-- A frame counts itself and ticks the timers behind its cycles. -/
def closeFrame (p : Pacer σ) : Pacer σ :=
  { p with machine := p.machine.tick, frames := p.frames + 1 }

theorem frame_eq (p : Pacer σ) : Pacer.frame p =
    (do Pacer.steps p.cyclesPerFrame
        modify closeFrame
        return p.cyclesPerFrame : EStateM Fault (Pacer σ) Nat) p := rfl

/-! ## Two of a kind -/

/-- Machines that are related stay so, and give the same answers. -/
structure Lockstep (R : Machine → Machine → Prop) : Prop where
  cycle : ∀ {m t}, R m t → InStep R (Machine.cycle m) (Machine.cycle t)
  tick : ∀ {m t}, R m t → R m.tick t.tick
  reset : ∀ {m t}, R m t → R m.reset t.reset
  keypad : ∀ {m t}, R m t → m.keypad = t.keypad
  setKeypad : ∀ {m t}, R m t → ∀ keypad, R { m with keypad } { t with keypad }

/-- The same rates and as many frames, and machines that are related. -/
structure Beside (R : Machine → Machine → Prop) (p : Pacer σ) (q : Pacer τ) : Prop where
  machine : R p.machine q.machine
  frames : p.frames = q.frames
  cyclesPerSecond : p.cyclesPerSecond = q.cyclesPerSecond
  timerRate : p.timerRate = q.timerRate

section

variable {R : Machine → Machine → Prop} {p : Pacer σ} {q : Pacer τ}

theorem Beside.cyclesPerFrame (h : Beside R p q) : p.cyclesPerFrame = q.cyclesPerFrame := by
  unfold Pacer.cyclesPerFrame
  rw [h.cyclesPerSecond, h.timerRate]

/-- Whatever the observers did, only the machines count. -/
theorem Beside.with_machine (h : Beside R p q) {m t : Machine} (hm : R m t) {p' : Pacer σ}
    {q' : Pacer τ}
    (hp : p' = { p with
      machine := m, trace := p'.trace, watcher := p'.watcher, printed := p'.printed })
    (hq : q' = { q with
      machine := t, trace := q'.trace, watcher := q'.watcher, printed := q'.printed }) :
    Beside R p' q' := by
  rw [hp, hq]
  exact { h with machine := hm }

theorem reply_inStep {α : Type} (answer : α → Reply) {x : EStateM.Result Fault (Pacer σ) α}
    {y : EStateM.Result Fault (Pacer τ) α} (h : InStep (Beside R) x y) :
    (reply answer x).1 = (reply answer y).1 ∧ Beside R (reply answer x).2 (reply answer y).2 := by
  cases h with
  | ok h => exact ⟨rfl, h⟩
  | error h => exact ⟨rfl, h⟩

variable (hR : Lockstep R)
include hR

theorem Beside.step (h : Beside R p q) : InStep (Beside R) (Pacer.step p) (Pacer.step q) := by
  have hcycle := hR.cycle h.machine
  unfold Pacer.step
  dsimp only
  generalize Machine.cycle p.machine = x at hcycle
  generalize Machine.cycle q.machine = y at hcycle
  cases hcycle with
  | ok hm => exact .ok (h.with_machine hm rfl rfl)
  | error hm => exact .error (h.with_machine hm rfl rfl)

theorem Beside.steps (n : Nat) (h : Beside R p q) :
    InStep (Beside R) (Pacer.steps n p) (Pacer.steps n q) := by
  induction n generalizing p q with
  | zero => exact .ok h
  | succ n ih => exact InStep.bind (h.step hR) fun _ _ _ h => ih h

theorem Beside.frame (h : Beside R p q) : InStep (Beside R) (Pacer.frame p) (Pacer.frame q) := by
  rw [frame_eq, frame_eq, h.cyclesPerFrame]
  refine InStep.bind (h.steps hR q.cyclesPerFrame) fun _ _ _ h => .ok ?_
  exact { h with machine := hR.tick h.machine, frames := congrArg (· + 1) h.frames }

theorem Beside.runFrames (n : Nat) (h : Beside R p q) :
    InStep (Beside R) (Pacer.runFrames n p) (Pacer.runFrames n q) := by
  induction n generalizing p q with
  | zero => exact .ok h
  | succ n ih =>
    refine InStep.bind (h.frame hR) fun first _ _ h => ?_
    exact InStep.bind (ih h) fun rest _ _ h => .ok h

theorem Beside.setKeypad (h : Beside R p q) (keypad : Keypad) (log log' : List String) :
    Beside R (p.setKeypad keypad log) (q.setKeypad keypad log') :=
  h.with_machine (hR.setKeypad h.machine keypad) rfl rfl

/-- One request has one reply, and leaves the machines as they were to each other. -/
theorem Beside.perform (h : Beside R p q) (r : Request) :
    (p.perform r).1 = (q.perform r).1 ∧ Beside R (p.perform r).2 (q.perform r).2 := by
  cases r with
  | step => exact reply_inStep _ (h.step hR)
  | frame => exact reply_inStep _ (h.frame hR)
  | tick => exact ⟨rfl, { h with machine := hR.tick h.machine }⟩
  | reset => exact ⟨rfl, { h with machine := hR.reset h.machine }⟩
  | setKey key pressed =>
    unfold Pacer.perform
    dsimp only
    rw [hR.keypad h.machine]
    cases q.machine.keypad.setIndex key pressed with
    | ok heard => exact ⟨rfl, h.setKeypad hR _ _ _⟩
    | error e => exact ⟨rfl, h⟩
  | setNamedKey name pressed =>
    unfold Pacer.perform
    rw [hR.keypad h.machine]
    exact ⟨rfl, h.setKeypad hR _ _ _⟩
  | releaseKeys =>
    unfold Pacer.perform
    rw [hR.keypad h.machine]
    exact ⟨rfl, h.setKeypad hR _ _ _⟩

end

theorem watched_of_pos {m : Machine} {c t : Int} (hc : 0 < c) (ht : 0 < t) (trace : Option Trace)
    (debug : Debug.Categories) (watcher : Option (Watcher σ)) :
    watched m c t trace debug watcher =
      .ok { machine := m, cyclesPerSecond := c, timerRate := t, cycles_pos := hc, timer_pos := ht,
            trace, debug, watcher } := by
  unfold watched
  rw [dif_pos hc, dif_pos ht]

/-- Over related machines the same rates give two pacers side by side, or none at all. -/
theorem beside_watched {R : Machine → Machine → Prop} {m t : Machine} (hm : R m t)
    (cyclesPerSecond timerRate : Int) (trace trace' : Option Trace)
    (debug debug' : Debug.Categories) (watcher : Option (Watcher σ))
    (watcher' : Option (Watcher τ)) :
    (∃ e, watched m cyclesPerSecond timerRate trace debug watcher = .error e ∧
      watched t cyclesPerSecond timerRate trace' debug' watcher' = .error e) ∨
    ∃ p q, watched m cyclesPerSecond timerRate trace debug watcher = .ok p ∧
      watched t cyclesPerSecond timerRate trace' debug' watcher' = .ok q ∧ Beside R p q := by
  unfold watched
  by_cases hc : 0 < cyclesPerSecond
  · by_cases ht : 0 < timerRate
    · rw [dif_pos hc, dif_pos ht, dif_pos hc, dif_pos ht]
      exact .inr ⟨_, _, rfl, rfl, hm, rfl, rfl, rfl⟩
    · rw [dif_pos hc, dif_neg ht, dif_pos hc, dif_neg ht]
      exact .inl ⟨_, rfl, rfl⟩
  · rw [dif_neg hc, dif_neg hc]
    exact .inl ⟨_, rfl, rfl⟩

end Pacer

end Chip8
