import Chip8.Proofs.Machine.Processor
import Chip8.Proofs.Pacer.Operation
import Chip8.Proofs.Pacer.Record

/-! # A reset and a new processor

A reset leaves the address and the word of the last instruction in the processor, and a new
processor in its place has none of them. Nothing that can be asked of a pacer or its machine
shows a difference, as the processor keeps nothing that an answer depends on. -/

namespace Chip8

namespace Pacer

variable {σ : Type}

/-- The pacer behind a cycle, with what was seen of it. -/
def cycled (p : Pacer σ) (log : List String) (m : Machine) (mnemonic note : String) : Pacer σ :=
  { p with
    machine := m
    printed := p.printed ++ log.map Emission.line
      ++ screenSince p.machine.display.written.size m }.observe p.machine mnemonic note

theorem step_eq (p : Pacer σ) : step p =
    match Machine.cycle p.machine with
    | .ok i m =>
      let q := p.cycled (p.machine.cycleLog p.debug) m i.mnemonic ""
      .ok i { q with watcher := q.watcher.map (·.tell m i) }
    | .error f m => .error f (p.cycled (p.machine.cycleLog p.debug) m "" f.name) := rfl

end Pacer

/-- A pacer over a processor with all that it keeps. -/
structure Rig (σ : Type) where
  pacer : Pacer σ
  slots : Slots
  latch : Latch := {}

namespace Rig

variable {σ : Type}

def processor (g : Rig σ) : Processor := ⟨g.pacer.machine, g.slots, g.latch⟩

/-- What can be seen. -/
def view (g : Rig σ) : Pacer σ := { g.pacer with machine := g.processor.shown }

/-- The pacer over this processor. -/
def mount (p : Pacer σ) (q : Processor) : Rig σ where
  pacer := { p with machine := q.machine }
  slots := q.slots
  latch := q.latch

def step : EStateM Fault (Rig σ) Instruction := fun g =>
  let log := g.processor.cycleLog g.pacer.debug
  match Processor.cycle g.processor with
  | .ok i q =>
    let p := g.view.cycled log q.shown i.mnemonic ""
    .ok i (mount { p with watcher := p.watcher.map (·.tell q.shown i) } q)
  | .error f q => .error f (mount (g.view.cycled log q.shown "" f.name) q)

def steps : Nat → EStateM Fault (Rig σ) Unit
  | 0 => pure ()
  | n + 1 => do
    let _ ← step
    steps n

def frame : EStateM Fault (Rig σ) Nat := do
  let n := (← get).pacer.cyclesPerFrame
  steps n
  modify fun g => { g with pacer := g.pacer.closeFrame }
  return n

def runFrames : Nat → EStateM Fault (Rig σ) Nat
  | 0 => pure 0
  | n + 1 => do
    let first ← frame
    return first + (← runFrames n)

def reset (g : Rig σ) : Rig σ := mount g.pacer g.processor.reset

def renewed (g : Rig σ) : Rig σ := mount g.pacer g.processor.renewed

def reply {α : Type} (answer : α → Reply) : EStateM.Result Fault (Rig σ) α → Answer × Rig σ
  | .ok a g => (.reply (answer a), g)
  | .error f g => (.reply (.fault f), g)

/-- Only cycles and resets touch what the processor keeps. -/
def respond (g : Rig σ) : Operation → Answer × Rig σ
  | .request .step => reply .instruction (step g)
  | .request .frame => reply .cycles (frame g)
  | .request .reset => (.reply .done, g.reset)
  | .frames count => reply .cycles (runFrames count.toNat g)
  | op =>
    let (answer, pacer) := g.view.respond op
    (answer, { g with pacer })

/-- What operations show: behind each of them the answer and what can be seen. -/
def dialogue : List Operation → Rig σ → List (Answer × Pacer σ)
  | [], _ => []
  | op :: ops, g => ((g.respond op).1, (g.respond op).2.view) :: dialogue ops (g.respond op).2

/-- The rig behind operations. -/
def after (g : Rig σ) (ops : List Operation) : Rig σ := ops.foldl (fun g op => (g.respond op).2) g

/-- The first rig is the pacer with all that its processor keeps. -/
abbrev Shows (g : Rig σ) (p : Pacer σ) : Prop := g.view = p

variable (g : Rig σ)

/-! ## Cycles and frames -/

theorem step_inStep : InStep Shows (step g) (Pacer.step g.view) := by
  have hcycle := g.processor.cycle_inStep
  have hlog : g.processor.cycleLog g.pacer.debug = g.view.machine.cycleLog g.view.debug :=
    g.processor.cycleLog_eq g.pacer.debug
  rw [Pacer.step_eq]
  unfold step
  rw [hlog]
  change InStep Shows _ (match Machine.cycle g.processor.shown with | .ok i m => _ | .error f m => _)
  revert hcycle
  generalize Processor.cycle g.processor = x
  generalize Machine.cycle g.processor.shown = y
  intro hcycle
  cases hcycle with
  | @ok i q m h =>
    subst h
    exact .ok rfl
  | @error f q m h =>
    subst h
    exact .error rfl

theorem steps_inStep (n : Nat) : InStep Shows (steps n g) (Pacer.steps n g.view) := by
  induction n generalizing g with
  | zero => exact .ok rfl
  | succ n ih => exact InStep.bind g.step_inStep fun _ g' _ hg => hg ▸ ih g'

theorem frame_inStep : InStep Shows (frame g) (Pacer.frame g.view) := by
  unfold frame Pacer.frame
  refine InStep.get_bind ?_
  exact InStep.bind (g.steps_inStep _) fun _ g' _ hg => hg ▸ .ok rfl

theorem runFrames_inStep (n : Nat) : InStep Shows (runFrames n g) (Pacer.runFrames n g.view) := by
  induction n generalizing g with
  | zero => exact .ok rfl
  | succ n ih =>
    refine InStep.bind g.frame_inStep fun first g' _ hg => ?_
    exact InStep.bind (hg ▸ ih g') fun rest _ _ h => .ok h

/-! ## Operations -/

variable {g}

theorem reply_inStep {α : Type} (answer : α → Reply) {x : EStateM.Result Fault (Rig σ) α}
    {y : EStateM.Result Fault (Pacer σ) α} (h : InStep Shows x y) :
    (reply answer x).1 = .reply (Pacer.reply answer y).1 ∧
      (reply answer x).2.view = (Pacer.reply answer y).2 := by
  cases h with
  | ok h => exact ⟨rfl, h⟩
  | error h => exact ⟨rfl, h⟩

/-- A pacer with the same stack can be put in the place of the one that is seen. -/
theorem view_of_moves {p : Pacer σ} (h : Machine.Moves g.view.machine p.machine) :
    ({ g with pacer := p } : Rig σ).view = p := by
  have hshown : ({ g with pacer := p } : Rig σ).processor.shown = p.machine :=
    Processor.shown_of_stack h.stack
  unfold view
  rw [hshown]

variable (g)

theorem respond_of_not_runs {op : Operation} (h : op.runs = false) : g.respond op =
    ((g.view.respond op).1, { g with pacer := (g.view.respond op).2 }) := by
  cases op with
  | request r => cases r <;> first | rfl | cases h
  | frames => cases h
  | _ => rfl

/-- Every operation has the same answer, whatever the processor keeps besides. -/
theorem respond_view (op : Operation) : (g.respond op).1 = (g.view.respond op).1 ∧
    (g.respond op).2.view = (g.view.respond op).2 := by
  by_cases hop : op.runs = false
  · rw [g.respond_of_not_runs hop]
    exact ⟨rfl, view_of_moves (Pacer.moves_respond hop)⟩
  · cases op with
    | request r =>
      cases r with
      | step => exact reply_inStep _ g.step_inStep
      | frame => exact reply_inStep _ g.frame_inStep
      | reset =>
        have hview := congrArg (fun m => { g.pacer with machine := m }) g.processor.shown_reset
        exact ⟨rfl, hview⟩
      | _ => exact absurd rfl hop
    | frames count => exact reply_inStep _ (g.runFrames_inStep count.toNat)
    | _ => exact absurd rfl hop

theorem dialogue_view (ops : List Operation) : g.dialogue ops = g.view.dialogue ops := by
  induction ops generalizing g with
  | nil => rfl
  | cons op ops ih =>
    obtain ⟨hanswer, hview⟩ := g.respond_view op
    rw [dialogue, Pacer.dialogue, ih, hanswer, hview]

theorem reachable_after {o : Machine.Options} (ops : List Operation) {g : Rig σ}
    (h : g.view.machine.Reachable o) : (g.after ops).view.machine.Reachable o := by
  induction ops generalizing g with
  | nil => exact h
  | cons op ops ih =>
    refine ih ?_
    rw [(g.respond_view op).2]
    exact Pacer.reachable_respond op h

/-- Whatever was done with a machine, a reset and a new processor in its place come to the same:
the same can be seen at once, and behind all operations that follow the answers are the same and
the same can be seen. What a reset leaves behind in the processor has no part in it, and without
it, too, the pacer says the same. -/
theorem reset_as_renewed {o : Machine.Options} {g : Rig σ} (h : g.view.machine.Reachable o)
    (before ops : List Operation) :
    (g.after before).reset.view = (g.after before).renewed.view ∧
      (g.after before).reset.dialogue ops = (g.after before).renewed.dialogue ops ∧
      (g.after before).reset.dialogue ops =
        { (g.after before).view with
          machine := (g.after before).view.machine.reset : Pacer σ }.dialogue ops := by
  -- a new stack has sixteen cells, and a cleared one as many as before
  have hcapacity := (reachable_after before h).sound.capacity
  have hreset : (g.after before).reset.view = (g.after before).renewed.view :=
    congrArg (fun m => { (g.after before).pacer with machine := m })
      (Processor.shown_renewed _ hcapacity).symm
  have hmachine : (g.after before).reset.view =
      { (g.after before).view with machine := (g.after before).view.machine.reset } :=
    congrArg (fun m => { (g.after before).pacer with machine := m }) (Processor.shown_reset _)
  refine ⟨hreset, ?_, ?_⟩
  · rw [dialogue_view, dialogue_view, hreset]
  · rw [dialogue_view, hmachine]

/-- The processor used some of its cells before, and the instruction that it began last was at
another address. -/
def worn (p : Pacer σ) : Rig σ where
  pacer := p
  slots := ⟨Array.replicate 16 0x204, 0, Nat.zero_le _⟩
  latch := ⟨0x300, 0xF30A⟩

theorem shown_worn {p : Pacer σ} (h : p.machine.stack = .standard) :
    (worn p).processor.shown = p.machine := by
  refine Processor.shown_of_stack (p := (worn p).processor) (h.trans ?_)
  simp [processor, worn, Slots.shown, CallStack.standard, CallStack.empty]

theorem reset_as_renewed_worn : (worn .waiting).view.machine.Reachable {} ∧
    (worn .waiting).reset.latch ≠ (worn .waiting).renewed.latch ∧
    (worn .waiting).reset.dialogue [.request .step, .summary] =
      (worn .waiting).renewed.dialogue [.request .step, .summary] := by
  have hmachine : Pacer.waiting.machine = (Event.store16 0x200 0xF00A).after Machine.bare := by
    rw [Pacer.waiting]
  have hstack : ((Event.store16 0x200 0xF00A).after Machine.bare).stack = Machine.bare.stack :=
    Machine.Moves.stack (.event _ nofun nofun)
  have h : (worn .waiting).view.machine.Reachable {} := by
    change (worn .waiting).processor.shown.Reachable {}
    rw [shown_worn (by rw [hmachine, hstack]; rfl), hmachine]
    exact .event _ (.created Machine.create_bare)
  have hsame := (reset_as_renewed h [] [.request .step, .summary]).2.1
  exact ⟨h, by decide, hsame⟩

end Rig

end Chip8
