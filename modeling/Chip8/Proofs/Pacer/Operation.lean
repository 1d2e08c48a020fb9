import Chip8.Machine.Summary
import Chip8.Proofs.Machine.Reachable
import Chip8.Proofs.Memory.Access
import Chip8.Proofs.Pacer.Lockstep

/-! # Operations on a pacer

Whatever can be asked of a pacer, of its trace and of its machine is one operation, and has one
answer. Only steps, frames and resets do more to the machine than a single event, and an event
other than a cycle and a reset does not touch the stack. -/

namespace Chip8

/-- Something that is asked of a pacer or of its machine. -/
inductive Operation
  | request (r : Request)
  | frames (count : Int)
  | isPressed (key : Int)
  | readRegister (index : Int)
  | writeRegister (index value : Int)
  | access (a : Access)
  | traceLines (limit : Option Int)
  | summary
deriving DecidableEq

/-- The operation carries out cycles, or it is a reset. -/
def Operation.runs : Operation → Bool
  | request .step | request .frame | request .reset | frames _ => true
  | _ => false

/-- What is answered, or the fault or error in which it ends. -/
inductive Answer
  | reply (r : Reply)
  | pressed (x : Except KeyError Bool)
  | values (x : Except Fault (List Nat))
  | lines (text : List String)

namespace Machine

theorem leftBy_peek {α : Type} (read : Bus → Except MemoryFault α) (m : Machine) :
    leftBy (peek read) m = m := by
  unfold leftBy peek
  cases read m.bus <;> rfl

theorem leftBy_readRegister (index : Int) (m : Machine) :
    leftBy (readRegister index) m = m := by
  unfold leftBy readRegister
  by_cases hi : 0 ≤ index ∧ index < 16
  · rw [if_pos hi]
    rfl
  · rw [if_neg hi]
    rfl

/-- Apart from cycles and resets, an operation is one event at most. -/
inductive Moves (m : Machine) : Machine → Prop
  | still : Moves m m
  | event (e : Event) (hc : e ≠ .cycle) (hr : e ≠ .reset) : Moves m (e.after m)

theorem Moves.stack {m t : Machine} (h : Moves m t) : t.stack = m.stack := by
  cases h with
  | still => rfl
  | event e hc hr => rw [(Event.after_aside m hc hr).rest]

theorem Moves.reachable {o : Options} {m t : Machine} (h : Moves m t) (hm : m.Reachable o) :
    t.Reachable o := by
  cases h with
  | still => exact hm
  | event e => exact .event e hm

end Machine

namespace Pacer

variable {σ : Type}

/-- The numbers that an action on the machine answers. -/
def values {α : Type} (p : Pacer σ) (numbers : α → List Nat) (act : Machine.Action α) :
    Answer × Pacer σ :=
  match act p.machine with
  | .ok a machine => (.values (.ok (numbers a)), { p with machine })
  | .error f machine => (.values (.error f), { p with machine })

def access (p : Pacer σ) : Access → Answer × Pacer σ
  | .load8 a => p.values (fun b => [b.toNat]) (Machine.peek (·.load8 a))
  | .load16 a => p.values (fun w => [w]) (Machine.peek (·.load16 a))
  | .loadBlock start length =>
    p.values (·.map (·.toNat)) (Machine.peek (·.loadBlock start length))
  | .store8 a v => p.values (fun _ => []) (Machine.onBus (Bus.store8 a v))
  | .store16 a v => p.values (fun _ => []) (Machine.onBus (Bus.store16 a v))
  | .storeBlock start data => p.values (fun _ => []) (Machine.onBus (Bus.storeBlock start data))

def respond (p : Pacer σ) : Operation → Answer × Pacer σ
  | .request r =>
    let (answer, p) := p.perform r
    (.reply answer, p)
  | .frames count =>
    let (answer, p) := reply .cycles (runCount count p)
    (.reply answer, p)
  | .isPressed key => (.pressed (p.machine.keypad.isPressed key), p)
  | .readRegister index => p.values (fun b => [b.toNat]) (Machine.readRegister index)
  | .writeRegister index value => p.values (fun _ => []) (Machine.writeRegister index value)
  | .access a => p.access a
  | .traceLines limit => (.lines ((p.trace.map (·.lines limit)).getD []), p)
  | .summary => (.lines p.machine.summary, p)

/-- What operations show: behind each of them the answer and the pacer. -/
def dialogue : List Operation → Pacer σ → List (Answer × Pacer σ)
  | [], _ => []
  | op :: ops, p => p.respond op :: dialogue ops (p.respond op).2

/-! ## What operations do to the machine -/

section

variable {p : Pacer σ} {o : Machine.Options}

theorem machine_values {α : Type} (numbers : α → List Nat) (act : Machine.Action α) :
    (p.values numbers act).2.machine = leftBy act p.machine := by
  unfold values leftBy
  cases act p.machine <;> rfl

theorem moves_access (a : Access) : Machine.Moves p.machine (p.access a).2.machine := by
  cases a with
  | load8 | load16 | loadBlock =>
    rw [access, machine_values, Machine.leftBy_peek]
    exact .still
  | store8 a v =>
    rw [access, machine_values]
    exact .event (.store8 a v) nofun nofun
  | store16 a v =>
    rw [access, machine_values]
    exact .event (.store16 a v) nofun nofun
  | storeBlock start data =>
    rw [access, machine_values]
    exact .event (.storeBlock start data) nofun nofun

theorem moves_setKey (key : Int) (pressed : Bool) :
    Machine.Moves p.machine (p.perform (.setKey key pressed)).2.machine := by
  have hkey : (p.perform (.setKey key pressed)).2.machine =
      (Event.setKey key pressed).after p.machine := by
    unfold perform Event.after
    dsimp only
    cases p.machine.keypad.setIndex key pressed <;> rfl
  rw [hkey]
  exact .event _ nofun nofun

theorem moves_respond {op : Operation} (h : op.runs = false) :
    Machine.Moves p.machine (p.respond op).2.machine := by
  cases op with
  | request r =>
    cases r with
    | step | frame | reset => cases h
    | tick => exact .event .tick nofun nofun
    | setKey key pressed => exact moves_setKey key pressed
    | setNamedKey name pressed => exact .event (.setNamedKey name pressed) nofun nofun
    | releaseKeys => exact .event .releaseKeys nofun nofun
  | frames => cases h
  | readRegister index =>
    change Machine.Moves _ (p.values _ (Machine.readRegister index)).2.machine
    rw [machine_values, Machine.leftBy_readRegister]
    exact .still
  | writeRegister index value =>
    change Machine.Moves _ (p.values _ (Machine.writeRegister index value)).2.machine
    rw [machine_values]
    exact .event (.writeRegister index value) nofun nofun
  | access a => exact moves_access a
  | isPressed | traceLines | summary => exact .still

/-! Whatever operations are done, the machine stays one that can come about. -/

theorem reply_snd {α : Type} (answer : α → Reply) (act : EStateM Fault (Pacer σ) α)
    (p : Pacer σ) : (reply answer (act p)).2 = leftBy act p := by
  unfold reply leftBy
  cases act p <;> rfl

theorem reachable_frame (h : p.machine.Reachable o) : (leftBy frame p).machine.Reachable o :=
  frame_keeps (fun _ hm => .event .cycle hm) (fun _ hm => .event .tick hm) p h

theorem reachable_runFrames (n : Nat) (h : p.machine.Reachable o) :
    (leftBy (runFrames n) p).machine.Reachable o := by
  induction n generalizing p with
  | zero => exact h
  | succ n ih =>
    refine leftBy_bind (R := Keeps (·.Reachable o)) Keeps.trans reachable_frame ?_ h
    intro first q _ hq
    refine leftBy_bind (R := Keeps (·.Reachable o)) Keeps.trans ih ?_ hq
    exact fun _ _ _ => id

theorem reachable_respond (op : Operation) (h : p.machine.Reachable o) :
    (p.respond op).2.machine.Reachable o := by
  by_cases hop : op.runs = false
  · exact (moves_respond hop).reachable h
  · cases op with
    | request r =>
      cases r with
      | step =>
        change (reply .instruction (step p)).2.machine.Reachable o
        rw [reply_snd, machine_step]
        exact .event .cycle h
      | frame =>
        change (reply .cycles (frame p)).2.machine.Reachable o
        rw [reply_snd]
        exact reachable_frame h
      | reset => exact .event .reset h
      | _ => exact absurd rfl hop
    | frames count =>
      change (reply .cycles (runCount count p)).2.machine.Reachable o
      rw [reply_snd]
      exact reachable_runFrames count.toNat h
    | _ => exact absurd rfl hop

end

end Pacer

end Chip8
