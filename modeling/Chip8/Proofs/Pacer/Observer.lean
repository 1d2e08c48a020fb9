import Chip8.Proofs.Pacer.Lockstep

/-! # Observers

A trace, a watcher and the debug lines see what a pacer does and have no part in it. Two
pacers that differ in nothing else answer the same requests in the same way and leave the
same machine behind each of them, whether or not the cycles go through. -/

namespace Chip8.Pacer

variable {σ τ : Type}

/-- What requests show from outside: behind each of them the reply, the machine and the
number of frames so far. -/
def transcript : List Request → Pacer σ → List (Reply × Machine × Nat)
  | [], _ => []
  | r :: rs, p =>
    let (answer, p) := p.perform r
    (answer, p.machine, p.frames) :: transcript rs p

/-- The same pacer but for trace, watcher, debug categories and what was printed. -/
abbrev Alike (p : Pacer σ) (q : Pacer τ) : Prop := Beside Eq p q

/-- Two machines that are the same one do the same. -/
theorem lockstep_eq : Lockstep Eq where
  cycle {m t} h := by
    rw [h]
    cases Machine.cycle t with
    | ok i u => exact .ok rfl
    | error f u => exact .error rfl
  tick h := congrArg Machine.tick h
  reset h := congrArg Machine.reset h
  keypad h := congrArg Machine.keypad h
  setKeypad h keypad := congrArg (fun m : Machine => { m with keypad }) h

theorem Alike.transcript {p : Pacer σ} {q : Pacer τ} (h : p.Alike q) (rs : List Request) :
    p.transcript rs = q.transcript rs := by
  induction rs generalizing p q with
  | nil => rfl
  | cons r rs ih =>
    obtain ⟨hreply, hnext⟩ := h.perform lockstep_eq r
    change ((p.perform r).1, (p.perform r).2.machine, (p.perform r).2.frames) ::
        (p.perform r).2.transcript rs =
      ((q.perform r).1, (q.perform r).2.machine, (q.perform r).2.frames) ::
        (q.perform r).2.transcript rs
    rw [hreply, hnext.machine, hnext.frames, ih hnext]

theorem alike_watched (m : Machine) (cyclesPerSecond timerRate : Int)
    (trace trace' : Option Trace) (debug debug' : Debug.Categories)
    (watcher : Option (Watcher σ)) (watcher' : Option (Watcher τ)) :
    (∃ e, watched m cyclesPerSecond timerRate trace debug watcher = .error e ∧
      watched m cyclesPerSecond timerRate trace' debug' watcher' = .error e) ∨
    ∃ p q, watched m cyclesPerSecond timerRate trace debug watcher = .ok p ∧
      watched m cyclesPerSecond timerRate trace' debug' watcher' = .ok q ∧ p.Alike q :=
  beside_watched rfl cyclesPerSecond timerRate trace trace' debug debug' watcher watcher'

/-- Whatever is traced, watched or printed, the same requests to the same machine at the
same rates have the same replies, and behind each of them the machine and the number of
frames are the same. -/
theorem observers_bear_on_nothing (m : Machine) (cyclesPerSecond timerRate : Int)
    (trace trace' : Option Trace) (debug debug' : Debug.Categories)
    (watcher : Option (Watcher σ)) (watcher' : Option (Watcher τ)) (rs : List Request) :
    (watched m cyclesPerSecond timerRate trace debug watcher).map (transcript rs) =
      (watched m cyclesPerSecond timerRate trace' debug' watcher').map (transcript rs) := by
  obtain ⟨e, hp, hq⟩ | ⟨p, q, hp, hq, h⟩ :=
    alike_watched m cyclesPerSecond timerRate trace trace' debug debug' watcher watcher'
  · rw [hp, hq]
    rfl
  · rw [hp, hq]
    exact congrArg Except.ok (h.transcript rs)

end Chip8.Pacer
