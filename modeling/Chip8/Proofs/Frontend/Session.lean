import Chip8.Frontend.Session
import Chip8.Proofs.Pacer.Lockstep

/-! # Sessions over a pacer

A session sets up a machine with a pacer over it and hands its frames to the pacer. What it
makes of them is told by any pacer that goes in step with its own. Where that one faults the
session stops, prints a report and answers with an error of its own; the report reads the
machine that met the fault and leaves it as it is. -/

namespace Chip8.Session

open Pacer (Beside Lockstep)

/-! ## The machine -/

section

variable {s : Session}

theorem machine?_of_ready {p : Pacer} (hs : s.stage = .ready p) : s.machine? = some p.machine := by
  unfold machine?
  rw [hs]

theorem frameInterval_of_ready {p : Pacer} (hs : s.stage = .ready p)
    (hrate : p.timerRate < Limit.float) : ∃ seconds, frameInterval s = .ok seconds s := by
  refine ⟨1.0 / Float.ofInt p.timerRate, ?_⟩
  unfold frameInterval Pacer.frameInterval
  rw [hs]
  dsimp only
  rw [if_neg (Int.not_le.mpr hrate)]

/-- Where there is a program there is a machine, or the error tells why not. -/
theorem createMachine_eq {path : RomPath} (hrom : s.settings.rom = some path)
    (data : List UInt8) (display : Display) :
    createMachine (.data data) display s =
      match Machine.create (s.settings.options path data display) with
      | .error e => .error (.loadFailed path e) s
      | .ok m =>
        match Pacer.create m s.settings.cyclesPerSecond s.settings.timerRate (trace? s.debug)
            s.debug false with
        | .error e => .error (.rate e) { s with
            printed := s.printed ++ (m.createLog s.debug).map Emission.line
            stage := .assembled m }
        | .ok p => .ok () { s with
            printed := s.printed ++ (m.createLog s.debug).map Emission.line
            stage := .ready p } := by
  have hread : (ofExcept (read path (.data data)) : Action (List UInt8)) = pure data := rfl
  unfold createMachine
  rw [get_bind, hrom]
  dsimp only
  rw [hread, pure_bind]
  cases Machine.create (s.settings.options path data display) with
  | error e => rfl
  | ok m =>
    dsimp only
    cases Pacer.create m s.settings.cyclesPerSecond s.settings.timerRate (trace? s.debug) s.debug
      false <;> rfl

end

/-! ## Frames -/

section

variable {σ α β γ δ : Type} {R : Machine → Machine → Prop} {debug : Debug.Categories}
  {p q : Pacer σ} {s t : Session}

/-- The session has a pacer that goes in step with this one. -/
structure Follows (R : Machine → Machine → Prop) (debug : Debug.Categories) (p : Pacer σ)
    (s : Session) : Prop where
  debug : s.debug = debug
  pacer : ∃ q : Pacer, s.stage = .ready q ∧ Beside R p q

/-- A fault has ended the session at this machine, and its report was printed last. -/
structure Halted (R : Machine → Machine → Prop) (debug : Debug.Categories) (e : Fault)
    (m : Machine) (s : Session) : Prop where
  stopped : s.running = false
  reported : ∃ (q : Pacer) (before : Array Emission), s.stage = .ready q ∧ R m q.machine ∧
    s.printed = before ++ (report debug q e).map Emission.line

/-- What a session makes of the outcome of a pacer: an answer of its own, or an error that
names the fault. -/
inductive Tells (R : Machine → Machine → Prop) (debug : Debug.Categories)
    (After : α → Session → Pacer σ → Prop) :
    EStateM.Result Fault (Pacer σ) β → EStateM.Result SessionError Session α → Prop
  | ok {b : β} {a : α} {q : Pacer σ} {t : Session} (h : After a t q) :
    Tells R debug After (.ok b q) (.ok a t)
  | error {e : Fault} {q : Pacer σ} {t : Session} (h : Halted R debug e q.machine t) :
    Tells R debug After (.error e q) (.error (.stopped e) t)

theorem Tells.bind {After : α → Session → Pacer σ → Prop} {After' : δ → Session → Pacer σ → Prop}
    {x : EStateM Fault (Pacer σ) β} {next : β → EStateM Fault (Pacer σ) γ} {y : Action α}
    {next' : α → Action δ} (first : Tells R debug After (x p) (y s))
    (second : ∀ b a t q, After a t q → Tells R debug After' (next b q) (next' a t)) :
    Tells R debug After' ((x >>= next) p) ((y >>= next') s) := by
  change Tells R debug After' (EStateM.bind x next p) (EStateM.bind y next' s)
  unfold EStateM.bind
  generalize x p = outcome at first
  generalize y s = answer at first
  cases first with
  | ok h => exact second _ _ _ _ h
  | error h => exact .error h

/-- The session goes on where the pacer is done. -/
theorem Tells.bind_right {After : α → Session → Pacer σ → Prop}
    {After' : δ → Session → Pacer σ → Prop} {x : EStateM Fault (Pacer σ) β} {y : Action α}
    {next' : α → Action δ} (first : Tells R debug After (x p) (y s))
    (second : ∀ a t q, After a t q → ∃ d u, next' a t = .ok d u ∧ After' d u q) :
    Tells R debug After' (x p) ((y >>= next') s) := by
  rw [← bind_pure x]
  refine first.bind fun b a t q h => ?_
  obtain ⟨d, u, hnext, hafter⟩ := second a t q h
  rw [hnext]
  exact .ok hafter

/-- What the pacer puts together behind its outcome is not told. -/
theorem Tells.map_left {After : α → Session → Pacer σ → Prop} {x : EStateM Fault (Pacer σ) β}
    {y : EStateM.Result SessionError Session α} (h : Tells R debug After (x p) y) (f : β → γ) :
    Tells R debug After ((x >>= fun b => pure (f b)) p) y := by
  change Tells R debug After (EStateM.bind x (fun b => pure (f b)) p) y
  unfold EStateM.bind
  generalize x p = outcome at h
  cases h with
  | ok h => exact .ok h
  | error h => exact .error h

theorem runFrame_tells (hR : Lockstep R) (h : Follows R debug p s) :
    Tells R debug (fun _ t q => Follows R debug q t ∧ t.running = s.running) (Pacer.frame p)
      (runFrame s) := by
  obtain ⟨rfl, q, hstage, hbeside⟩ := h
  have hframe := hbeside.frame hR
  unfold runFrame
  rw [hstage]
  dsimp only
  generalize Pacer.frame p = x at hframe
  generalize Pacer.frame q = y at hframe
  cases hframe with
  | ok h => exact .ok ⟨⟨rfl, _, rfl, { h with }⟩, rfl⟩
  | error h => exact .error ⟨rfl, _, _, rfl, h.machine, rfl⟩

end

end Chip8.Session
