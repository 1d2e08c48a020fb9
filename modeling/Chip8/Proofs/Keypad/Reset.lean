import Chip8.Proofs.Keypad
import Mathlib.Data.List.Chain

/-! # Resets of the keypad

A reset lets go of all keys without a word, so a listener goes on with keys that are up long since,
and hears of them next that they go down once more. A listener keeps in step over a run exactly if
every reset of the run finds all keys up. -/

namespace Chip8

namespace Keypad

variable {p : Keypad} {ops : List Operation} {l : Nat}

/-- A listener keeps in step over a run with resets: it hears of a reset that every key comes up
that was down, at any time it has the keys as they are, and of no key it hears twice in a row that
it went down. -/
structure Heeded (p : Keypad) (listener : Nat) (ops : List Operation) : Prop where
  released : ∀ before after, ops = before ++ .reset :: after →
    heardBy listener ((p.run before).events .reset) =
      ((List.finRange 16).filter (p.run before).isDown).map fun k => ⟨k, false⟩
  view : ∀ before, before <+: ops →
    replay p.keys (heardBy listener (p.eventsOf before)) = (p.run before).keys
  byTurns : ∀ k, (turns k (heardBy listener (p.eventsOf ops))).IsChain
    fun earlier later => ¬ (earlier = true ∧ later = true)

/-- Every reset of the run finds all keys up. -/
def ResetsIdly (p : Keypad) (ops : List Operation) : Prop :=
  ∀ before after, ops = before ++ .reset :: after → ∀ k, (p.run before).isDown k = false

theorem heeded_of_resetsIdly (hl : l < p.listeners) (h : p.ResetsIdly ops) : p.Heeded l ops := by
  have hall : p.AnnouncesAll ops := by
    intro before op after he
    by_cases hop : op = .reset
    · rw [hop] at he ⊢
      exact announces_reset (h before after he)
    · exact announces_of_ne_reset hop
  constructor
  · intro before after he
    have hnone : (List.finRange 16).filter (p.run before).isDown = [] :=
      List.filter_eq_nil_iff.mpr fun k _ => Bool.eq_false_iff.mp (h before after he k)
    rw [hnone]
    rfl
  · intro before hprefix
    obtain ⟨after, rfl⟩ := hprefix
    refine (follows_run hl fun b o a he => ?_).view
    exact hall b o (a ++ after) (by rw [he, List.append_assoc]; rfl)
  · intro k
    have hturns := ((follows_run hl hall).byTurns k).tail
    refine hturns.imp fun earlier later hne hboth => hne ?_
    rw [hboth.1, hboth.2]

/-- As nobody hears of a reset, the replayed keys are behind it what they were before it. -/
theorem resetsIdly_of_view (h : ∀ before, before <+: ops →
    replay p.keys (heardBy l (p.eventsOf before)) = (p.run before).keys) : p.ResetsIdly ops := by
  intro before after he k
  have hbefore := h before ⟨.reset :: after, he.symm⟩
  have hafter := h (before ++ [.reset]) ⟨after, by rw [he, List.append_assoc]; rfl⟩
  have hevents : p.eventsOf (before ++ [.reset]) = p.eventsOf before := by
    rw [eventsOf_append]
    exact List.append_nil _
  rw [hevents, hbefore, run_append] at hafter
  exact (congrArg (·.get k) hafter).trans ((p.run before).isDown_reset k)

/-- Nobody hears of a reset. So a listener keeps in step, and has the keys as they are at any time,
exactly if every reset finds all keys up. -/
theorem heeded_iff (p : Keypad) (ops : List Operation) (hl : l < p.listeners) :
    (p.Heeded l ops ↔ p.ResetsIdly ops) ∧
    ((∀ before, before <+: ops →
      replay p.keys (heardBy l (p.eventsOf before)) = (p.run before).keys) ↔ p.ResetsIdly ops) ∧
    ∀ q : Keypad, q.perform .reset = (.done, [], { q with keys := Vector.replicate 16 false }) :=
  ⟨⟨fun h => resetsIdly_of_view h.view, heeded_of_resetsIdly hl⟩,
    ⟨resetsIdly_of_view, fun h => (heeded_of_resetsIdly hl h).view⟩, fun _ => rfl⟩

/-- One listener, and no key is down. -/
def attended : Keypad := { listeners := 1 }

theorem heeded_iff_attended : 0 < attended.listeners ∧
    attended.Heeded 0 [.set 4 true, .set 4 false, .reset, .set 4 true] := by
  have hl : 0 < attended.listeners := by decide
  refine ⟨hl, (heeded_iff attended _ hl).1.mpr fun before after he k => ?_⟩
  -- the one place where the run has a reset
  rcases before with _ | ⟨a, _ | ⟨b, _ | ⟨c, _ | ⟨d, before⟩⟩⟩⟩
  · cases he
  · cases he
  · cases he
    revert k
    decide
  · cases he
  · simp at he

/-- A key that was let go by a reset goes down twice for the listener, which meanwhile has it
down. -/
theorem not_heeded_held :
    ¬ attended.Heeded 0 [.set 4 true, .reset, .set 4 true] ∧
    (attended.run [.set 4 true]).isDown 4 = true ∧
    (attended.run [.set 4 true]).events .reset = [] ∧
    (replay attended.keys (heardBy 0 (attended.eventsOf [.set 4 true, .reset]))).get 4 = true ∧
    (attended.run [.set 4 true, .reset]).isDown 4 = false ∧
    turns 4 (heardBy 0 (attended.eventsOf [.set 4 true, .reset, .set 4 true])) = [true, true] := by
  refine ⟨fun h => ?_, by decide, by decide, by decide, by decide, by decide⟩
  have hview := h.view [.set 4 true, .reset] ⟨[.set 4 true], rfl⟩
  exact absurd hview (by decide)

end Keypad

end Chip8
