import Chip8.Proofs.Machine.Unread
import Chip8.Proofs.Screen.Display

/-! # Where the picture goes

A machine draws and clears, and is told whether a lit pixel went out. Where its picture goes
it is never told, so machines that differ in their surfaces only do the same. -/

namespace Chip8.Machine

/-- The machine without the surface that its picture goes to. -/
def unshown (m : Machine) : Machine := { m with display := m.display.core }

/-- The second machine is the first one with its picture going elsewhere. -/
def Mirrors (m t : Machine) : Prop :=
  ∃ d : Display, d.core = m.display.core ∧ t = { m with display := d }

variable {m t : Machine}

theorem Mirrors.unshown_eq (h : Mirrors m t) : m.unshown = t.unshown := by
  obtain ⟨d, hd, rfl⟩ := h
  unfold unshown
  rw [hd]

/-- Displays that are the same but for their surfaces, and all else the same. -/
def surfaces : Leeway where
  sound := Eq
  cycles := Eq
  display d d' := d.core = d'.core

theorem surfaces_kept : surfaces.Kept where
  loaded _ := rfl
  tick h := by
    cases h
    rfl
  zero := rfl
  succ h := congrArg (· + 1) h
  clear {d d'} h := by
    change d.clear.core = d'.clear.core
    rw [Display.core_clear, h, ← Display.core_clear]
  drawRows h x y rows := Display.core_drawRows h x y rows

theorem mirrors_iff : Mirrors m t ↔ Within surfaces m t := by
  constructor
  · intro h
    obtain ⟨d, hd, rfl⟩ := h
    exact .intro rfl rfl hd.symm
  · intro h
    obtain ⟨rfl, rfl, hd⟩ := h
    exact ⟨_, hd.symm, rfl⟩

theorem mirrors_lockstep : Pacer.Lockstep Mirrors := by
  have h : Mirrors = Within surfaces := funext fun _ => funext fun _ => propext mirrors_iff
  rw [h]
  exact within_lockstep surfaces_kept

end Chip8.Machine
