import Chip8.Proofs.Machine.CallReturn

/-! # Timers over a run

A tick takes one off a timer that is not at zero, and a cycle that loads the timer sets it.
Nothing else in a run without resets moves it, neither another instruction nor a fault. So a
timer shows what it was last loaded with, less the ticks since then, and it stops at zero. -/

namespace Chip8

inductive Timer
  | delay
  | sound
deriving DecidableEq

namespace Timer

open Event
open InstructionTable (Decodes)

def value : Timer → CpuState → Int
  | delay, c => c.delay
  | sound, c => c.sound

/-- The word is FX15, which loads the delay timer, or FX18, which loads the sound timer. -/
def isLoad : Timer → Nat → Bool
  | delay, w => w / 4096 == 0xF && w % 256 == 0x15
  | sound, w => w / 4096 == 0xF && w % 256 == 0x18

def routine : Timer → Routine
  | delay => .setDelay
  | sound => .setSound

/-- What a run last loaded into the timer, and the ticks since then. Without a load that is
what the timer showed at the start, and all the ticks. -/
inductive Latest (k : Timer) (m : Machine) (es : List Event) : Int → Nat → Prop
  | start (hn : tally k.isLoad m es = 0) : Latest k m es (k.value m.cpu) (es.count .tick)
  | load (before after : List Event) {w : Nat} (hes : es = before ++ .cycle :: after)
      (hw : executed (run m before) .cycle = some w) (hl : k.isLoad w = true)
      (hn : tally k.isLoad (run m (before ++ [.cycle])) after = 0) :
      Latest k m es ((run m before).cpu.v.get (Operands.ofWord w).x).toNat (after.count .tick)

variable {k : Timer} {m t : Machine} {e : Event} {es : List Event} {w : Nat}

/-! ## One event -/

theorem isLoad_iff {r : Routine} (hw : w < 65536) (hd : Decodes w r) :
    k.isLoad w = true ↔ r = k.routine := by
  cases k with
  | delay =>
    have ha : Routine.setDelay.pattern.accepts w = true ↔ _ :=
      Routine.accepts_miscellaneous hw 0x1 0x5 (by decide) (by decide)
    rw [isLoad, Bool.and_eq_true, beq_iff_eq, beq_iff_eq]
    exact ha.symm.trans (hd.accepts_iff (by decide))
  | sound =>
    have ha : Routine.setSound.pattern.accepts w = true ↔ _ :=
      Routine.accepts_miscellaneous hw 0x1 0x8 (by decide) (by decide)
    rw [isLoad, Bool.and_eq_true, beq_iff_eq, beq_iff_eq]
    exact ha.symm.trans (hd.accepts_iff (by decide))

theorem run_load {pc : Int} (h : k.routine.run pc w m = .ok () t) :
    k.value t.cpu = (m.cpu.v.get (Operands.ofWord w).x).toNat := by
  cases k with
  | delay => cases h; rfl
  | sound => cases h; rfl

theorem run_other {r : Routine} {pc : Int} (hr : r ≠ k.routine) (h : r.run pc w m = .ok () t) :
    k.value t.cpu = k.value m.cpu := by
  cases k with
  | delay =>
    refine Routine.run_same (p := .delay) h ?_
    cases r <;> first | decide | exact absurd rfl hr
  | sound =>
    refine Routine.run_same (p := .sound) h ?_
    cases r <;> first | decide | exact absurd rfl hr

theorem value_tick : k.value m.tick.cpu =
    if 0 < k.value m.cpu then k.value m.cpu - 1 else k.value m.cpu := by
  cases k <;> rfl

/-- What an event does to a timer. -/
inductive Step (k : Timer) (m : Machine) (e : Event) (t : Machine) : Prop
  | still (he : e ≠ .tick) (hl : (e.executed m).any k.isLoad = false)
      (h : k.value t.cpu = k.value m.cpu)
  | tick (he : e = .tick) (hl : (e.executed m).any k.isLoad = false)
      (h : k.value t.cpu = if 0 < k.value m.cpu then k.value m.cpu - 1 else k.value m.cpu)
  | load {w : Nat} (he : e = .cycle) (hw : e.executed m = some w) (hl : k.isLoad w = true)
      (h : k.value t.cpu = (m.cpu.v.get (Operands.ofWord w).x).toNat)

theorem step_cycle {i : Instruction} (ht : m.table = .standard) (hc : Machine.cycle m = .ok i t) :
    Step k m .cycle t := by
  obtain ⟨w, r, u, hf, hrun, rfl⟩ := Machine.cycle_eq_ok.mp hc
  have hex : executed m .cycle = some w := executed_eq_some.mpr ⟨rfl, hf.word, i, _, hc⟩
  have hload := isLoad_iff (k := k) (Bus.load16_lt hf.word) (hf.decodes ht)
  by_cases hr : r = k.routine
  · subst hr
    exact .load rfl hex (hload.mpr rfl) (run_load (m := m.behind) (t := u) hrun)
  · have hn : k.isLoad w = false := by rwa [← Bool.not_eq_true, hload]
    have hs : k.value u.cpu = k.value m.behind.cpu := run_other hr hrun
    exact .still (by decide) (by rw [hex]; exact hn) (hs.trans (by cases k <;> rfl))

/-- A fault moves no timer, whatever it leaves in memory. -/
theorem step_event (ht : m.table = .standard) (he : e ≠ .reset) : Step k m e (e.after m) := by
  by_cases hc : e = .cycle
  · rw [hc]
    cases hcyc : Machine.cycle m with
    | ok i t =>
      rw [after_of_ok hcyc]
      exact step_cycle ht hcyc
    | error f t =>
      have hex := executed_of_error hcyc
      rw [after_of_error hcyc]
      refine .still (by decide) (by rw [hex]; rfl) ?_
      rw [Machine.cycle_error_rest hcyc]
  · have hex : e.executed m = none := executed_of_ne_cycle hc
    have hn : (e.executed m).any k.isLoad = false := by rw [hex]; rfl
    by_cases htick : e = .tick
    · refine .tick htick hn ?_
      rw [htick]
      exact value_tick
    · refine .still htick hn ?_
      rcases (after_aside m hc he).timers with ⟨hd, hs⟩ | ⟨h, _⟩
      · cases k with
        | delay => exact hd
        | sound => exact hs
      · exact absurd h htick

/-! ## Runs -/

theorem tally_cons_eq_zero {kind : Nat → Bool} : tally kind m (e :: es) = 0 ↔
    (e.executed m).any kind = false ∧ tally kind (e.after m) es = 0 := by
  change (if (e.executed m).any kind then 1 else 0) + tally kind (e.after m) es = 0 ↔ _
  cases (e.executed m).any kind with
  | false => simp
  | true => simp

/-- Where the timer is not loaded it counts down the ticks. -/
theorem value_run_of_not_loaded (hes : .reset ∉ es) : ∀ {m : Machine}, m.table = .standard →
    0 ≤ k.value m.cpu → tally k.isLoad m es = 0 →
      k.value (run m es).cpu = max 0 (k.value m.cpu - es.count .tick) := by
  induction es with
  | nil =>
    intro m _ h0 _
    change k.value m.cpu = max 0 (k.value m.cpu - (0 : Nat))
    omega
  | cons e es ih =>
    intro m ht h0 hn
    obtain ⟨hnow, hlater⟩ := tally_cons_eq_zero.mp hn
    have he : e ≠ .reset := fun h => hes (h ▸ List.mem_cons_self)
    have hrest := @ih (fun h => hes (List.mem_cons_of_mem e h)) (e.after m)
      ((table_after m e).trans ht)
    rw [run_cons]
    cases step_event (k := k) ht he with
    | still hne _ hs =>
      rw [hrest (by omega) hlater, hs, List.count_cons_of_ne hne]
    | tick htick _ hs =>
      rw [hrest (by rw [hs]; split <;> omega) hlater, hs, htick, List.count_cons_self]
      split <;> omega
    | load _ hw hl _ =>
      rw [hw, Option.any_some, hl] at hnow
      cases hnow

theorem exists_latest (k : Timer) (m : Machine) (es : List Event) : ∃ d t, Latest k m es d t := by
  induction es generalizing m with
  | nil => exact ⟨_, _, .start rfl⟩
  | cons e es ih =>
    obtain ⟨d, t, h⟩ := ih (e.after m)
    cases h with
    | load before after hes hw hl hn =>
      exact ⟨_, _, .load (e :: before) after (congrArg (e :: ·) hes) hw hl hn⟩
    | start hn =>
      by_cases hnow : (e.executed m).any k.isLoad = true
      · cases hw : e.executed m with
        | none =>
          rw [hw] at hnow
          cases hnow
        | some w =>
          rw [hw] at hnow
          obtain ⟨rfl, _⟩ := executed_eq_some.mp hw
          exact ⟨_, _, .load [] es rfl hw hnow hn⟩
      · exact ⟨_, _, .start (tally_cons_eq_zero.mpr ⟨Bool.eq_false_iff.mpr hnow, hn⟩)⟩

/-- Over a run without resets the timer shows what it was last loaded with less the ticks since
then, and zero when there were as many or more. -/
theorem value_run (k : Timer) {m : Machine} (ht : m.table = .standard) (h0 : 0 ≤ k.value m.cpu)
    {es : List Event} (hes : .reset ∉ es) :
    (∃ d t, Latest k m es d t) ∧
      ∀ d t, Latest k m es d t → k.value (run m es).cpu = max 0 (d - t) := by
  refine ⟨exists_latest k m es, fun d t h => ?_⟩
  cases h with
  | start hn => exact value_run_of_not_loaded hes ht h0 hn
  | @load before after w he hw hl hn =>
    subst he
    have hbefore : (run m before).table = .standard := (table_run m before).trans ht
    have hafter : .reset ∉ after := fun h => hes (by simp [h])
    have hload : k.value (Event.cycle.after (run m before)).cpu =
        ((run m before).cpu.v.get (Operands.ofWord w).x).toNat := by
      cases step_event (k := k) (e := .cycle) hbefore (by decide) with
      | still _ hno _ =>
        rw [hw, Option.any_some, hl] at hno
        cases hno
      | tick he _ _ => cases he
      | load _ hw' _ h =>
        obtain rfl := Option.some.inj (hw.symm.trans hw')
        exact h
    rw [run_append, run_cons, run_nil] at hn
    rw [run_behind, value_run_of_not_loaded hafter ((table_after _ _).trans hbefore)
      (by rw [hload]; omega) hn, hload]

/-- A machine that is about to load the delay timer, which is running, with two. -/
def loading : Machine :=
  { Machine.bare with
    bus := Machine.wordBus 0xF3 0x15
    cpu := { v := setAt (Vector.replicate 16 0) (nibbleOf 3) 2, delay := 5 } }

theorem loading_latest : Latest .delay loading [.tick, .cycle, .tick] 2 1 := by
  have hd : Decodes 0xF315 .setDelay := InstructionTable.decodes_of_accepts (by decide) (by decide)
  have hw : loading.tick.bus.load16 loading.tick.cpu.pc = .ok 0xF315 :=
    Machine.load16_wordBus 0xF3 0x15
  obtain ⟨i, hf⟩ := Machine.finds_of_decodes (m := loading.tick) (w := 0xF315) rfl hw hd
  have hc := Machine.cycle_eq_ok.mpr ⟨_, _, _, hf, rfl, rfl⟩
  exact .load [.tick] [.tick] rfl (executed_eq_some.mpr ⟨rfl, hw, i, _, hc⟩) rfl rfl

theorem value_run_loading : loading.table = .standard ∧ 0 ≤ delay.value loading.cpu ∧
    .reset ∉ [Event.tick, .cycle, .tick] ∧
      delay.value (run loading [.tick, .cycle, .tick]).cpu = 1 := by
  have ht : loading.table = .standard := rfl
  have h0 : 0 ≤ delay.value loading.cpu := by decide
  have hes : .reset ∉ [Event.tick, .cycle, .tick] := by decide
  have hvalue := (value_run delay ht h0 hes).2 2 1 loading_latest
  exact ⟨ht, h0, hes, hvalue.trans (by decide)⟩

end Timer

end Chip8
