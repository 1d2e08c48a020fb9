import Chip8.Proofs.Machine.Event
import Chip8.Proofs.Machine.FaultDomain
import Chip8.Proofs.Pacer.Lockstep

/-! # Frames

A frame is a number of cycles with one tick behind them, and a run of frames is the events of
its frames one after another. If a cycle faults, the events before it were carried out and none
behind it were, so the frame that is cut off is neither ticked nor counted. -/

namespace Chip8

namespace Event

/-- All cycles of the run are carried out. -/
def Carried (m : Machine) : List Event → Prop
  | [] => True
  | e :: es => (e = cycle → ∃ i t, Machine.cycle m = .ok i t) ∧ Carried (e.after m) es

/-- The events of some frames of `c` cycles, and of the first `j` cycles of one more. -/
def schedule (c : Nat) : Nat → Nat → List Event
  | 0, j => List.replicate j cycle
  | f + 1, j => (List.replicate c cycle ++ [tick]) ++ schedule c f j

theorem carried_cycle {m t : Machine} {i : Instruction} {es : List Event}
    (h : Machine.cycle m = .ok i t) (hes : Carried t es) : Carried m (cycle :: es) :=
  ⟨fun _ => ⟨i, t, h⟩, by rw [after_of_ok h]; exact hes⟩

theorem carried_append {m : Machine} {es fs : List Event} :
    Carried m (es ++ fs) ↔ Carried m es ∧ Carried (run m es) fs := by
  induction es generalizing m with
  | nil => exact (and_iff_right trivial).symm
  | cons e es ih =>
    change (_ ∧ Carried (e.after m) (es ++ fs)) ↔ (_ ∧ _) ∧ Carried (run (e.after m) es) fs
    rw [ih, and_assoc]

/-- Before each cycle of a run that is carried out, the next cycle goes through. -/
theorem Carried.cycle_eq_ok {m : Machine} {es fs : List Event} (h : Carried m es)
    (hfs : fs ++ [cycle] <+: es) : ∃ i t, Machine.cycle (run m fs) = .ok i t := by
  obtain ⟨gs, rfl⟩ := hfs
  exact (carried_append.mp (carried_append.mp h).1).2.1 rfl

/-- A run that is carried out goes no further than to the first cycle that stops. -/
theorem Carried.eq_of_stops {m t : Machine} {es fs : List Event} {f : Fault} (h : Carried m es)
    (hstops : Machine.cycle (run m fs) = .error f t) (hfs : fs ++ [cycle] <+: es ++ [cycle]) :
    fs = es := by
  obtain heq | hwithin := List.prefix_concat_iff.mp hfs
  · exact List.append_cancel_right heq
  · obtain ⟨i, t, hok⟩ := h.cycle_eq_ok hwithin
    cases hok.symm.trans hstops

theorem count_cycle_schedule (c f j : Nat) : (schedule c f j).count cycle = f * c + j := by
  induction f with
  | zero => rw [schedule, List.count_replicate_self, Nat.zero_mul, Nat.zero_add]
  | succ f ih =>
    have htick : List.count cycle [tick] = 0 := by decide
    rw [schedule, List.count_append, List.count_append, ih, List.count_replicate_self, htick]
    rw [Nat.succ_mul]
    omega

theorem count_tick_schedule (c f j : Nat) : (schedule c f j).count tick = f := by
  have hcycles (n : Nat) : (List.replicate n cycle).count tick = 0 :=
    List.count_eq_zero.mpr fun h => nomatch List.eq_of_mem_replicate h
  induction f with
  | zero => exact hcycles j
  | succ f ih =>
    rw [schedule, List.count_append, List.count_append, ih, hcycles, List.count_singleton_self]
    omega

/-- Behind which beginnings of a frame a cycle is due. -/
theorem before_cycle_of_frame {c : Nat} {fs : List Event} :
    fs ++ [cycle] <+: List.replicate c cycle ++ [tick] ↔ ∃ j < c, fs = List.replicate j cycle := by
  rw [List.prefix_concat_iff]
  constructor
  · intro h
    obtain hall | hcycles := h
    · have hlast := List.append_inj_right' hall rfl
      cases hlast
    · obtain ⟨hlen, heq⟩ := List.prefix_replicate_iff.mp hcycles
      rw [List.length_append, List.length_singleton] at hlen heq
      rw [List.replicate_succ'] at heq
      exact ⟨fs.length, hlen, List.append_cancel_right heq⟩
  · intro h
    obtain ⟨j, hj, rfl⟩ := h
    rw [← List.replicate_succ']
    exact .inr (List.prefix_replicate_iff.mpr ⟨by rw [List.length_replicate]; exact hj,
      by rw [List.length_replicate]⟩)

/-- Behind which beginnings of a schedule a cycle is due. -/
theorem before_cycle_of_schedule {c n : Nat} {fs : List Event} :
    fs ++ [cycle] <+: schedule c n 0 ↔ ∃ f j, f < n ∧ j < c ∧ fs = schedule c f j := by
  induction n generalizing fs with
  | zero =>
    constructor
    · intro h
      have hnil := List.prefix_nil.mp h
      simp at hnil
    · intro h
      obtain ⟨f, _, hf, _⟩ := h
      omega
  | succ n ih =>
    have hframe : List.replicate c cycle ++ [tick] <+: schedule c (n + 1) 0 := List.prefix_append _ _
    constructor
    · intro h
      by_cases hin : fs ++ [cycle] <+: List.replicate c cycle ++ [tick]
      · obtain ⟨j, hj, rfl⟩ := before_cycle_of_frame.mp hin
        exact ⟨0, j, Nat.succ_pos n, hj, rfl⟩
      · -- the frame is complete, and the cycle is due in one behind it
        obtain ⟨gs, hgs⟩ := (List.prefix_or_prefix_of_prefix h hframe).resolve_left hin
        obtain rfl | ⟨gs', e, rfl⟩ := gs.eq_nil_or_concat
        · rw [List.append_nil] at hgs
          exact absurd (hgs ▸ List.prefix_refl _) hin
        · rw [List.concat_eq_append, ← List.append_assoc] at hgs
          obtain ⟨rfl, he⟩ := List.append_inj' hgs rfl
          rw [schedule, List.append_assoc, List.prefix_append_right_inj, ih] at h
          obtain ⟨f, j, hf, hj, rfl⟩ := h
          exact ⟨f + 1, j, Nat.succ_lt_succ hf, hj, rfl⟩
    · intro h
      obtain ⟨f, j, hf, hj, rfl⟩ := h
      cases f with
      | zero => exact (before_cycle_of_frame.mpr ⟨j, hj, rfl⟩).trans hframe
      | succ f =>
        have hrest := ih.mpr ⟨f, j, Nat.lt_of_succ_lt_succ hf, hj, rfl⟩
        rw [schedule, schedule, List.append_assoc]
        exact (List.prefix_append_right_inj _).mpr hrest

end Event

namespace Pacer

open Event

variable {σ : Type} {p q r : Pacer σ}

theorem step_of_ok {i : Instruction} (h : step p = .ok i q) :
    Machine.cycle p.machine = .ok i q.machine ∧ q = { p with
      machine := q.machine, trace := q.trace, watcher := q.watcher, printed := q.printed } := by
  unfold step at h
  dsimp only at h
  cases hc : Machine.cycle p.machine with
  | ok i m =>
    rw [hc] at h
    cases h
    exact ⟨rfl, rfl⟩
  | error f m =>
    rw [hc] at h
    cases h

theorem step_of_error {e : Fault} (h : step p = .error e q) :
    Machine.cycle p.machine = .error e q.machine ∧ q = { p with
      machine := q.machine, trace := q.trace, printed := q.printed } := by
  unfold step at h
  dsimp only at h
  cases hc : Machine.cycle p.machine with
  | ok i m =>
    rw [hc] at h
    cases h
  | error f m =>
    rw [hc] at h
    cases h
    exact ⟨rfl, rfl⟩

/-- The second pacer is the first one behind these events, which were all carried out. -/
structure Carries (p : Pacer σ) (es : List Event) (q : Pacer σ) : Prop where
  carried : Carried p.machine es
  machine : q.machine = run p.machine es
  cycles : q.machine.cycles = p.machine.cycles + es.count .cycle
  frames : q.frames = p.frames + es.count .tick
  cyclesPerFrame : q.cyclesPerFrame = p.cyclesPerFrame

theorem Carries.refl (p : Pacer σ) : p.Carries [] p := ⟨trivial, rfl, rfl, rfl, rfl⟩

theorem Carries.trans {es fs : List Event} (h : p.Carries es q) (h' : q.Carries fs r) :
    p.Carries (es ++ fs) r where
  carried := carried_append.mpr ⟨h.carried, h.machine ▸ h'.carried⟩
  machine := by rw [h'.machine, h.machine, run_append]
  cycles := by rw [h'.cycles, h.cycles, List.count_append, Nat.add_assoc]
  frames := by rw [h'.frames, h.frames, List.count_append, Nat.add_assoc]
  cyclesPerFrame := h'.cyclesPerFrame.trans h.cyclesPerFrame

theorem carries_step {i : Instruction} (h : step p = .ok i q) : p.Carries [.cycle] q := by
  obtain ⟨hc, hq⟩ := step_of_ok h
  refine
    { carried := carried_cycle hc trivial
      machine := (after_of_ok hc).symm
      cycles := Machine.counts_of_cycle hc
      frames := by rw [hq]; rfl
      cyclesPerFrame := by rw [hq]; rfl }

theorem carries_closeFrame (p : Pacer σ) : p.Carries [.tick] p.closeFrame :=
  ⟨⟨fun h => (nomatch h), trivial⟩, rfl, rfl, rfl, rfl⟩

/-- How an action that goes through these events ends: with an answer behind all of them, or
with the fault of a step that was due behind some of them. -/
inductive Ends {α : Type} (p : Pacer σ) (a : α) (es : List Event) :
    EStateM.Result Fault (Pacer σ) α → Prop
  | ok {q : Pacer σ} (h : p.Carries es q) : Ends p a es (.ok a q)
  | error {fs : List Event} {r q : Pacer σ} {e : Fault} (hfs : fs ++ [.cycle] <+: es)
      (h : p.Carries fs r) (hstep : step r = .error e q) : Ends p a es (.error e q)

theorem Ends.bind {α β : Type} {x : EStateM Fault (Pacer σ) α}
    {next : α → EStateM Fault (Pacer σ) β} {a : α} {b : β} {es fs : List Event}
    (first : Ends p a es (x p)) (second : ∀ q, p.Carries es q → Ends q b fs (next a q)) :
    Ends p b (es ++ fs) ((x >>= next) p) := by
  change Ends p b (es ++ fs) (EStateM.bind x next p)
  unfold EStateM.bind
  generalize x p = result at first
  cases first with
  | ok h =>
    have hsecond := second _ h
    dsimp only
    generalize next a _ = result at hsecond
    cases hsecond with
    | ok h' => exact .ok (h.trans h')
    | error hgs h' hstep =>
      refine .error ?_ (h.trans h') hstep
      rw [List.append_assoc]
      exact (List.prefix_append_right_inj es).mpr hgs
  | error hgs h hstep => exact .error (hgs.trans (List.prefix_append es fs)) h hstep

theorem Ends.of_carried {α : Type} {a : α} {es : List Event}
    {x : EStateM.Result Fault (Pacer σ) α} (h : Ends p a es x) (hes : Carried p.machine es) :
    ∃ q, x = .ok a q := by
  cases h with
  | ok _ => exact ⟨_, rfl⟩
  | error hdue hr hstep =>
    have hstops := (step_of_error hstep).1
    rw [hr.machine] at hstops
    obtain ⟨i, t, hok⟩ := hes.cycle_eq_ok hdue
    cases hok.symm.trans hstops

/-- The first cycle that stops ends the action. -/
theorem Ends.of_stops {α : Type} {a : α} {es fs : List Event}
    {x : EStateM.Result Fault (Pacer σ) α} (h : Ends p a es x) (hfs : fs ++ [.cycle] <+: es)
    (hcarried : Carried p.machine fs) {e : Fault} {t : Machine}
    (hstops : Machine.cycle (run p.machine fs) = .error e t) :
    ∃ r q, p.Carries fs r ∧ step r = .error e q ∧ x = .error e q := by
  cases h with
  | ok hq =>
    obtain ⟨i, t, hok⟩ := hq.carried.cycle_eq_ok hfs
    cases hok.symm.trans hstops
  | @error gs r q e' hgs hr hstep =>
    have hstops' := (step_of_error hstep).1
    rw [hr.machine] at hstops'
    -- neither of the two cycles that stop is due before the other one
    obtain rfl : gs = fs := by
      obtain hle | hge := List.prefix_or_prefix_of_prefix hgs hfs
      · exact hcarried.eq_of_stops hstops' hle
      · exact (hr.carried.eq_of_stops hstops hge).symm
    cases hstops'.symm.trans hstops
    exact ⟨r, q, hr, hstep, rfl⟩

theorem ends_steps (n : Nat) (p : Pacer σ) : Ends p () (List.replicate n .cycle) (steps n p) := by
  induction n generalizing p with
  | zero => exact .ok (.refl p)
  | succ n ih =>
    cases h : step p with
    | ok i q =>
      have first : Ends p i [.cycle] (step p) := by
        rw [h]
        exact .ok (carries_step h)
      change Ends p () ([.cycle] ++ List.replicate n .cycle) ((step >>= fun _ => steps n) p)
      exact first.bind fun q _ => ih q
    | error e q =>
      have hsteps : steps (n + 1) p = .error e q := bind_eq_error.mpr (.inl h)
      rw [hsteps]
      exact .error (List.prefix_append [Event.cycle] _) (.refl p) h

theorem ends_frame (p : Pacer σ) : Ends p p.cyclesPerFrame
    (List.replicate p.cyclesPerFrame .cycle ++ [.tick]) (frame p) := by
  rw [frame_eq]
  refine (ends_steps p.cyclesPerFrame p).bind fun q _ => ?_
  exact .ok (carries_closeFrame q)

theorem ends_runFrames (n : Nat) (p : Pacer σ) : Ends p (n * p.cyclesPerFrame)
    (schedule p.cyclesPerFrame n 0) (runFrames n p) := by
  induction n generalizing p with
  | zero => rw [Nat.zero_mul]; exact .ok (.refl p)
  | succ n ih =>
    refine (ends_frame p).bind fun q hq => ?_
    have hanswer : (n + 1) * p.cyclesPerFrame = p.cyclesPerFrame + n * q.cyclesPerFrame := by
      rw [hq.cyclesPerFrame, Nat.succ_mul, Nat.add_comm]
    rw [hanswer, ← hq.cyclesPerFrame, ← List.append_nil (schedule _ _ _)]
    exact (ih q).bind fun r _ => .ok (.refl r)

theorem natCast_cyclesPerFrame (p : Pacer σ) :
    (p.cyclesPerFrame : Int) = max 1 (p.cyclesPerSecond / p.timerRate) :=
  Int.toNat_of_nonneg (by omega)

/-- What `f` complete frames and `j` cycles of the next one have done, if all those cycles were
carried out. -/
structure Accounts (p : Pacer σ) (f j : Nat) (q : Pacer σ) : Prop where
  carried : Carried p.machine (schedule p.cyclesPerFrame f j)
  machine : q.machine = run p.machine (schedule p.cyclesPerFrame f j)
  cycles : q.machine.cycles = p.machine.cycles + (f * p.cyclesPerFrame + j)
  frames : q.frames = p.frames + f

theorem Carries.accounts {f j : Nat} (h : p.Carries (schedule p.cyclesPerFrame f j) q) :
    p.Accounts f j q where
  carried := h.carried
  machine := h.machine
  cycles := by rw [h.cycles, count_cycle_schedule]
  frames := by rw [h.frames, count_tick_schedule]

/-- A fault in a step leaves the machine as the step found it. -/
theorem Carries.of_step_error {es : List Event} {e : Fault} (hm : p.machine.bus.Covered)
    (h : p.Carries es r) (hstep : step r = .error e q) :
    p.Carries es q ∧ Machine.cycle q.machine = .error e q.machine := by
  obtain ⟨hc, hq⟩ := step_of_error hstep
  have hr : r.machine.bus.Covered := h.machine ▸ covered_run hm es
  obtain ⟨_, hmachine⟩ := (Machine.cycle_eq_error hr).mp hc
  rw [← hmachine] at hc
  refine ⟨{ h with
    machine := hmachine.trans h.machine
    cycles := hmachine ▸ h.cycles
    frames := ?_
    cyclesPerFrame := ?_ }, hc⟩
  · rw [hq]
    exact h.frames
  · rw [hq]
    exact h.cyclesPerFrame

/-- Frames may be run in two goes. -/
theorem runFrames_add (a b : Nat) : (runFrames (a + b) : EStateM Fault (Pacer σ) Nat) =
    do let x ← runFrames a
       let y ← runFrames b
       return x + y := by
  induction a with
  | zero => simp only [Nat.zero_add, runFrames, pure_bind, bind_pure]
  | succ a ih =>
    rw [Nat.succ_add]
    simp only [runFrames, ih, bind_assoc, pure_bind, Nat.add_assoc]

/-- Frames are accounted for to the cycle. A run of frames answers how many cycles it took, and
then it has done the events of all its frames; or it faults in a cycle, and then it has done
the events of its schedule up to that cycle and nothing else. Two runs come to the same as one. -/
theorem runCount_accounts (p : Pacer σ) (count : Int) :
    (∀ k q, runCount count p = .ok k q →
      (k : Int) = max count 0 * max 1 (p.cyclesPerSecond / p.timerRate) ∧
        p.Accounts count.toNat 0 q) ∧
    (Carried p.machine (schedule p.cyclesPerFrame count.toNat 0) →
      ∃ k q, runCount count p = .ok k q) ∧
    (p.machine.bus.Covered →
      (∀ e q, runCount count p = .error e q → ∃ f j, f < count.toNat ∧ j < p.cyclesPerFrame ∧
        p.Accounts f j q ∧ Machine.cycle q.machine = .error e q.machine) ∧
      ∀ f j e t, f < count.toNat → j < p.cyclesPerFrame →
        Carried p.machine (schedule p.cyclesPerFrame f j) →
        Machine.cycle (run p.machine (schedule p.cyclesPerFrame f j)) = .error e t →
        ∃ q, runCount count p = .error e q ∧ p.Accounts f j q) ∧
    ∀ a b : Int, 0 ≤ a → 0 ≤ b → (runCount (a + b) : EStateM Fault (Pacer σ) Nat) =
      do let x ← runCount a
         let y ← runCount b
         return x + y := by
  have hends : Ends p _ _ (runCount count p) := ends_runFrames count.toNat p
  refine ⟨fun k q h => ?_, fun hcarried => ?_, fun hm => ⟨fun e q h => ?_, ?_⟩, fun a b ha hb => ?_⟩
  · rw [h] at hends
    cases hends with
    | ok hq =>
      rw [← natCast_cyclesPerFrame, Int.natCast_mul, Int.toNat_eq_max]
      exact ⟨rfl, hq.accounts⟩
  · exact ⟨_, hends.of_carried hcarried⟩
  · rw [h] at hends
    cases hends with
    | error hdue hr hstep =>
      obtain ⟨f, j, hf, hj, rfl⟩ := before_cycle_of_schedule.mp hdue
      obtain ⟨hq, hc⟩ := hr.of_step_error hm hstep
      exact ⟨f, j, hf, hj, hq.accounts, hc⟩
  · intro f j e t hf hj hcarried hstops
    have hdue := before_cycle_of_schedule.mpr ⟨f, j, hf, hj, rfl⟩
    obtain ⟨r, q, hr, hstep, hq⟩ := hends.of_stops hdue hcarried hstops
    exact ⟨q, hq, (hr.of_step_error hm hstep).1.accounts⟩
  · unfold runCount
    rw [Int.toNat_add ha hb]
    exact runFrames_add a.toNat b.toNat

/-- A machine whose program calls itself, with room for three return addresses. -/
def recursing (delay : Int) (n : Nat) (hn : n ≤ 3) : Machine :=
  { Machine.bare with
    bus := Machine.wordBus 0x22 0x00
    cpu := { delay }
    stack := ⟨3, Array.replicate n 0x202, by rw [Array.size_replicate]; exact hn⟩
    cycles := n }

theorem recursing_finds (delay : Int) (n : Nat) (hn : n ≤ 3) :
    ∃ i, (recursing delay n hn).Finds 0x2200 i .call := by
  have hd := InstructionTable.decodes_of_accepts (by decide)
    ((Routine.accepts_call (w := 0x2200) (by decide)).mpr rfl)
  exact Machine.finds_of_decodes rfl (Machine.load16_wordBus 0x22 0x00) hd

theorem recursing_cycle (delay : Int) {n : Nat} (hn : n < 3) :
    ∃ i, Machine.cycle (recursing delay n (Nat.le_of_lt hn)) =
      .ok i (recursing delay (n + 1) hn) := by
  obtain ⟨i, hf⟩ := recursing_finds delay n (Nat.le_of_lt hn)
  have hroom : (Array.replicate n (0x202 : UInt16)).size < 3 := by rwa [Array.size_replicate]
  have hpush : CallStack.push 0x202 (recursing delay n (Nat.le_of_lt hn)).stack =
      .ok () (recursing delay (n + 1) hn).stack := by
    refine (dif_pos hroom).trans ?_
    simp only [recursing, Array.replicate_succ]
    rfl
  exact ⟨i, Machine.cycle_eq_ok.mpr ⟨_, _, _, hf, Routine.run_call.mpr ⟨_, hpush, rfl⟩, rfl⟩⟩

theorem recursing_stops (delay : Int) : Machine.cycle (recursing delay 3 (Nat.le_refl 3)) =
    .error (.stack (.overflow 0x202 3)) (recursing delay 3 (Nat.le_refl 3)) := by
  obtain ⟨i, hf⟩ := recursing_finds delay 3 (Nat.le_refl 3)
  have hm : (recursing delay 3 (Nat.le_refl 3)).bus.Covered :=
    (Machine.wordBus_standard 0x22 0x00).covered
  exact (Machine.cycle_eq_error hm).mpr ⟨.refused hf ⟨Array.size_replicate, rfl⟩, rfl⟩

/-- Two cycles to a frame. -/
def recursion : Pacer where
  machine := recursing 5 0 (Nat.zero_le 3)
  cyclesPerSecond := 120
  timerRate := 60
  cycles_pos := by decide
  timer_pos := by decide
  trace := none
  debug := .none
  watcher := none

/-- The second frame is cut off by the fourth call. -/
theorem runCount_accounts_recursion : recursion.machine.bus.Covered ∧
    ∃ e q, runCount 5 recursion = .error e q ∧ q.machine.cycles = 3 ∧ q.frames = 1 ∧
      q.machine.cpu.delay = 4 := by
  have hm : recursion.machine.bus.Covered := (Machine.wordBus_standard 0x22 0x00).covered
  obtain ⟨i₁, h₁⟩ := recursing_cycle 5 (n := 0) (by decide)
  obtain ⟨i₂, h₂⟩ := recursing_cycle 5 (n := 1) (by decide)
  obtain ⟨i₃, h₃⟩ := recursing_cycle 4 (n := 2) (by decide)
  have hschedule : schedule recursion.cyclesPerFrame 1 1 = [.cycle, .cycle, .tick, .cycle] := rfl
  have htick : Event.tick.after (recursing 5 2 (by decide)) = recursing 4 2 (by decide) := rfl
  have hcarried : Carried recursion.machine (schedule recursion.cyclesPerFrame 1 1) := by
    rw [hschedule]
    refine carried_cycle h₁ (carried_cycle h₂ ⟨fun h => (nomatch h), ?_⟩)
    rw [htick]
    exact carried_cycle h₃ trivial
  have hrun : run recursion.machine (schedule recursion.cyclesPerFrame 1 1) =
      recursing 4 3 (Nat.le_refl 3) := by
    have hfirst : Event.cycle.after recursion.machine = recursing 5 1 (by decide) := after_of_ok h₁
    rw [hschedule, run_cons, hfirst, run_cons, after_of_ok h₂, run_cons, htick, run_cons, run_nil]
    exact after_of_ok h₃
  obtain ⟨q, hq, hacc⟩ := ((runCount_accounts recursion 5).2.2.1 hm).2 1 1 _ _ (by decide) (by decide)
    hcarried (by rw [hrun]; exact recursing_stops 4)
  exact ⟨hm, _, q, hq, hacc.cycles, hacc.frames, by rw [hacc.machine, hrun]; rfl⟩

end Pacer

end Chip8
