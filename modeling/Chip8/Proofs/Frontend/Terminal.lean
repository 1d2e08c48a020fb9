import Chip8.Frontend.Terminal
import Chip8.Proofs.Frontend.Session
import Chip8.Proofs.Machine.Loading
import Chip8.Proofs.Pacer.Frames
import Chip8.Proofs.Pacer.Interchange
import Chip8.Proofs.Pacer.Observer

/-! # Running in the terminal

A run in the terminal is as many frames of a pacer as are asked for, with sleeps between them
that touch no machine. So any pacer over a machine that was switched on with the same program
tells how the run ends: after the last frame, or before the first cycle that faults. An image
that is none ends it before there is a machine. No fault comes out of a run but as an error of
the session. -/

namespace Chip8.Terminal

open Pacer (Beside Lockstep watched)
open Session (Tells Follows Halted)

variable {σ : Type} {R : Machine → Machine → Prop} {debug : Debug.Categories} {p : Pacer σ}
  {s : Session} {host : Host} {limit : Int}

/-! ## Frames -/

/-- A round is a frame and perhaps a sleep, and the sleep touches no machine. -/
theorem round_tells (hR : Lockstep R) (host : Host) (h : Follows R debug p s) :
    Tells R debug
      (fun pause t q => Follows R debug q t ∧ (pause = .quiet → t.running = s.running) ∧
        (pause = .quiet ∨ ∃ k, pause = host.pause k))
      (Pacer.frame p) (round host s) := by
  refine (Session.runFrame_tells hR h).bind_right fun _ t q hframe => ?_
  obtain ⟨hfollows, hrunning⟩ := hframe
  rw [get_bind]
  by_cases htime : timeLeft t.settings.timerRate host.frameTime = true
  · rw [if_pos htime]
    by_cases hpause : host.pause (t.sleeps + 1) = .quiet
    · refine ⟨host.pause (t.sleeps + 1), { t with sleeps := t.sleeps + 1 }, ?_, ?_⟩
      · rw [hpause]
        rfl
      · exact ⟨⟨hfollows.debug, hfollows.pacer⟩, fun _ => hrunning, .inr ⟨_, rfl⟩⟩
    · refine ⟨host.pause (t.sleeps + 1),
        { t with sleeps := t.sleeps + 1, running := false }, ?_, ?_⟩
      · rw [if_pos hpause]
        rfl
      · exact ⟨⟨hfollows.debug, hfollows.pacer⟩, fun h => absurd h hpause, .inr ⟨_, rfl⟩⟩
  · rw [if_neg htime]
    exact ⟨.quiet, t, rfl, hfollows, fun _ => hrunning, .inl rfl⟩

/-- That many frames have been run in all, and the session still goes with the pacer. -/
def Reached (R : Machine → Machine → Prop) (debug : Debug.Categories) (n k : Nat) (s : Session)
    (q : Pacer σ) : Prop := k = n ∧ Follows R debug q s

/-- While nothing happens in the sleeps, rounds are frames until there are enough of them. -/
theorem play_tells (hR : Lockstep R) (hquiet : ∀ k, host.pause k = .quiet) {n frames : Nat}
    (hn : n = (limit - frames).toNat) (h : Follows R debug p s) (hrunning : s.running = true) :
    Tells R debug (Reached R debug (frames + n)) (Pacer.runFrames n p)
      (play host limit frames s) := by
  -- on the frames that are left, with the pacer and the session general
  induction n generalizing frames p s with
  | zero =>
    have hle : limit ≤ frames := by omega
    unfold play
    rw [get_bind, hrunning, if_pos rfl, if_pos hle]
    exact .ok ⟨rfl, h⟩
  | succ n ih =>
    have hlt : ¬ limit ≤ frames := by omega
    unfold play
    rw [get_bind, hrunning, if_pos rfl, if_neg hlt]
    refine (round_tells hR host h).bind fun _ pause t q hround => ?_
    obtain ⟨hfollows, hsame, hpause⟩ := hround
    have hstill : pause = .quiet := by
      rcases hpause with hpause | ⟨k, hpause⟩
      · exact hpause
      · rw [hpause, hquiet k]
    have hcount : frames + (n + 1) = frames + 1 + n := by omega
    rw [hstill, if_neg (by decide), hcount]
    refine (ih ?_ hfollows ((hsame hstill).trans hrunning)).map_left _
    omega

/-- Whatever happens in the sleeps, no error but the session's own comes of the frames. -/
theorem stopped_of_play {frames : Nat} {q : Pacer} {e : SessionError} {t : Session}
    (hs : s.stage = .ready q) (h : play host limit frames s = .error e t) :
    ∃ f, e = .stopped f := by
  generalize hn : (limit - frames).toNat = n
  induction n generalizing frames q s with
  | zero =>
    have hle : limit ≤ frames := by omega
    unfold play at h
    rw [get_bind, if_pos hle, ite_self] at h
    cases h
  | succ n ih =>
    have hlt : ¬ limit ≤ frames := by omega
    unfold play at h
    rw [get_bind] at h
    by_cases hrunning : s.running = true
    · rw [if_pos hrunning, if_neg hlt] at h
      have htells := round_tells Pacer.lockstep_eq host (p := q) ⟨rfl, q, hs, rfl, rfl, rfl, rfl⟩
      generalize Pacer.frame q = x at htells
      rcases bind_eq_error.mp h with hround | ⟨pause, u, hround, hrest⟩
      · rw [hround] at htells
        cases htells with
        | error _ => exact ⟨_, rfl⟩
      · rw [hround] at htells
        cases htells with
        | ok hafter =>
          obtain ⟨⟨_, q', hstage, _⟩, _⟩ := hafter
          by_cases hinterrupt : pause = .interrupt
          · rw [if_pos hinterrupt] at hrest
            cases hrest
          · rw [if_neg hinterrupt] at hrest
            exact ih hstage hrest (by omega)
    · rw [if_neg hrunning] at h
      cases h

/-! ## The start -/

/-- Behind the set-up nothing but the display is touched. -/
theorem start_of_createMachine {file : RomFile} {t : Session} {q : Pacer}
    (h : Session.createMachine file (.terminal .standard) s = .ok () t)
    (hstage : t.stage = .ready q) (hrate : q.timerRate < Limit.float) :
    ∃ u, start file s = .ok () u ∧ u.running = true ∧ u.debug = t.debug ∧
      u.stage = .ready { q with machine := cleared q.machine } := by
  let shown : Session := { t with stage := .ready { q with machine := cleared q.machine } }
  let written : Session := { shown with
    printed := shown.printed.push (.screen (Display.clearScreenCode ++ Display.cursorHomeCode)) }
  have hshown : Session.mapMachine cleared t = .ok () shown := by
    cases t
    cases hstage
    rfl
  obtain ⟨seconds, hinterval⟩ := Session.frameInterval_of_ready (s := written) rfl hrate
  refine ⟨{ written with running := true }, ?_, rfl, rfl, rfl⟩
  exact bind_eq_ok.mpr ⟨(), t, h, bind_eq_ok.mpr ⟨(), shown, hshown, bind_eq_ok.mpr
    ⟨(), written, rfl, bind_eq_ok.mpr ⟨seconds, written, hinterval, rfl⟩⟩⟩⟩

section

variable {c : Settings} {path : RomPath} {data : List UInt8} {m t : Machine}

/-- An image that is none leaves the session as it was. -/
theorem run_of_invalid {e : RomError} (hrom : s.settings.rom = some path)
    (h : Rom.validate data = .error e) :
    run (.data data) host limit s = .error (.loadFailed path (.image e)) s := by
  have hcreate : Machine.create (s.settings.options path data (.terminal .standard)) =
      .error (.image e) := by
    rw [Machine.create_eq_load rfl, Rom.load_of_invalid h]
  have hset := Session.createMachine_eq hrom data (.terminal .standard)
  rw [hcreate] at hset
  exact bind_eq_error.mpr (.inl (bind_eq_error.mpr (.inl hset)))

theorem exists_create_of_valid (c : Settings) (path : RomPath) (h : Rom.validate data = .ok ()) :
    ∃ m, Machine.create (c.options path data (.terminal .standard)) = .ok m := by
  obtain ⟨hd, hlen⟩ := Rom.validate_eq_ok.mp h
  exact Machine.exists_create rfl hd hlen

/-- The session that a run starts with has the machine and a pacer over it. -/
theorem start_of_create (hrom : s.settings.rom = some path)
    (hcycles : 0 < s.settings.cyclesPerSecond) (htimer : 0 < s.settings.timerRate)
    (hfloat : s.settings.timerRate < Limit.float)
    (h : Machine.create (s.settings.options path data (.terminal .standard)) = .ok m) :
    ∃ (u : Session) (q : Pacer), start (.data data) s = .ok () u ∧ u.running = true ∧
      u.debug = s.debug ∧ u.stage = .ready q ∧
      watched (cleared m) s.settings.cyclesPerSecond s.settings.timerRate
        (Session.trace? s.debug) s.debug none = .ok q := by
  have hset := Session.createMachine_eq hrom data (.terminal .standard)
  rw [h] at hset
  dsimp only at hset
  rw [Pacer.create, Pacer.watched_of_pos hcycles htimer] at hset
  obtain ⟨u, hstart, hrunning, hdebug, hstage⟩ := start_of_createMachine hset rfl hfloat
  exact ⟨u, _, hstart, hrunning, hdebug, hstage, Pacer.watched_of_pos hcycles htimer _ _ _⟩

variable (hrom : c.rom = some path) (hcycles : 0 < c.cyclesPerSecond) (htimer : 0 < c.timerRate)
  (hfloat : c.timerRate < Limit.float)
include hrom hcycles htimer hfloat

/-- A pacer over a machine that goes in step tells how the run ends. -/
theorem run_tells (hR : Lockstep R) (hquiet : ∀ k, host.pause k = .quiet)
    (h : Machine.create (c.options path data (.terminal .standard)) = .ok m)
    (ht : R t (cleared m)) {trace : Option Trace} {categories : Debug.Categories}
    {watcher : Option (Watcher σ)}
    (hp : watched t c.cyclesPerSecond c.timerRate trace categories watcher = .ok p) :
    Tells R debug (Reached R debug limit.toNat) (Pacer.runCount limit p)
      (run (.data data) host limit { settings := c, debug }) := by
  obtain ⟨s, q, hstart, hrunning, hdebug, hstage, hq⟩ :=
    start_of_create (s := { settings := c, debug }) hrom hcycles htimer hfloat h
  have hrun : run (.data data) host limit { settings := c, debug } = play host limit 0 s := by
    change EStateM.bind _ _ _ = _
    unfold EStateM.bind
    rw [hstart]
  have hbeside : Beside R p q := by
    obtain ⟨_, hnone, _⟩ | ⟨_, _, hp', hq', hbeside⟩ := Pacer.beside_watched ht c.cyclesPerSecond
      c.timerRate trace (Session.trace? debug) categories debug watcher none
    · cases hnone.symm.trans hp
    · cases hp'.symm.trans hp
      cases hq'.symm.trans hq
      exact hbeside
  have hcount : limit.toNat = (limit - (0 : Nat)).toNat := by simp
  have htells := play_tells hR hquiet hcount ⟨hdebug, q, hstage, hbeside⟩ hrunning
  rw [Nat.zero_add] at htells
  exact hrun ▸ htells

end

/-! ## The end -/

open Event (Carried schedule)

/-- How a run ends, told by a pacer: as the pacer does, and so after its frames if all their
cycles are carried out, and before the first cycle that is not. -/
structure Paced (R : Machine → Machine → Prop) (debug : Debug.Categories) (limit : Int)
    (p : Pacer σ) (x : EStateM.Result SessionError Session Nat) : Prop where
  tells : Tells R debug (Reached R debug limit.toNat) (Pacer.runCount limit p) x
  completes : Carried p.machine (schedule p.cyclesPerFrame limit.toNat 0) →
    ∃ s m, x = .ok limit.toNat s ∧ s.machine? = some m ∧
      R (Event.run p.machine (schedule p.cyclesPerFrame limit.toNat 0)) m
  stops : ∀ f j e t, f < limit.toNat → j < p.cyclesPerFrame →
    Carried p.machine (schedule p.cyclesPerFrame f j) →
    Machine.cycle (Event.run p.machine (schedule p.cyclesPerFrame f j)) = .error e t →
    ∃ s, x = .error (.stopped e) s ∧
      Halted R debug e (Event.run p.machine (schedule p.cyclesPerFrame f j)) s

/-- Every pacer over the machine tells so, whatever it traces, prints or is watched by. -/
def PacedOver (R : Machine → Machine → Prop) (c : Settings) (debug : Debug.Categories)
    (limit : Int) (m : Machine) (x : EStateM.Result SessionError Session Nat) : Prop :=
  ∀ (σ : Type) (trace : Option Trace) (categories : Debug.Categories)
    (watcher : Option (Watcher σ)),
    ∃ p, watched m c.cyclesPerSecond c.timerRate trace categories watcher = .ok p ∧
      Paced R debug limit p x

section

variable {x : EStateM.Result SessionError Session Nat} (hm : p.machine.bus.Covered)
include hm

theorem Paced.of_tells
    (h : Tells R debug (Reached R debug limit.toNat) (Pacer.runCount limit p) x) :
    Paced R debug limit p x := by
  have hends : Pacer.Ends p _ _ (Pacer.runCount limit p) := Pacer.ends_runFrames limit.toNat p
  refine ⟨h, fun hcarried => ?_, fun f j e t hf hj hcarried hstops => ?_⟩
  · obtain ⟨q, hq⟩ := hends.of_carried hcarried
    rw [hq] at hends h
    cases hends with
    | ok hcarries =>
      cases h with
      | @ok _ _ _ s hafter =>
        obtain ⟨rfl, _, q', hstage, hbeside⟩ := hafter
        refine ⟨s, q'.machine, rfl, Session.machine?_of_ready hstage, ?_⟩
        rw [← hcarries.machine]
        exact hbeside.machine
  · have hdue := Event.before_cycle_of_schedule.mpr ⟨f, j, hf, hj, rfl⟩
    obtain ⟨r, q, hr, hstep, hq⟩ := hends.of_stops hdue hcarried hstops
    rw [hq] at h
    cases h with
    | error hhalted =>
      -- the step that faulted left the machine as it was behind the schedule
      rw [(hr.of_step_error hm hstep).1.machine] at hhalted
      exact ⟨_, rfl, hhalted⟩

/-- A run that a fault has stopped stands before the cycle that faults, and would fault again. -/
theorem cycle_of_stopped {e : Fault}
    (h : Tells Eq debug (Reached Eq debug limit.toNat) (Pacer.runCount limit p) x)
    (hx : x = .error (.stopped e) s) :
    s.running = false ∧ ∃ m, s.machine? = some m ∧ Machine.cycle m = .error e m := by
  have hends : Pacer.Ends p _ _ (Pacer.runCount limit p) := Pacer.ends_runFrames limit.toNat p
  rw [hx] at h
  generalize Pacer.runCount limit p = y at hends h
  cases h with
  | error hhalted =>
    cases hends with
    | error _ hr hstep =>
      obtain ⟨q, _, hstage, hsame, _⟩ := hhalted.reported
      have hstuck := (hr.of_step_error hm hstep).2
      rw [hsame] at hstuck
      exact ⟨hhalted.stopped, q.machine, Session.machine?_of_ready hstage, hstuck⟩

end

/-- How a run of an image ends. -/
structure Exact (c : Settings) (debug : Debug.Categories) (path : RomPath) (data : List UInt8)
    (host : Host) (limit : Int) (x : EStateM.Result SessionError Session Nat) : Prop where
  refused : ∀ e : RomError,
    e = .empty ∧ data = [] ∨ e = .tooLarge data.length ∧ 0xE00 < data.length →
    x = .error (.loadFailed path (.image e)) { settings := c, debug }
  /-- Told over the same machine, and over one with the same picture on any other surface. -/
  paced : data ≠ [] → data.length ≤ 0xE00 → (∀ k, host.pause k = .quiet) →
    (∃ m, Machine.create (c.options path data (.terminal .standard)) = .ok m ∧
      PacedOver Eq c debug limit (cleared m) x) ∧
    ∀ d : Display, d.core = (Display.terminal .standard).core →
      ∃ m, Machine.create (c.options path data d) = .ok m ∧
        PacedOver Machine.Mirrors c debug limit m x
  stands : (∀ k, host.pause k = .quiet) → ∀ e s, x = .error (.stopped e) s →
    s.running = false ∧ ∃ m, s.machine? = some m ∧ Machine.cycle m = .error e m
  contained : ∀ e s, x = .error e s → e.isRuntime = true ∧
    ((∃ f, e = .loadFailed path f ∧
        e.message = "Failed to load ROM " ++ path.text ++ ": " ++ f.message) ∨
      ∃ f, e = .stopped f ∧ e.message = "Emulation stopped: " ++ f.message)

section

variable {c : Settings} {path : RomPath} {data : List UInt8} {m t : Machine}

/-- A machine that was switched on with the same picture on another surface mirrors the one
in the terminal. -/
theorem mirrors_cleared {d : Display} (hd : d.core = (Display.terminal .standard).core)
    (h : Machine.create (c.options path data (.terminal .standard)) = .ok m) :
    ∃ t, Machine.create (c.options path data d) = .ok t ∧ t.Mirrors (cleared m) := by
  have hdisplay : m.display = .terminal .standard := (Machine.settings_of_create h).2.2.2.1
  refine ⟨{ m with display := d }, ?_, m.display.start, ?_, rfl⟩
  · change Machine.create { c.options path data (.terminal .standard) with display := d } = _
    rw [Machine.create_display, h]
    rfl
  · change m.display.start.core = d.core
    rw [hd, hdisplay]
    exact Display.core_write _ _

variable (hrom : c.rom = some path) (hcycles : 0 < c.cyclesPerSecond) (htimer : 0 < c.timerRate)
  (hfloat : c.timerRate < Limit.float)
include hrom hcycles htimer hfloat

theorem pacedOver_of_create (hR : Lockstep R) (hquiet : ∀ k, host.pause k = .quiet)
    (h : Machine.create (c.options path data (.terminal .standard)) = .ok m)
    (hm : t.bus.Covered) (ht : R t (cleared m)) :
    PacedOver R c debug limit t (run (.data data) host limit { settings := c, debug }) := by
  intro σ trace categories watcher
  have hp := Pacer.watched_of_pos (m := t) hcycles htimer trace categories watcher
  exact ⟨_, hp, .of_tells hm (run_tells hrom hcycles htimer hfloat hR hquiet h ht hp)⟩

theorem stands_of_stopped (hquiet : ∀ k, host.pause k = .quiet) {e : Fault}
    (hx : run (.data data) host limit { settings := c, debug } = .error (.stopped e) s) :
    s.running = false ∧ ∃ m, s.machine? = some m ∧ Machine.cycle m = .error e m := by
  cases hv : Rom.validate data with
  | error _ =>
    rw [run_of_invalid hrom hv] at hx
    cases hx
  | ok _ =>
    obtain ⟨m, h⟩ := exists_create_of_valid c path hv
    have hp := Pacer.watched_of_pos (σ := Notes) (m := cleared m) hcycles htimer none .none none
    exact cycle_of_stopped (Machine.create_standard h).covered
      (run_tells hrom hcycles htimer hfloat Pacer.lockstep_eq hquiet h rfl hp) hx

/-- Loading and running have an error each, and there are no others. -/
theorem error_of_run {e : SessionError}
    (hx : run (.data data) host limit { settings := c, debug } = .error e s) :
    (∃ f, e = .loadFailed path f) ∨ ∃ f, e = .stopped f := by
  cases hv : Rom.validate data with
  | error _ =>
    rw [run_of_invalid hrom hv] at hx
    cases hx
    exact .inl ⟨_, rfl⟩
  | ok _ =>
    obtain ⟨m, h⟩ := exists_create_of_valid c path hv
    obtain ⟨t, q, hstart, _, _, hstage, _⟩ :=
      start_of_create (s := { settings := c, debug }) hrom hcycles htimer hfloat h
    obtain hfails | ⟨_, _, hstarted, hplay⟩ := bind_eq_error.mp hx
    · cases hstart.symm.trans hfails
    · cases hstart.symm.trans hstarted
      exact .inr (stopped_of_play hstage hplay)

end

/-- A run in the terminal is the frames of a pacer, as many as are asked for and none if the
number is negative. It ends with their number or with the fault that stops them, the machine
then being as it was before the cycle that faults. Only an image that is none ends it sooner,
and whatever is printed or happens in the sleeps, each error says that loading failed or that
emulation stopped. -/
theorem run_exact (c : Settings) (debug : Debug.Categories) (path : RomPath) (data : List UInt8)
    (host : Host) (limit : Int) (hrom : c.rom = some path) (hcycles : 0 < c.cyclesPerSecond)
    (htimer : 0 < c.timerRate) (hfloat : c.timerRate < Limit.float) :
    Exact c debug path data host limit
      (run (.data data) host limit { settings := c, debug }) where
  refused e h := run_of_invalid hrom (Rom.validate_eq_error.mpr h)
  paced hd hlen hquiet := by
    obtain ⟨m, h⟩ :=
      exists_create_of_valid c path (Rom.validate_eq_ok.mpr ⟨hd, hlen⟩)
    refine ⟨⟨m, h, ?_⟩, fun d hcore => ?_⟩
    · exact pacedOver_of_create hrom hcycles htimer hfloat Pacer.lockstep_eq hquiet h
        (Machine.create_standard h).covered rfl
    · obtain ⟨t, ht, hmirrors⟩ := mirrors_cleared hcore h
      exact ⟨t, ht, pacedOver_of_create hrom hcycles htimer hfloat Machine.mirrors_lockstep hquiet h
        (Machine.create_standard ht).covered hmirrors⟩
  stands hquiet _ _ hx := stands_of_stopped hrom hcycles htimer hfloat hquiet hx
  contained _ _ hx := by
    obtain ⟨f, rfl⟩ | ⟨f, rfl⟩ := error_of_run hrom hcycles htimer hfloat hx
    · exact ⟨rfl, .inl ⟨f, rfl, rfl⟩⟩
    · exact ⟨rfl, .inr ⟨f, rfl, rfl⟩⟩

/-- A jump to the second word, which waits for a key. -/
def waiting : List UInt8 := [0x12, 0x02, 0xF0, 0x0A]

/-- One cycle to a frame. -/
def slow : Settings := { rom := some ⟨"", ["wait.ch8"]⟩, cyclesPerSecond := 60 }

def still : Host := ⟨0, fun _ => .quiet⟩

/-- The jump is carried out, and behind the tick the wait is refused. -/
theorem waiting_cycles {m : Machine}
    (h : Machine.create (slow.options ⟨"", ["wait.ch8"]⟩ waiting (.terminal .standard)) = .ok m) :
    ∃ i t, Machine.cycle (cleared m) = .ok i t ∧ t.tick.cpu.pc = 0x202 ∧ t.tick.cycles = 1 ∧
      Machine.cycle t.tick = .error (.unimplemented 0x202 0xF00A) t.tick := by
  have htable : m.table = .standard := (Machine.settings_of_create h).1
  have hfresh : m.cpu.pc = 0x200 ∧ m.cycles = 0 := by
    obtain ⟨_, _, _, rfl⟩ := Machine.create_eq_ok h
    exact ⟨rfl, rfl⟩
  have hjump : m.bus.load16 m.cpu.pc = .ok 0x1202 := by
    rw [hfresh.1]
    exact Machine.load16_program h rfl (k := 0) (by decide)
  have hwait : m.bus.load16 0x202 = .ok 0xF00A :=
    Machine.load16_program h rfl (k := 2) (by decide)
  have decodesJump : InstructionTable.Decodes (0x1202 : Nat) .jump :=
    InstructionTable.decodes_of_accepts (by decide) (by decide)
  have decodesWait : InstructionTable.Decodes (0xF00A : Nat) .waitKey :=
    InstructionTable.decodes_of_accepts (by decide) (by decide)
  obtain ⟨i, hfinds⟩ := Machine.finds_of_decodes (m := cleared m) htable hjump decodesJump
  let t : Machine := { cleared m with cpu := { m.cpu with pc := 0x202 }, cycles := m.cycles + 1 }
  have hcycle : Machine.cycle (cleared m) = .ok i t :=
    Machine.cycle_eq_ok.mpr ⟨_, _, _, hfinds, rfl, rfl⟩
  have hstops : t.tick.Stops (.unimplemented 0x202 0xF00A) :=
    Machine.stops_of_decodes htable hwait decodesWait rfl
  have hcovered : t.tick.bus.Covered := (Machine.create_standard h).covered
  exact ⟨i, t, hcycle, rfl, congrArg (· + 1) hfresh.2,
    (Machine.cycle_eq_error hcovered).mpr ⟨hstops, rfl⟩⟩

/-- The second frame meets the wait, and without a program there is nothing to run. -/
theorem run_exact_waiting :
    slow.rom = some ⟨"", ["wait.ch8"]⟩ ∧ 0 < slow.cyclesPerSecond ∧ 0 < slow.timerRate ∧
      slow.timerRate < Limit.float ∧
    (∃ s m, run (.data waiting) still 5 { settings := slow, debug := ⟨["fault"]⟩ } =
        .error (.stopped (.unimplemented 0x202 0xF00A)) s ∧ s.running = false ∧
      s.machine? = some m ∧ m.cpu.pc = 0x202 ∧ m.cycles = 1) ∧
    run (.data []) still 5 { settings := slow, debug := ⟨["fault"]⟩ } =
      .error (.loadFailed ⟨"", ["wait.ch8"]⟩ (.image .empty))
        { settings := slow, debug := ⟨["fault"]⟩ } := by
  have hfloat : slow.timerRate < Limit.float := by decide
  refine ⟨rfl, by decide, by decide, hfloat, ?_, ?_⟩
  · have hexact := run_exact slow ⟨["fault"]⟩ ⟨"", ["wait.ch8"]⟩ waiting still 5 rfl (by decide)
      (by decide) hfloat
    obtain ⟨⟨m, hm, hover⟩, _⟩ := hexact.paced (by decide) (by decide) fun _ => rfl
    obtain ⟨i, t, hjump, hpc, hcycles, hwait⟩ := waiting_cycles hm
    obtain ⟨p, hp, hpaced⟩ := hover Notes none .none none
    cases (Pacer.watched_of_pos (by decide) (by decide) none .none none).symm.trans hp
    have hcarried : Carried (cleared m) [.cycle, .tick] :=
      Event.carried_cycle hjump ⟨fun h => (nomatch h), trivial⟩
    have hrun : Event.run (cleared m) [.cycle, .tick] = t.tick := by
      rw [Event.run_cons, Event.after_of_ok hjump]
      rfl
    rw [← hrun] at hpc hcycles hwait
    obtain ⟨s, hs, hhalted⟩ := hpaced.stops 1 0 _ _ (by decide) (Nat.zero_lt_one) hcarried hwait
    obtain ⟨q, _, hstage, hq, _⟩ := hhalted.reported
    exact ⟨s, q.machine, hs, hhalted.stopped, Session.machine?_of_ready hstage, hq ▸ hpc,
      hq ▸ hcycles⟩
  · exact (run_exact slow ⟨["fault"]⟩ ⟨"", ["wait.ch8"]⟩ [] still 5 rfl (by decide) (by decide)
      hfloat).refused _ (.inl ⟨rfl, rfl⟩)

example : (SessionError.stopped (.unimplemented 0x202 0xF00A)).message =
    "Emulation stopped: instruction F00A at 0x202 is not implemented" := by decide

end Chip8.Terminal
