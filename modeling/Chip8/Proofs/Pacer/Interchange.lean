import Chip8.Proofs.Machine.Surface

/-! # Engines that stand in for each other

Whether a machine keeps its picture to itself, writes it to a terminal or has it shown in a
window, it answers the same requests in the same way. A window may ask for the picture at any
time, whether or not the picture can be shown then. -/

namespace Chip8

/-- Something that is done with a pacer from outside. -/
inductive Deed
  | request (r : Request)
  /-- A window shows the picture, if there is room for the frame. Without a window nothing is
  shown. -/
  | present (room : Room) (force available : Bool)
deriving DecidableEq

namespace Machine

/-- The display is passed on to the machine and has no part in how it is set up. -/
theorem create_display (o : Options) (d : Display) :
    create { o with display := d } = (create o).map fun m => { m with display := d } := by
  unfold create
  rw [memory_eq]
  simp only [ok_mapError, ok_bind]
  cases o.rom with
  | none => rfl
  | some data =>
    dsimp only
    cases Rom.load data o.romName blankBus <;> rfl

theorem Mirrors.present {m t : Machine} (h : Mirrors m t) (room : Room) (force available : Bool) :
    Mirrors { m with display := leftBy (Display.present room force available) m.display }
      { t with display := leftBy (Display.present room force available) t.display } := by
  obtain ⟨d, hd, rfl⟩ := h
  exact ⟨_, by rw [Display.core_present, Display.core_present, hd], rfl⟩

end Machine

namespace Pacer

variable {σ : Type}

def present (p : Pacer σ) (room : Room) (force available : Bool) : Pacer σ :=
  { p with machine := { p.machine with
      display := leftBy (Display.present room force available) p.machine.display } }

def carryOut (p : Pacer σ) : Deed → Option Reply × Pacer σ
  | .request r =>
    let (answer, p) := p.perform r
    (some answer, p)
  | .present room force available => (none, p.present room force available)

/-- What deeds show from outside, but for the surface: behind each of them the reply, the
machine and the number of frames so far. -/
def account : List Deed → Pacer σ → List (Option Reply × Machine × Nat)
  | [], _ => []
  | d :: ds, p =>
    let (answer, p) := p.carryOut d
    (answer, p.machine.unshown, p.frames) :: account ds p

/-- A machine is switched on with a display and a pacer put over it, and then the deeds are done. -/
def session (o : Machine.Options) (cyclesPerSecond timerRate : Int) (trace : Option Trace)
    (debug : Debug.Categories) (watcher : Option (Watcher σ)) (deeds : List Deed) (d : Display) :
    Except LoadError (Except RateError (List (Option Reply × Machine × Nat))) :=
  (Machine.create { o with display := d }).map fun m =>
    (watched m cyclesPerSecond timerRate trace debug watcher).map (account deeds)

section

variable {p q : Pacer σ}

theorem beside_carryOut (h : Beside Machine.Mirrors p q) (d : Deed) :
    (p.carryOut d).1 = (q.carryOut d).1 ∧
      Beside Machine.Mirrors (p.carryOut d).2 (q.carryOut d).2 := by
  cases d with
  | request r =>
    obtain ⟨hreply, hnext⟩ := h.perform Machine.mirrors_lockstep r
    exact ⟨congrArg some hreply, hnext⟩
  | present room force available =>
    exact ⟨rfl, { h with machine := h.machine.present room force available }⟩

theorem account_eq (h : Beside Machine.Mirrors p q) (ds : List Deed) :
    p.account ds = q.account ds := by
  induction ds generalizing p q with
  | nil => rfl
  | cons d ds ih =>
    obtain ⟨hreply, hnext⟩ := beside_carryOut h d
    change ((p.carryOut d).1, (p.carryOut d).2.machine.unshown, (p.carryOut d).2.frames) ::
        (p.carryOut d).2.account ds =
      ((q.carryOut d).1, (q.carryOut d).2.machine.unshown, (q.carryOut d).2.frames) ::
        (q.carryOut d).2.account ds
    rw [hreply, hnext.machine.unshown_eq, hnext.frames, ih hnext]

end

variable (o : Machine.Options) (cyclesPerSecond timerRate : Int) (trace : Option Trace)
  (debug : Debug.Categories) (watcher : Option (Watcher σ)) (deeds : List Deed)

theorem session_eq {d d' : Display} (h : d.core = d'.core) :
    session o cyclesPerSecond timerRate trace debug watcher deeds d =
      session o cyclesPerSecond timerRate trace debug watcher deeds d' := by
  unfold session
  rw [Machine.create_display, Machine.create_display o d']
  cases Machine.create o with
  | error e => rfl
  | ok m =>
    have hm : Machine.Mirrors { m with display := d } { m with display := d' } :=
      ⟨d', h.symm, rfl⟩
    simp only [Except.map]
    obtain ⟨e, hp, hq⟩ | ⟨p, q, hp, hq, hpq⟩ :=
      beside_watched hm cyclesPerSecond timerRate trace trace debug debug watcher watcher
    · rw [hp, hq]
    · rw [hp, hq]
      simp only [account_eq hpq deeds]

/-- Over the same picture and the same random numbers, a headless display, a terminal and a
window come to the same whatever is done: every request has the same reply, and the machines
behind it differ in nothing but what was shown. -/
theorem surfaces_interchangeable (screen : FrameBuffer) (scale : Int) (palette : Palette) :
    session o cyclesPerSecond timerRate trace debug watcher deeds (.terminal screen) =
        session o cyclesPerSecond timerRate trace debug watcher deeds (.headless screen) ∧
      session o cyclesPerSecond timerRate trace debug watcher deeds (.window screen scale palette) =
        session o cyclesPerSecond timerRate trace debug watcher deeds (.headless screen) :=
  ⟨session_eq o cyclesPerSecond timerRate trace debug watcher deeds rfl,
    session_eq o cyclesPerSecond timerRate trace debug watcher deeds rfl⟩

end Pacer

end Chip8
