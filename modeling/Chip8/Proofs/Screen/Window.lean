import Chip8.Proofs.Screen.Terminal

/-! # What a window shows

A window gets a frame when it is asked to present one, and only if the picture changed since it
was asked last or the frame is wanted in any case. The flag that tells of changes is taken first
and the frame is put together then. While that succeeds, a request that finds nothing to show finds
the picture in the window as it is. A request that fails has taken the flag as well, so the change
that it told of is lost until there is another one or a frame is forced. -/

namespace Chip8

/-! ## Displays in a window -/

namespace Display

/-- The flag is taken and all else stays. -/
def taken (d : Display) : Display := { d with dirty := false }

variable {room : Room} {d : Display} {scale : Int} {palette : Palette}

/-- No text goes to a window. -/
theorem write_of_window (h : d.surface = .window scale palette) (text : String) :
    d.write text = d := by
  unfold write
  rw [h]

theorem start_of_window (h : d.surface = .window scale palette) : d.start = d :=
  write_of_window h _

theorem clear_of_window (h : d.surface = .window scale palette) : d.clear = d.cleared := by
  change (d.cleared.write clearScreenCode).redraw = d.cleared
  have hcleared : d.cleared.surface = .window scale palette := h
  rw [write_of_window hcleared]
  exact write_of_window hcleared _

theorem drawn_of_window (h : d.surface = .window scale palette) (screen : FrameBuffer) :
    d.drawn screen = d.overdrawn screen :=
  write_of_window (d := d.overdrawn screen) h _

theorem present_of_window (h : d.surface = .window scale palette) (force available : Bool) :
    present room force available d =
      if d.dirty = true ∨ force = true then
        match Frame.render room palette d.screen scale with
        | .error e => .error (.scale e) d.taken
        | .ok f => if available then .ok (some f) d.taken else .error .noWindowSystem d.taken
      else .ok none d.taken := by
  unfold present
  rw [h]
  dsimp only [takeDirty]
  cases d.dirty <;> cases force <;> rfl

end Display

/-! ## Calls -/

/-- A display with the random source beside it, and the frames that its window got. -/
structure Pane where
  periphery : Periphery
  frames : List Frame := []

namespace Pane

inductive Call
  | turn (c : Periphery.Call)
  /-- Asks for a frame, while there is a window system or none. -/
  | present (force available : Bool)

inductive Refusal
  | screen (e : ScreenError)
  | present (e : PresentError)

inductive Answer
  | of (a : Periphery.Answer)
  /-- Whether there was a frame to show. -/
  | presented (shown : Bool)

def display (p : Pane) : Display := p.periphery.display

def put (p : Pane) (display : Display) : Pane :=
  { p with periphery := { p.periphery with display } }

/-- One more frame goes to the window. -/
def blit (p : Pane) (f : Frame) : Pane := { p with frames := p.frames ++ [f] }

def call (room : Room) : Call → EStateM Refusal Pane Answer
  | .turn c => fun p => match Periphery.call c p.periphery with
    | .ok a periphery => .ok (.of a) { p with periphery }
    | .error e periphery => .error (.screen e) { p with periphery }
  | .present force available => fun p =>
    match Display.present room force available p.display with
    | .ok none display => .ok (.presented false) (p.put display)
    | .ok (some f) display => .ok (.presented true) ((p.put display).blit f)
    | .error e display => .error (.present e) (p.put display)

/-- What there is behind a run of calls, each of them carried out or refused. -/
def callAll (room : Room) (calls : List Call) (p : Pane) : Pane :=
  calls.foldl (fun p c => leftBy (call room c) p) p

def Call.isPresent : Call → Bool
  | .present .. => true
  | .turn _ => false

/-- The call asks for another picture. -/
def Call.redraws : Call → Bool
  | .turn c => c.redraws
  | .present .. => false

/-- The call changes the picture: it clears it, or draws a sprite that is not refused. -/
def Alters (room : Room) (p : Pane) (c : Call) : Prop :=
  c.redraws = true ∧ ∃ a q, call room c p = .ok a q

/-- Among the calls there is a change that no request for a frame has followed. -/
def Pending (room : Room) (p : Pane) (calls : List Call) : Prop :=
  ∃ before c after, calls = before ++ c :: after ∧ (callAll room before p).Alters room c ∧
    ∀ d ∈ after, d.isPresent = false

/-- No request for a frame fails on the way. -/
def Builds (room : Room) (p : Pane) (calls : List Call) : Prop :=
  ∀ before c after, calls = before ++ c :: after → c.isPresent = true →
    ∃ a q, call room c (callAll room before p) = .ok a q

/-- Some request was answered with a frame. -/
def HasShown (room : Room) (p : Pane) (calls : List Call) : Prop :=
  ∃ before c after q, calls = before ++ c :: after ∧
    call room c (callAll room before p) = .ok (.presented true) q

/-- A window that was just opened on a picture. -/
def opened (screen : FrameBuffer) (scale : Int) (palette : Palette) (random : RandomSource) :
    Pane :=
  { periphery := { display := .window screen scale palette, random } }

/-- The flag is taken and all else stays. -/
def taken (p : Pane) : Pane := p.put p.display.taken

variable {room : Room} {p q : Pane} {c : Call} {calls : List Call} {scale : Int}
  {palette : Palette} {force available shown : Bool}

/-! ## One call -/

/-- All that can come of a call while the display is in a window. -/
inductive Comes (room : Room) (p : Pane) (scale : Int) (palette : Palette) :
    Call → EStateM.Result Refusal Pane Answer → Prop
  | refused (c : Periphery.Call) (e : ScreenError) :
      Comes room p scale palette (.turn c) (.error (.screen e) p)
  | kept {c : Periphery.Call} {q : Pane} (a : Periphery.Answer) (hc : c.redraws = false)
      (hd : q.display = p.display) (hf : q.frames = p.frames) :
      Comes room p scale palette (.turn c) (.ok (.of a) q)
  | altered {c : Periphery.Call} {q : Pane} (a : Periphery.Answer) (hc : c.redraws = true)
      (hs : q.display.surface = p.display.surface) (hd : q.display.dirty = true)
      (hf : q.frames = p.frames) : Comes room p scale palette (.turn c) (.ok (.of a) q)
  | unchanged (available : Bool) (h : p.display.dirty = false) :
      Comes room p scale palette (.present false available) (.ok (.presented false) p.taken)
  | shown {force : Bool} {f : Frame} (h : p.display.dirty = true ∨ force = true)
      (hf : Frame.render room palette p.display.screen scale = .ok f) :
      Comes room p scale palette (.present force true) (.ok (.presented true) (p.taken.blit f))
  | failed {force : Bool} (available : Bool) (e : PresentError)
      (h : p.display.dirty = true ∨ force = true) :
      Comes room p scale palette (.present force available) (.error (.present e) p.taken)

theorem call_present (room : Room) (p : Pane) (force available : Bool) :
    call room (.present force available) p =
      match Display.present room force available p.display with
    | .ok none display => .ok (.presented false) (p.put display)
    | .ok (some f) display => .ok (.presented true) ((p.put display).blit f)
    | .error e display => .error (.present e) (p.put display) := rfl

theorem comes_turn (room : Room) (hw : p.display.surface = .window scale palette)
    (c : Periphery.Call) :
    Comes room p scale palette (.turn c) (call room (.turn c) p) := by
  cases c with
  | start => exact .kept .done rfl (Display.start_of_window hw) rfl
  | random => exact .kept _ rfl rfl rfl
  | clear =>
    have hclear : p.display.clear = p.display.cleared := Display.clear_of_window hw
    have hs : p.display.clear.surface = p.display.surface := by rw [hclear]; rfl
    have hd : p.display.clear.dirty = true := by rw [hclear]; rfl
    exact .altered .done rfl hs hd rfl
  | draw x y height sprite =>
    obtain ⟨e, he⟩ | ⟨hit, screen, hok⟩ := Periphery.call_draw p.periphery x y height sprite
    · simp only [call, he]
      exact .refused _ e
    · have hdrawn : p.display.drawn screen = p.display.overdrawn screen :=
        Display.drawn_of_window hw screen
      have hs : (p.display.drawn screen).surface = p.display.surface := by rw [hdrawn]; rfl
      have hd : (p.display.drawn screen).dirty = true := by rw [hdrawn]; rfl
      simp only [call, hok]
      exact .altered (.hit hit) rfl hs hd rfl

theorem comes_present (room : Room) (hw : p.display.surface = .window scale palette)
    (force available : Bool) : Comes room p scale palette (.present force available)
      (call room (.present force available) p) := by
  rw [call_present, Display.present_of_window hw]
  by_cases hwanted : p.display.dirty = true ∨ force = true
  · rw [if_pos hwanted]
    cases hf : Frame.render room palette p.display.screen scale with
    | error e => exact .failed available (.scale e) hwanted
    | ok f =>
      cases available with
      | false => exact .failed false .noWindowSystem hwanted
      | true => exact .shown hwanted hf
  · rw [if_neg hwanted]
    rw [not_or, Bool.not_eq_true, Bool.not_eq_true] at hwanted
    obtain ⟨hd, rfl⟩ := hwanted
    exact .unchanged available hd

theorem comes (room : Room) (hw : p.display.surface = .window scale palette) (c : Call) :
    Comes room p scale palette c (call room c p) := by
  cases c with
  | turn c => exact comes_turn room hw c
  | present force available => exact comes_present room hw force available

theorem surface_call (room : Room) (hw : p.display.surface = .window scale palette) (c : Call) :
    (leftBy (call room c) p).display.surface = .window scale palette := by
  have h := comes room hw c
  unfold leftBy
  generalize call room c p = x at h ⊢
  cases h with
  | kept a hc hd hf => exact hd ▸ hw
  | altered a hc hs hd hf => exact hs.trans hw
  | refused | unchanged | shown | failed => exact hw

/-- The flag is set by a change and taken by every request for a frame. -/
theorem dirty_call (room : Room) (hw : p.display.surface = .window scale palette) (c : Call) :
    (leftBy (call room c) p).display.dirty = true ↔
      p.Alters room c ∨ p.display.dirty = true ∧ c.isPresent = false := by
  have h := comes room hw c
  unfold leftBy Alters
  generalize call room c p = x at h ⊢
  cases h with
  | refused c e => simp [Call.isPresent]
  | kept a hc hd hf => simp [hd, hc, Call.isPresent, Call.redraws]
  | altered a hc hs hd hf => simp [hd, hc, Call.redraws]
  | unchanged | shown | failed =>
    simp [Call.isPresent, Call.redraws, taken, put, blit, display, Display.taken]

theorem frames_call (room : Room) (hw : p.display.surface = .window scale palette) (c : Call) :
    p.frames <+: (leftBy (call room c) p).frames := by
  have h := comes room hw c
  unfold leftBy
  generalize call room c p = x at h ⊢
  cases h with
  | kept a hc hd hf => exact hf ▸ List.prefix_refl _
  | altered a hc hs hd hf => exact hf ▸ List.prefix_refl _
  | shown h hf => exact List.prefix_append _ _
  | refused | unchanged | failed => exact List.prefix_refl _

/-- The frame that the window got last is that of the picture, as long as the flag is not set. -/
def UpToDate (room : Room) (p : Pane) (scale : Int) (palette : Palette) : Prop :=
  p.display.dirty = false → ∀ f, p.frames.getLast? = some f →
    Frame.render room palette p.display.screen scale = .ok f

/-- Only a request that fails leaves an old frame in the window without the flag. -/
theorem UpToDate.call (h : p.UpToDate room scale palette)
    (hw : p.display.surface = .window scale palette)
    (hc : c.isPresent = true → ∃ a q, call room c p = .ok a q) :
    (leftBy (Pane.call room c) p).UpToDate room scale palette := by
  have hcomes := comes room hw c
  unfold leftBy
  generalize Pane.call room c p = x at hcomes hc ⊢
  cases hcomes with
  | refused => exact h
  | kept a hc hd hf =>
    unfold UpToDate
    dsimp only
    rwa [hd, hf]
  | altered a hc hs hd hf => exact fun hclean => nomatch hd.symm.trans hclean
  | unchanged available hd => exact fun _ f hlast => h hd f hlast
  | shown hwanted hf =>
    intro _ f hlast
    have hlast' : (p.frames ++ [_]).getLast? = some f := hlast
    rw [List.getLast?_concat] at hlast'
    cases hlast'
    exact hf
  | failed available e hwanted =>
    obtain ⟨a, q, he⟩ := hc rfl
    cases he

/-! ## Runs of calls -/

theorem callAll_cons (room : Room) (c : Call) (calls : List Call) (p : Pane) :
    callAll room (c :: calls) p = callAll room calls (leftBy (call room c) p) := rfl

theorem surface_callAll (room : Room) (calls : List Call) : ∀ {p : Pane},
    p.display.surface = .window scale palette →
    (callAll room calls p).display.surface = .window scale palette := by
  induction calls with
  | nil => exact fun hw => hw
  | cons c calls ih => exact fun hw => ih (surface_call room hw c)

theorem frames_callAll (room : Room) (calls : List Call) : ∀ {p : Pane},
    p.display.surface = .window scale palette → p.frames <+: (callAll room calls p).frames := by
  induction calls with
  | nil => exact fun _ => List.prefix_refl _
  | cons c calls ih => exact fun hw => (frames_call room hw c).trans (ih (surface_call room hw c))

/-- A change that is pending is the first call, or it comes behind it. -/
theorem pending_cons : p.Pending room (c :: calls) ↔
    (p.Alters room c ∧ ∀ d ∈ calls, d.isPresent = false) ∨
      (leftBy (call room c) p).Pending room calls := by
  constructor
  · intro h
    obtain ⟨before, e, after, hcalls, he, hafter⟩ := h
    cases before with
    | nil =>
      cases hcalls
      exact .inl ⟨he, hafter⟩
    | cons b before =>
      cases hcalls
      exact .inr ⟨before, e, after, rfl, he, hafter⟩
  · intro h
    rcases h with ⟨hc, hafter⟩ | ⟨before, e, after, rfl, he, hafter⟩
    · exact ⟨[], c, calls, rfl, hc, hafter⟩
    · exact ⟨c :: before, e, after, rfl, he, hafter⟩

/-- Behind a run the flag tells of changes that no request for a frame has followed, and it was set
before. -/
theorem dirty_callAll (room : Room) (calls : List Call) : ∀ {p : Pane},
    p.display.surface = .window scale palette → ((callAll room calls p).display.dirty = true ↔
      p.Pending room calls ∨ p.display.dirty = true ∧ ∀ d ∈ calls, d.isPresent = false) := by
  induction calls with
  | nil =>
    intro p _
    have hnone : ¬ p.Pending room [] := by
      intro h
      obtain ⟨before, c, after, hcalls, _⟩ := h
      cases before <;> cases hcalls
    simp [callAll, hnone]
  | cons c calls ih =>
    intro p hw
    rw [callAll_cons, ih (surface_call room hw c), dirty_call room hw, pending_cons,
      List.forall_mem_cons, or_and_right, and_assoc, or_left_comm, or_assoc]

/-- Behind a run from a state without the flag the flag tells of changes that are pending. -/
theorem dirty_of_clean (room : Room) (calls : List Call)
    (hw : p.display.surface = .window scale palette)
    (hp : p.display.dirty = false) :
    (callAll room calls p).display.dirty = true ↔ p.Pending room calls := by
  simp [dirty_callAll room calls hw, hp]

theorem builds_nil (room : Room) (p : Pane) : p.Builds room [] := by
  intro before c after hcalls
  cases before <;> cases hcalls

theorem builds_cons : p.Builds room (c :: calls) ↔
    (c.isPresent = true → ∃ a q, call room c p = .ok a q) ∧
      (leftBy (call room c) p).Builds room calls := by
  constructor
  · intro h
    exact ⟨h [] c calls rfl, fun before d after hcalls =>
      h (c :: before) d after (congrArg (c :: ·) hcalls)⟩
  · intro h before d after hcalls
    cases before with
    | nil =>
      cases hcalls
      exact h.1
    | cons b before =>
      cases hcalls
      exact h.2 before d after rfl

theorem Builds.of_append {later : List Call} (h : p.Builds room (calls ++ later)) :
    p.Builds room calls := by
  intro before c after hcalls
  refine h before c (after ++ later) ?_
  rw [hcalls, List.append_assoc, List.cons_append]

theorem upToDate_callAll (calls : List Call) : ∀ {p : Pane}, p.Builds room calls →
    p.display.surface = .window scale palette → p.UpToDate room scale palette →
    (callAll room calls p).UpToDate room scale palette := by
  induction calls with
  | nil => exact fun _ _ hup => hup
  | cons c calls ih =>
    intro p h hw hup
    obtain ⟨hfirst, hrest⟩ := builds_cons.mp h
    exact ih hrest (surface_call room hw c) (hup.call hw hfirst)

theorem callAll_append (room : Room) (before after : List Call) (p : Pane) :
    callAll room (before ++ after) p = callAll room after (callAll room before p) :=
  List.foldl_append

theorem HasShown.frames_ne_nil (h : p.HasShown room calls)
    (hw : p.display.surface = .window scale palette) : (callAll room calls p).frames ≠ [] := by
  obtain ⟨before, c, after, q, rfl, hq⟩ := h
  have hbefore := surface_callAll room before hw
  have hcomes := comes room hbefore c
  have hlater := frames_callAll room after (surface_call room hbefore c)
  rw [callAll_append, callAll_cons]
  rw [leftBy_of_ok hq] at hlater ⊢
  rw [hq] at hcomes
  cases hcomes with
  | shown hwanted hf =>
    intro hnil
    rw [hnil, List.prefix_nil] at hlater
    exact absurd hlater (List.append_ne_nil_of_right_ne_nil _ (List.cons_ne_nil _ _))

/-! ## Requests for a frame -/

/-- A request that does not fail shows a frame if there is a change to show, or by force. -/
theorem presented_iff (hw : p.display.surface = .window scale palette)
    (h : call room (.present force available) p = .ok (.presented shown) q) :
    shown = true ↔ force = true ∨ p.display.dirty = true := by
  have hcomes := comes room hw (.present force available)
  rw [h] at hcomes
  cases hcomes with
  | unchanged available hd => simp [hd]
  | shown hwanted hf => simpa using hwanted.symm

/-- As long as frames can be put together, a window shows the picture. A request is met with one
frame, that of the picture, if the picture changed since the request before or a frame is forced.
Where it is not, the frame that is in the window is that of the picture. -/
theorem never_stale {w : Pane} {screen : FrameBuffer} {random : RandomSource} {before : List Call}
    (hw : w = opened screen scale palette random)
    (hb : w.Builds room (before ++ [.present force available])) :
    ∃ shown q, call room (.present force available) (callAll room before w) =
        .ok (.presented shown) q ∧
      (shown = true ↔ force = true ∨ w.Pending room before) ∧
      (shown = true → ∃ f, Frame.render room palette q.display.screen scale = .ok f ∧
        q.frames = (callAll room before w).frames ++ [f]) ∧
      (shown = false → q.frames = (callAll room before w).frames ∧
        (w.HasShown room before → ∃ f, q.frames.getLast? = some f ∧
          Frame.render room palette q.display.screen scale = .ok f)) := by
  have hwindow : w.display.surface = .window scale palette := by rw [hw]; rfl
  have hclean : w.display.dirty = false := by rw [hw]; rfl
  have hempty : w.frames = [] := by rw [hw]; rfl
  have hnow := surface_callAll room before hwindow
  have hup := upToDate_callAll before hb.of_append hwindow fun _ f hlast => by
    rw [hempty] at hlast
    cases hlast
  obtain ⟨a, q, hq⟩ := hb before _ [] rfl rfl
  have hcomes := comes room hnow (.present force available)
  rw [hq] at hcomes
  have hiff {shown : Bool} {q : Pane}
      (hq : call room (.present force available) (callAll room before w) =
        .ok (.presented shown) q) :
      shown = true ↔ force = true ∨ w.Pending room before :=
    (presented_iff hnow hq).trans (or_congr Iff.rfl (dirty_of_clean room before hwindow hclean))
  generalize hp : callAll room before w = p at *
  cases hcomes with
  | unchanged available hd =>
    refine ⟨false, _, hq, hiff hq, nofun, fun _ => ⟨rfl, fun hshown => ?_⟩⟩
    have hne := hshown.frames_ne_nil hwindow
    rw [hp] at hne
    obtain ⟨f, hlast⟩ := Option.ne_none_iff_exists'.mp (mt List.getLast?_eq_none_iff.mp hne)
    exact ⟨f, hlast, hup hd f hlast⟩
  | shown hwanted hf => exact ⟨true, _, hq, hiff hq, fun _ => ⟨_, hf, rfl⟩, nofun⟩

/-- Two pixels side by side, whose frame takes six bytes. -/
def pair : Pane := opened (.blank 2 1 Nat.two_pos Nat.one_pos) 1 .monochrome
  (.lanes .seed)

/-- A dot is drawn and shown. Then a sprite is refused, and a request finds no window system, which
it does not need. The next one finds the dot in the window. -/
theorem never_stale_pair : ∃ before, pair.Builds (.upTo 6) (before ++ [.present false true]) ∧
    ∃ q, call (.upTo 6) (.present false true) (callAll (.upTo 6) before pair) =
        .ok (.presented false) q ∧
      ∃ f, q.frames.getLast? = some f ∧
        Frame.render (.upTo 6) .monochrome q.display.screen 1 = .ok f := by
  have hb : pair.Builds (.upTo 6) ([.turn (.draw 0 0 1 [0x80]), .present false true,
      .turn (.draw 0 0 2 [0x80]), .present false false] ++ [.present false true]) :=
    builds_cons.mpr ⟨nofun, builds_cons.mpr ⟨fun _ => ⟨_, _, rfl⟩, builds_cons.mpr ⟨nofun,
      builds_cons.mpr ⟨fun _ => ⟨_, _, rfl⟩, builds_cons.mpr ⟨fun _ => ⟨_, _, rfl⟩,
        builds_nil _ _⟩⟩⟩⟩⟩
  obtain ⟨shown, q, hq, _, _, hnot⟩ := never_stale rfl hb
  obtain rfl : shown = false := by cases hq; rfl
  refine ⟨_, hb, q, hq, (hnot rfl).2 ?_⟩
  exact ⟨[.turn (.draw 0 0 1 [0x80])], .present false true, _, _, rfl, rfl⟩

theorem taken_of_clean (h : p.display.dirty = false) : p.taken = p := by
  have hd : p.display.taken = p.display := by rw [Display.taken, ← h]
  rw [taken, hd]
  rfl

/-- A request that fails takes the flag, so it leaves the window as it was exactly if there was
nothing to show. The next request that can be met is met with a frame only by force, or if there
is another change before it. -/
theorem failure_takes_flag {e : Refusal} (hw : p.display.surface = .window scale palette)
    (h : call room (.present force available) p = .error e q) :
    q = p.taken ∧ (q = p ↔ p.display.dirty = false) ∧
    ∀ between force available shown r,
      call room (.present force available) (callAll room between q) = .ok (.presented shown) r →
        (shown = true ↔ force = true ∨ q.Pending room between) := by
  have hcomes := comes room hw (.present force available)
  rw [h] at hcomes
  cases hcomes with
  | failed available e hwanted =>
    refine ⟨rfl, ⟨fun hq => ?_, taken_of_clean⟩, fun between force available shown r hr => ?_⟩
    · rw [← hq]
      rfl
    · have htaken : p.taken.display.surface = .window scale palette := hw
      exact (presented_iff (surface_callAll room between htaken) hr).trans
        (or_congr Iff.rfl (dirty_of_clean room between htaken rfl))

/-- The dot that was drawn is still to be shown. -/
def dotted : Pane := callAll (.upTo 6) [.turn (.draw 0 0 1 [0x80])] pair

/-- Without a window system the dot is not shown. Behind that it takes force to show it. -/
theorem failure_takes_flag_dotted : dotted.display.surface = .window 1 .monochrome ∧
    ∃ q, call (.upTo 6) (.present false false) dotted = .error (.present .noWindowSystem) q ∧
      q ≠ dotted ∧ ∃ shown r,
        call (.upTo 6) (.present true true) q = .ok (.presented shown) r ∧ shown = true := by
  have hw : dotted.display.surface = .window 1 .monochrome := rfl
  have hfail : call (.upTo 6) (.present false false) dotted =
      .error (.present .noWindowSystem) dotted.taken := rfl
  obtain ⟨_, hsame, hnext⟩ := failure_takes_flag hw hfail
  refine ⟨hw, _, hfail, fun h => (nomatch hsame.mp h), true, _, rfl, ?_⟩
  exact (hnext [] true true true _ rfl).mpr (.inl rfl)

/-- The window system is there again, and the dot is not shown. -/
theorem failure_loses_dot : dotted.display.dirty = true ∧
    (∃ q, call (.upTo 6) (.present false false) dotted = .error (.present .noWindowSystem) q ∧
      q.display.dirty = false ∧
      ∃ r, call (.upTo 6) (.present false true) q = .ok (.presented false) r ∧ r.frames = []) ∧
    ¬ ∀ (p q : Pane) (force available : Bool) (e : Refusal),
      p.display.surface = .window 1 .monochrome →
        call (.upTo 6) (.present force available) p = .error e q → q = p := by
  have hfail : call (.upTo 6) (.present false false) dotted =
      .error (.present .noWindowSystem) dotted.taken := rfl
  refine ⟨rfl, ⟨_, hfail, rfl, _, rfl, rfl⟩, fun hkeeps => ?_⟩
  have hsame := congrArg (fun p : Pane => p.display.dirty) (hkeeps _ _ _ _ _ rfl hfail)
  cases hsame

end Pane

end Chip8
