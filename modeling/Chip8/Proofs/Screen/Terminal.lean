import Chip8.Proofs.Screen.Display
import Chip8.Random

/-! # What a terminal shows

A terminal is a stream of text that only grows. With every change of the picture the cursor goes
home and the whole picture is written, in blanks, number signs and line feeds, so no later part of
the stream can be taken for the mark that sends the cursor home. Behind the last of these marks
stands the picture as it is, and its pixels can be read off the lines. -/

namespace Chip8

/-! ## The lines of a picture -/

namespace FrameBuffer

/-- The lines of the text as lists of characters. -/
def charLines (fb : FrameBuffer) : List (List Char) :=
  fb.rows.map fun r => r.map fun on => if on then '#' else ' '

/-- The lines tell which pixels are lit. -/
structure Shown (fb : FrameBuffer) (lines : List (List Char)) : Prop where
  count : lines.length = fb.height
  pixel : ∀ y < fb.height, ∃ chars, lines[y]? = some chars ∧ chars.length = fb.width ∧
    ∀ x < fb.width, (chars[x]? = some '#' ↔ fb.lit x y = true)

theorem toList_text (fb : FrameBuffer) : fb.text.toList = ['\n'].intercalate fb.charLines := by
  have hlines : fb.lines.map String.toList = fb.charLines := by
    simp [lines, charLines, Function.comp_def]
  rw [text, String.toList_intercalate, hlines]
  rfl

theorem mem_charLines {fb : FrameBuffer} {line : List Char} {c : Char} (hl : line ∈ fb.charLines)
    (hc : c ∈ line) : c = '#' ∨ c = ' ' := by
  obtain ⟨r, _, rfl⟩ := List.mem_map.mp hl
  obtain ⟨on, _, rfl⟩ := List.mem_map.mp hc
  cases on
  · exact .inr rfl
  · exact .inl rfl

theorem mem_intercalate_newline {lines : List (List Char)} {c : Char}
    (h : c ∈ ['\n'].intercalate lines) : c = '\n' ∨ ∃ line ∈ lines, c ∈ line := by
  induction lines with
  | nil => cases h
  | cons line lines ih =>
    cases lines with
    | nil =>
      rw [List.intercalate_singleton] at h
      exact .inr ⟨line, List.mem_cons_self, h⟩
    | cons next lines =>
      rw [List.intercalate_cons_cons, List.mem_append, List.mem_append, List.mem_singleton] at h
      rcases h with (h | h) | h
      · exact .inr ⟨line, List.mem_cons_self, h⟩
      · exact .inl h
      · exact (ih h).imp id fun ⟨l, hl, hc⟩ => ⟨l, List.mem_cons_of_mem _ hl, hc⟩

theorem mem_text {fb : FrameBuffer} {c : Char} (h : c ∈ fb.text.toList) :
    c = '\n' ∨ c = '#' ∨ c = ' ' := by
  rw [toList_text] at h
  exact (mem_intercalate_newline h).imp id fun ⟨_, hl, hc⟩ => mem_charLines hl hc

theorem splitOn_text (fb : FrameBuffer) : fb.text.toList.splitOn '\n' = fb.charLines := by
  have hne : fb.charLines ≠ [] := by
    have hlen : fb.charLines.length = fb.height := by simp [charLines, rows]
    intro h
    rw [h] at hlen
    exact absurd hlen (Nat.ne_of_lt fb.height_pos)
  rw [toList_text]
  refine List.splitOn_intercalate '\n' (fun line hl hc => ?_) hne
  rcases mem_charLines hl hc with h | h <;> cases h

/-- With a line feed behind the last line as well there is one more piece, with nothing in it. -/
theorem splitOn_text_newline (fb : FrameBuffer) :
    (fb.text ++ "\n").toList.splitOn '\n' = fb.charLines ++ [[]] := by
  rw [String.toList_append]
  exact (List.splitOn_append_cons_self _ _).trans (congrArg (· ++ _) fb.splitOn_text)

theorem shown_charLines (fb : FrameBuffer) : fb.Shown fb.charLines where
  count := by simp [charLines, rows]
  pixel y hy := by
    refine ⟨(fb.row y).map fun on => if on then '#' else ' ', ?_, by simp [row], fun x hx => ?_⟩
    · simp [charLines, rows, hy]
    · simp only [row, List.map_map, List.getElem?_map, List.getElem?_range hx, Option.map_some,
        Function.comp_apply]
      cases fb.lit x y <;> simp

theorem ext_lit {fb fb' : FrameBuffer} (hw : fb'.width = fb.width) (hh : fb'.height = fb.height)
    (h : ∀ y < fb.height, ∀ x < fb.width, fb'.lit x y = fb.lit x y) : fb' = fb := by
  have hpixels : fb'.pixels = fb.pixels := by
    refine Array.ext (by rw [fb'.size_pixels, fb.size_pixels, hw, hh]) fun k hk hk' => ?_
    have hrow : k / fb.width < fb.height := by
      rw [fb.size_pixels] at hk'
      exact Nat.div_lt_of_lt_mul hk'
    have hlit := h _ hrow _ (Nat.mod_lt k fb.width_pos)
    unfold lit at hlit
    rwa [hw, Nat.div_add_mod', ← Array.getElem_eq_getD, ← Array.getElem_eq_getD] at hlit
  cases fb
  cases fb'
  cases hw
  cases hh
  cases hpixels
  rfl

/-- Pictures of one size that have the same text are the same. -/
theorem eq_of_text_eq {fb fb' : FrameBuffer} (hw : fb'.width = fb.width)
    (hh : fb'.height = fb.height) (h : fb'.text = fb.text) : fb' = fb := by
  have hlines : fb'.charLines = fb.charLines := by
    rw [← splitOn_text, ← splitOn_text, h]
  refine ext_lit hw hh fun y hy x hx => ?_
  obtain ⟨line, hl, _, hlit⟩ := fb.shown_charLines.pixel y hy
  obtain ⟨line', hl', _, hlit'⟩ := fb'.shown_charLines.pixel y (hh ▸ hy)
  rw [hlines, hl] at hl'
  cases hl'
  rw [Bool.eq_iff_iff, ← hlit x hx, hlit' x (hw ▸ hx)]

end FrameBuffer

/-! ## Marks in a stream -/

/-- Behind the last place at which the mark stands in the text there is this rest. -/
structure EndsWith (mark text rest : List Char) : Prop where
  found : ∃ before, text = before ++ mark ++ rest
  last : ∀ before rest', text = before ++ mark ++ rest' → rest.length ≤ rest'.length

/-- A mark whose first character comes nowhere behind it stands there for the last time. -/
theorem endsWith_append {c : Char} {mark rest : List Char} (h : c ∉ mark ++ rest)
    (before : List Char) : EndsWith (c :: mark) (before ++ c :: mark ++ rest) rest where
  found := ⟨before, rfl⟩
  last before' rest' he := by
    rw [List.append_assoc, List.append_assoc, List.append_eq_append_iff] at he
    rcases he with ⟨between, _, he⟩ | ⟨between, _, he⟩
    · cases between with
      | nil =>
        rw [List.nil_append] at he
        exact Nat.le_of_eq (congrArg List.length (List.append_cancel_left he))
      | cons d between =>
        -- the other place lies behind this one, where the first character does not come
        rw [List.cons_append, List.cons_append, List.cons.injEq] at he
        refine absurd ?_ h
        rw [he.2]
        simp
    · have hlen := congrArg List.length he
      simp only [List.length_append, List.length_cons] at hlen
      omega

/-! ## Displays on a terminal -/

namespace Display

def OnTerminal (d : Display) : Prop := ∃ written, d.surface = .terminal written

/-- The whole text that was written. -/
def stream (d : Display) : List Char := (String.join d.written.toList).toList

/-- The picture as it is written. -/
def picture (d : Display) : List Char := (d.screen.text ++ "\n").toList

/-- The stream ends on the picture: it stands behind the last mark that sends the cursor home. -/
def Current (d : Display) : Prop := EndsWith cursorHomeCode.toList d.stream d.picture

variable {d : Display}

theorem OnTerminal.write (h : d.OnTerminal) (text : String) : (d.write text).OnTerminal := by
  obtain ⟨written, hw⟩ := h
  unfold Display.write
  rw [hw]
  exact ⟨_, rfl⟩

theorem stream_write (h : d.OnTerminal) (text : String) :
    (d.write text).stream = d.stream ++ text.toList := by
  obtain ⟨written, hw⟩ := h
  unfold stream Display.write Display.written
  simp [hw]

theorem OnTerminal.redraw (h : d.OnTerminal) : d.redraw.OnTerminal := h.write _

/-- What is done to the picture and the counts leaves the terminal where it is. -/
theorem OnTerminal.of_surface {e : Display} (h : d.OnTerminal) (hs : e.surface = d.surface) :
    e.OnTerminal := by
  obtain ⟨written, hw⟩ := h
  exact ⟨written, hs.trans hw⟩

/-- The cleared picture, with nothing written yet. -/
def cleared (d : Display) : Display :=
  { d with screen := d.screen.clear, clearCount := d.clearCount + 1, dirty := true }

theorem OnTerminal.cleared (h : d.OnTerminal) : d.cleared.OnTerminal := h.of_surface rfl

/-- A picture that was drawn on, with nothing written yet. -/
def overdrawn (d : Display) (screen : FrameBuffer) : Display :=
  { d with screen, drawCount := d.drawCount + 1, dirty := true }

theorem OnTerminal.overdrawn (h : d.OnTerminal) (screen : FrameBuffer) :
    (d.overdrawn screen).OnTerminal := h.of_surface rfl

theorem stream_of_surface {e : Display} (hs : e.surface = d.surface) : e.stream = d.stream := by
  unfold stream Display.written
  rw [hs]

theorem stream_redraw (h : d.OnTerminal) :
    d.redraw.stream = d.stream ++ cursorHomeCode.toList ++ d.redraw.picture := by
  unfold picture
  rw [screen_redraw, redraw, stream_write h]
  simp only [String.toList_append, List.append_assoc]

theorem escape_not_mem_picture (d : Display) : '\x1b' ∉ d.picture := by
  intro h
  rw [picture, String.toList_append, List.mem_append] at h
  rcases h with h | h
  · rcases FrameBuffer.mem_text h with h | h | h <;> cases h
  · exact absurd h (by decide)

theorem current_redraw (h : d.OnTerminal) : d.redraw.Current := by
  have hmark : cursorHomeCode.toList = '\x1b' :: ['[', 'H'] := rfl
  unfold Current
  rw [stream_redraw h, hmark]
  refine endsWith_append (fun hc => ?_) d.stream
  rcases List.mem_append.mp hc with hc | hc
  · exact absurd hc (by decide)
  · exact escape_not_mem_picture _ hc

theorem prefix_write (h : d.OnTerminal) (text : String) : d.stream <+: (d.write text).stream := by
  rw [stream_write h]
  exact List.prefix_append _ _

theorem current_clear (h : d.OnTerminal) : d.clear.Current :=
  current_redraw (h.cleared.write clearScreenCode)

theorem prefix_clear (h : d.OnTerminal) : d.stream <+: d.clear.stream := by
  have hcode := prefix_write h.cleared clearScreenCode
  rw [stream_of_surface (show d.cleared.surface = d.surface from rfl)] at hcode
  exact hcode.trans (prefix_write (h.cleared.write clearScreenCode) _)

theorem current_drawn (h : d.OnTerminal) (screen : FrameBuffer) : (d.drawn screen).Current :=
  current_redraw (h.overdrawn screen)

theorem prefix_drawn (h : d.OnTerminal) (screen : FrameBuffer) :
    d.stream <+: (d.drawn screen).stream :=
  prefix_write (h.overdrawn screen) _

theorem draw_eq_ok {x y height : Int} {sprite : List Int} {hit : Bool} {e : Display}
    (h : d.draw x y height sprite = .ok (hit, e)) : ∃ screen, e = d.drawn screen := by
  obtain ⟨p, _, hp⟩ := except_bind_eq_ok.mp h
  cases hp
  exact ⟨p.2, rfl⟩

end Display

/-! ## Calls -/

/-- What instructions turn to: a display, and random numbers beside it. -/
structure Periphery where
  display : Display
  random : RandomSource := .lanes .seed

namespace Periphery

inductive Call
  | start
  | clear
  | draw (x y height : Int) (sprite : List Int)
  | random

inductive Answer
  | done
  | hit (collided : Bool)
  | number (v : Int)

/-- A draw is refused before anything is drawn. -/
def call : Call → EStateM ScreenError Periphery Answer
  | .start => fun p => .ok .done { p with display := p.display.start }
  | .clear => fun p => .ok .done { p with display := p.display.clear }
  | .draw x y height sprite => fun p => match p.display.draw x y height sprite with
    | .ok (hit, display) => .ok (.hit hit) { p with display }
    | .error e => .error e p
  | .random => fun p => .ok (.number p.random.next.1) { p with random := p.random.next.2 }

/-- What there is behind a run of calls, each of them carried out or refused. -/
def callAll (calls : List Call) (p : Periphery) : Periphery :=
  calls.foldl (fun p c => leftBy (call c) p) p

/-- The call asks for another picture. -/
def Call.redraws : Call → Bool
  | .clear | .draw .. => true
  | _ => false

variable {p q : Periphery} {c : Call}

/-- All that a call can do to the display. -/
inductive Effect (p : Periphery) : Call → Periphery → Prop
  | refused (c : Call) : Effect p c p
  | started {q : Periphery} (h : q.display = p.display.start) : Effect p .start q
  | kept {q : Periphery} (h : q.display = p.display) : Effect p .random q
  | cleared {q : Periphery} (h : q.display = p.display.clear) : Effect p .clear q
  | drawn {q : Periphery} (x y height : Int) (sprite : List Int) (screen : FrameBuffer)
      (h : q.display = p.display.drawn screen) : Effect p (.draw x y height sprite) q

theorem call_draw (p : Periphery) (x y height : Int) (sprite : List Int) :
    (∃ e, call (.draw x y height sprite) p = .error e p) ∨
    ∃ hit screen, call (.draw x y height sprite) p =
      .ok (.hit hit) { p with display := p.display.drawn screen } := by
  cases hd : p.display.draw x y height sprite with
  | error e => exact .inl ⟨e, by simp only [call, hd]⟩
  | ok r =>
    obtain ⟨hit, display⟩ := r
    obtain ⟨screen, rfl⟩ := Display.draw_eq_ok hd
    exact .inr ⟨hit, screen, by simp only [call, hd]⟩

theorem effect_of_call (c : Call) (p : Periphery) : Effect p c (leftBy (call c) p) := by
  cases c with
  | start => exact .started rfl
  | clear => exact .cleared rfl
  | random => exact .kept rfl
  | draw x y height sprite =>
    obtain ⟨e, he⟩ | ⟨hit, screen, hq⟩ := call_draw p x y height sprite
    · rw [leftBy_of_error he]
      exact .refused _
    · rw [leftBy_of_ok hq]
      exact .drawn x y height sprite screen rfl

theorem eq_of_call_error {e : ScreenError} (h : call c p = .error e q) : q = p := by
  cases c with
  | start | clear | random => cases h
  | draw x y height sprite =>
    obtain ⟨e', he⟩ | ⟨hit, screen, hq⟩ := call_draw p x y height sprite
    · cases he.symm.trans h
      rfl
    · cases hq.symm.trans h

/-- Whatever is called, the display stays on its terminal and the text grows. -/
theorem Effect.grows (h : Effect p c q) (ht : p.display.OnTerminal) :
    q.display.OnTerminal ∧ p.display.stream <+: q.display.stream := by
  cases h with
  | refused => exact ⟨ht, List.prefix_refl _⟩
  | started h =>
    rw [h]
    exact ⟨ht.write _, Display.prefix_write ht _⟩
  | kept h =>
    rw [h]
    exact ⟨ht, List.prefix_refl _⟩
  | cleared h =>
    rw [h]
    exact ⟨(ht.cleared.write _).redraw, Display.prefix_clear ht⟩
  | drawn x y height sprite screen h =>
    rw [h]
    exact ⟨(ht.overdrawn screen).redraw, Display.prefix_drawn ht screen⟩

/-- Only a start takes the picture off the end of the stream. -/
theorem Effect.current (h : Effect p c q) (ht : p.display.OnTerminal) (hc : c ≠ .start)
    (hcur : p.display.Current) : q.display.Current := by
  cases h with
  | refused => exact hcur
  | started h => exact absurd rfl hc
  | kept h =>
    rw [h]
    exact hcur
  | cleared h =>
    rw [h]
    exact Display.current_clear ht
  | drawn x y height sprite screen h =>
    rw [h]
    exact Display.current_drawn ht screen

theorem current_of_redraws {a : Answer} (ht : p.display.OnTerminal) (hr : c.redraws = true)
    (h : call c p = .ok a q) : q.display.Current := by
  cases c with
  | start | random => cases hr
  | clear =>
    cases h
    exact Display.current_clear ht
  | draw x y height sprite =>
    obtain ⟨e, he⟩ | ⟨hit, screen, hq⟩ := call_draw p x y height sprite
    · cases he.symm.trans h
    · cases hq.symm.trans h
      exact Display.current_drawn ht screen

theorem onTerminal_callAll (calls : List Call) : ∀ {p : Periphery}, p.display.OnTerminal →
    (callAll calls p).display.OnTerminal := by
  induction calls with
  | nil => exact fun ht => ht
  | cons c calls ih => exact fun ht => ih ((effect_of_call c _).grows ht).1

theorem current_callAll (calls : List Call) : ∀ {p : Periphery}, p.display.OnTerminal →
    p.display.Current → .start ∉ calls → (callAll calls p).display.Current := by
  induction calls with
  | nil => exact fun _ hcur _ => hcur
  | cons c calls ih =>
    intro p ht hcur hstart
    rw [List.mem_cons, not_or] at hstart
    have hstep := effect_of_call c p
    exact ih (hstep.grows ht).1 (hstep.current ht (Ne.symm hstart.1) hcur) hstart.2

/-- What holds of a terminal at any time. Behind a change of the picture the stream ends on it,
until the terminal is started again. -/
structure KeepsUp (p : Periphery) : Prop where
  grows : ∀ c, p.display.stream <+: (leftBy (call c) p).display.stream
  refused : ∀ c e q, call c p = .error e q → q.display.stream = p.display.stream
  random : (leftBy (call .random) p).display.stream = p.display.stream
  current : ∀ c a q, c.redraws = true → call c p = .ok a q → ∀ later, .start ∉ later →
    EndsWith Display.cursorHomeCode.toList (callAll later q).display.stream
      ((callAll later q).display.screen.text ++ "\n").toList

theorem keepsUp (ht : p.display.OnTerminal) : KeepsUp p where
  grows c := ((effect_of_call c p).grows ht).2
  refused c e q h := by rw [eq_of_call_error h]
  random := rfl
  current c a q hr h later hstart := by
    have hq : q.display.OnTerminal := leftBy_of_ok h ▸ ((effect_of_call c p).grows ht).1
    exact current_callAll later hq (current_of_redraws ht hr h) hstart

/-- Whatever is called, a terminal keeps up with its picture: text is only put behind, and behind a
change the stream ends on the picture as it is. The text of a picture splits into its lines, which
tell each pixel, so no two pictures of one size have the same text. -/
theorem stream_keeps_up {written : Array String} (hp : p.display.surface = .terminal written) :
    (∀ calls, KeepsUp (callAll calls p)) ∧
    ∀ fb : FrameBuffer,
      (∃ lines, (fb.text ++ "\n").toList.splitOn '\n' = lines ++ [[]] ∧ fb.Shown lines) ∧
      ∀ fb' : FrameBuffer, fb'.width = fb.width → fb'.height = fb.height →
        fb'.text = fb.text → fb' = fb :=
  ⟨fun calls => keepsUp (onTerminal_callAll calls ⟨written, hp⟩), fun fb =>
    ⟨⟨fb.charLines, fb.splitOn_text_newline, fb.shown_charLines⟩,
      fun _ hw hh h => FrameBuffer.eq_of_text_eq hw hh h⟩⟩

/-- On a terminal that something was written to before, a dot is drawn in the last of two columns.
Behind the last mark there is a line with a blank and a number sign. -/
theorem stream_keeps_up_dot :
    let p : Periphery :=
      { display := { screen := .blank 2 1 (by decide) (by decide), surface := .terminal #["$ "] } }
    let q := callAll [.start, .draw 1 0 1 [0x80]] p
    p.display.surface = .terminal #["$ "] ∧
    EndsWith Display.cursorHomeCode.toList q.display.stream [' ', '#', '\n'] ∧
    q.display.screen.Shown [[' ', '#']] := by
  intro p q
  have hp : p.display.surface = .terminal #["$ "] := rfl
  have hpicture : (q.display.screen.text ++ "\n").toList = [' ', '#', '\n'] := by
    rw [String.toList_append, FrameBuffer.toList_text]
    rfl
  obtain ⟨hkeeps, htext⟩ := stream_keeps_up hp
  have hdrawn := (hkeeps [.start]).current (.draw 1 0 1 [0x80]) _ _ rfl rfl [] List.not_mem_nil
  obtain ⟨lines, hsplit, hshown⟩ := (htext q.display.screen).1
  rw [hpicture] at hsplit
  have hlines : lines ++ [[]] = [[' ', '#']] ++ [[]] := hsplit.symm
  cases List.append_cancel_right hlines
  exact ⟨hp, hpicture ▸ hdrawn, hshown⟩

end Periphery

end Chip8
