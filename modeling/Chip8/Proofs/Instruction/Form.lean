import Chip8.Proofs.Instruction.Decode
import Chip8.Proofs.Instruction.Text
import Chip8.Proofs.Text.Numeral
import Mathlib.Data.List.Pairwise

/-! # The form of a text

What an instruction is written as has the same length for every word: each place holds either a
character that is always the same or the digit of one of the four nibbles. Two forms are apart if
they differ in length or, at some place, in a character that is not left to a nibble; then no two
words are written alike in them. The forms of the standard set and that of an unknown word are
apart from one another, and a form shows every nibble that its pattern leaves open but one: the
second operand of a shift. -/

namespace Chip8

/-! ## Nibbles by place -/

def Operands.nibble (o : Operands) : Fin 4 → Nibble
  | 0 => o.lead
  | 1 => o.x
  | 2 => o.y
  | 3 => o.n

theorem Operands.ext_nibble {o p : Operands} (h : ∀ k, o.nibble k = p.nibble k) : o = p := by
  cases o
  cases p
  rw [mk.injEq]
  exact ⟨h 0, h 1, h 2, h 3⟩

def Pattern.place (p : Pattern) : Fin 4 → PatternNibble
  | 0 => p.first
  | 1 => p.second
  | 2 => p.third
  | 3 => p.fourth

/-- Words that a pattern accepts have the digits of the pattern in common. -/
theorem Pattern.nibble_eq {p : Pattern} {w v : Int} (hw : p.accepts w = true)
    (hv : p.accepts v = true) {k : Fin 4} (hk : (p.place k).isFixed = true) :
    (Operands.ofWord w).nibble k = (Operands.ofWord v).nibble k := by
  have hadmits {w : Int} (hw : p.accepts w = true) :
      (p.place k).admits ((Operands.ofWord w).nibble k) = true := by
    obtain ⟨h0, h1, h2, h3⟩ := (p.accepts_iff w).mp hw
    match k with
    | 0 => exact h0
    | 1 => exact h1
    | 2 => exact h2
    | 3 => exact h3
  have hdw := hadmits hw
  have hdv := hadmits hv
  cases hp : p.place k with
  | digit d =>
    rw [hp] at hdw hdv
    exact (beq_iff_eq.mp hdw).symm.trans (beq_iff_eq.mp hdv)
  | _ => rw [hp] at hk; cases hk

/-- The nibbles that a field joins. -/
def Field.places : Field → List (Fin 4)
  | x => [1]
  | y => [2]
  | n => [3]
  | nn => [2, 3]
  | nnn => [1, 2, 3]

theorem Field.read_eq (f : Field) (o : Operands) :
    f.read o = joinNibbles (f.places.map o.nibble) := by
  cases f <;> simp [read, places, joinNibbles, Operands.nibble, Operands.nn, Operands.nnn]

/-! ## Forms -/

/-- A place of a text. -/
inductive Slot
  | fixed (c : Char)
  | digit (k : Fin 4)
deriving DecidableEq

namespace Slot

def char (o : Operands) : Slot → Char
  | fixed c => c
  | digit k => Text.hexDigit (o.nibble k)

/-- No word has the same character in both places. -/
def differs : Slot → Slot → Bool
  | fixed c, fixed d => c != d
  | fixed c, digit _ | digit _, fixed c => !decide (∃ d, Text.hexDigit d = c)
  | digit _, digit _ => false

theorem hexDigit_ne_of_differs {c : Char} {k : Fin 4} (h : (fixed c).differs (digit k) = true)
    (d : Nibble) : Text.hexDigit d ≠ c := by
  simp only [differs, Bool.not_eq_true', decide_eq_false_iff_not, not_exists] at h
  exact h d

theorem char_ne {s t : Slot} (h : s.differs t = true) (o p : Operands) : s.char o ≠ t.char p := by
  cases s with
  | fixed c =>
    cases t with
    | fixed d => simpa [differs, char] using h
    | digit k => exact (hexDigit_ne_of_differs h _).symm
  | digit k =>
    cases t with
    | fixed c => exact hexDigit_ne_of_differs (k := k) h _
    | digit l => cases h

theorem differs_comm (s t : Slot) : s.differs t = t.differs s := by
  cases s <;> cases t <;> simp [differs, bne_comm]

end Slot

/-- A text place by place. -/
abbrev Form := List Slot

namespace Form

def chars (f : Form) (o : Operands) : List Char := f.map (Slot.char o)

def apart : Form → Form → Bool
  | [], [] => false
  | [], _ :: _ | _ :: _, [] => true
  | s :: f, t :: g => s.differs t || apart f g

theorem chars_ne {f g : Form} (h : apart f g = true) (o p : Operands) :
    f.chars o ≠ g.chars p := by
  induction f generalizing g with
  | nil =>
    cases g with
    | nil => cases h
    | cons t g =>
      intro he
      cases he
  | cons s f ih =>
    cases g with
    | nil =>
      intro he
      cases he
    | cons t g =>
      intro he
      obtain ⟨hs, hf⟩ := List.cons.inj he
      rcases Bool.or_eq_true_iff.mp h with h | h
      · exact Slot.char_ne h o p hs
      · exact ih h hf

theorem apart_comm (f g : Form) : apart f g = apart g f := by
  induction f generalizing g with
  | nil => cases g <;> rfl
  | cons s f ih =>
    cases g with
    | nil => rfl
    | cons t g => rw [apart, apart, Slot.differs_comm, ih]

/-- Words that are written alike agree in the nibbles that the form shows. -/
theorem nibble_eq {f : Form} {o p : Operands} (h : f.chars o = f.chars p) {k : Fin 4}
    (hk : .digit k ∈ f) : o.nibble k = p.nibble k :=
  Text.hexDigit_injective _ _ (List.map_inj_left.mp h _ hk)

theorem newline_not_mem {f : Form} (h : .fixed '\n' ∉ f) (o : Operands) : '\n' ∉ f.chars o := by
  intro hm
  obtain ⟨s, hs, he⟩ := List.mem_map.mp hm
  cases s with
  | fixed c =>
    obtain rfl : c = '\n' := he
    exact h hs
  | digit k => exact Text.hexDigit_ne_newline _ he

theorem chars_congr {f : Form} {o p : Operands}
    (h : ∀ k, .digit k ∈ f → o.nibble k = p.nibble k) : f.chars o = f.chars p := by
  refine List.map_inj_left.mpr fun s hs => ?_
  cases s with
  | fixed c => rfl
  | digit k => exact congrArg Text.hexDigit (h k hs)

/-- The text of an unknown word: all four digits behind a heading. -/
def unknown : Form :=
  "UNKNOWN INSTRUCTION ".toList.map .fixed ++ [.digit 0, .digit 1, .digit 2, .digit 3]

end Form

/-- The form of a piece, if there is one. -/
def Piece.form? : Piece → Option Form
  | .text cs => some (cs.map .fixed)
  | .hole f ⟨16, true, [], [], 0, width⟩ =>
    if f.places.length = max 1 width then some (f.places.map .digit) else none
  | _ => none

theorem Piece.fill_of_form {p : Piece} {f : Form} (h : p.form? = some f) (host : Template.Host)
    (o : Operands) : p.fill host o = .ok (f.chars o) := by
  unfold form? at h
  split at h
  · cases h
    simp [fill, Form.chars, Function.comp_def, Slot.char]
  · rename_i f' width
    split at h
    · rename_i hlen
      cases h
      rw [fill, Field.read_eq, Text.chars_joinNibbles (by rwa [List.length_map])]
      simp [Form.chars, Function.comp_def, Slot.char]
    · cases h
  · cases h

def Template.form? : Template → Option Form
  | [] => some []
  | p :: ps => do return (← p.form?) ++ (← form? ps)

theorem Template.fillChars_of_form {t : Template} {f : Form} (h : t.form? = some f)
    (host : Host) (o : Operands) : t.fillChars host o = .ok (f.chars o) := by
  induction t generalizing f with
  | nil => cases h; rfl
  | cons p ps ih =>
    obtain ⟨g, hg, h⟩ := Option.bind_eq_some_iff.mp h
    obtain ⟨gs, hgs, h⟩ := Option.bind_eq_some_iff.mp h
    cases h
    simp only [fillChars, Piece.fill_of_form hg, ih hgs, ok_bind, pure_eq_ok, Form.chars,
      List.map_append]

namespace Instruction

def form (i : Instruction) : Form := i.template.form?.getD []

variable {i j : Instruction} {w v : Int}

/-- All hosts write the instructions of the standard set alike. -/
theorem write_eq_form (hi : i ∈ Standard.instructions) (host : Template.Host) (w : Int) :
    i.write host w = .ok (String.ofList (i.form.chars (.ofWord w))) := by
  have hall : ∀ i ∈ Standard.instructions, i.template.form?.isSome = true := by decide +kernel
  obtain ⟨f, hf⟩ := Option.isSome_iff_exists.mp (hall i hi)
  simp only [write, Template.fill, Template.fillChars_of_form hf, ok_bind, pure_eq_ok, form, hf,
    Option.getD_some]

/-- No two instructions of the standard set are written alike, whatever the words. -/
theorem apart_form (hi : i ∈ Standard.instructions) (hj : j ∈ Standard.instructions)
    (hne : i ≠ j) : Form.apart i.form j.form = true := by
  have hall : Standard.instructions.Pairwise fun i j => Form.apart i.form j.form = true := by
    decide +kernel
  have : Std.Symm fun i j : Instruction => Form.apart i.form j.form = true :=
    ⟨fun i j h => by rwa [Form.apart_comm]⟩
  exact hall.forall hi hj hne

/-- The shifts work on their first operand alone. -/
def shifts : List Pattern := [⟨8, .x, .y, 6⟩, ⟨8, .x, .y, 0xE⟩]

/-- A nibble is given by the pattern or it is shown, but for the second operand of a shift. -/
theorem fixed_or_shown (hi : i ∈ Standard.instructions) (k : Fin 4) :
    (i.pattern.place k).isFixed = true ∨ .digit k ∈ i.form ∨ i.pattern ∈ shifts ∧ k = 2 := by
  have hall : ∀ i ∈ Standard.instructions, ∀ k : Fin 4,
      (i.pattern.place k).isFixed = true ∨ .digit k ∈ i.form ∨ i.pattern ∈ shifts ∧ k = 2 := by
    decide +kernel
  exact hall i hi k

theorem shown_of_shift (hi : i ∈ Standard.instructions) (hp : i.pattern ∈ shifts) {k : Fin 4}
    (hk : .digit k ∈ i.form) : k = 1 := by
  have hall : ∀ i ∈ Standard.instructions, i.pattern ∈ shifts →
      ∀ k : Fin 4, .digit k ∈ i.form → k = 1 := by decide +kernel
  exact hall i hi hp k hk

/-- No instruction is written over more than one line. -/
theorem newline_not_mem_form (hi : i ∈ Standard.instructions) : .fixed '\n' ∉ i.form := by
  have hall : ∀ i ∈ Standard.instructions, .fixed '\n' ∉ i.form := by decide +kernel
  exact hall i hi

end Instruction

end Chip8
