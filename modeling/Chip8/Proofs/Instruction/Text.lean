import Chip8.Instruction.Standard
import Chip8.Proofs.Outcome

/-! # What an instruction is written as

A template that is made of text and numerals can be filled from every word. The templates of the
standard set are, and what is written from them never begins like the text of an unknown word. -/

namespace Chip8

/-- Text, or a numeral of an operand field. -/
def Piece.isPlain : Piece → Bool
  | text _ | hole _ _ => true
  | free _ | fault => false

theorem Piece.fill_eq_ok {p : Piece} (h : p.isPlain = true) (host : Template.Host)
    (o : Operands) : ∃ cs, p.fill host o = .ok cs := by
  cases p with
  | text cs => exact ⟨cs, rfl⟩
  | hole field style => exact ⟨style.chars (field.read o), rfl⟩
  | free h' | fault => cases h

namespace Template

/-- What is written begins with this character, whatever the word. -/
def opening : Template → Option Char
  | .text (c :: _) :: _ => some c
  | _ => none

variable {host : Host} {t : Template} {o : Operands}

theorem fillChars_eq_ok (h : t.all Piece.isPlain = true) (host : Host) (o : Operands) :
    ∃ cs, t.fillChars host o = .ok cs := by
  induction t with
  | nil => exact ⟨[], rfl⟩
  | cons p ps ih =>
    rw [List.all_cons, Bool.and_eq_true] at h
    obtain ⟨cs, hcs⟩ := p.fill_eq_ok h.1 host o
    obtain ⟨ds, hds⟩ := ih h.2
    exact ⟨cs ++ ds, by simp only [fillChars, hcs, hds, ok_bind, pure_eq_ok]⟩

theorem head?_fillChars {cs : List Char} {c : Char} (hc : t.opening = some c)
    (h : t.fillChars host o = .ok cs) : cs.head? = some c := by
  unfold opening at hc
  split at hc
  · cases hc
    obtain ⟨first, hfirst, h⟩ := except_bind_eq_ok.mp h
    obtain ⟨rest, _, h⟩ := except_bind_eq_ok.mp h
    cases hfirst
    cases h
    rfl
  · cases hc

end Template

namespace Instruction

variable {host : Template.Host} {i : Instruction} {w : Int}

theorem write_eq_ok (hi : i ∈ Standard.instructions) (host : Template.Host) (w : Int) :
    ∃ text, i.write host w = .ok text := by
  have hall : ∀ i ∈ Standard.instructions, i.template.all Piece.isPlain = true := by
    decide +kernel
  obtain ⟨cs, hcs⟩ := Template.fillChars_eq_ok (hall i hi) host (Operands.ofWord w)
  exact ⟨String.ofList cs, by simp only [write, Template.fill, hcs, ok_bind, pure_eq_ok]⟩

/-- No instruction is written with a `U` in front. -/
theorem head?_write (hi : i ∈ Standard.instructions) {text : String}
    (h : i.write host w = .ok text) : text.toList.head? ≠ some 'U' := by
  have hall : ∀ i ∈ Standard.instructions,
      i.template.opening.isSome = true ∧ i.template.opening ≠ some 'U' := by decide +kernel
  obtain ⟨hsome, hne⟩ := hall i hi
  obtain ⟨c, hc⟩ := Option.isSome_iff_exists.mp hsome
  obtain ⟨cs, hcs, h⟩ := except_bind_eq_ok.mp h
  cases h
  rw [String.toList_ofList, Template.head?_fillChars hc hcs, ← hc]
  exact hne

end Instruction

end Chip8
