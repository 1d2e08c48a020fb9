import Chip8.Proofs.Instruction.Form
import Chip8.Proofs.Listing

/-! # What a listing keeps of an image

No line breaks before its end, so a listing tells its lines apart, and lines of one place differ
in nothing but the text of the word. The forms of these texts tell the words apart, but for the
second operand of a shift, which no listing shows. -/

namespace Chip8

namespace Listing

variable {host : Template.Host} {w v : Nat}

/-! ## Words -/

/-- The form that the word is written in. -/
def formOf (w : Int) : Form :=
  match InstructionTable.standard.lookup w with
  | none => Form.unknown
  | some i => i.form

theorem hexText_eq_digits (hw : w < 65536) : hexText w =
    String.ofList (Form.chars [.digit 0, .digit 1, .digit 2, .digit 3] (.ofWord w)) := by
  have hchars : Text.Numeral.chars { base := 16, upper := true, width := 4 }
      (joinNibbles ([0, 1, 2, 3].map (Operands.ofWord w).nibble)) =
        ([0, 1, 2, 3].map (Operands.ofWord w).nibble).map Text.hexDigit :=
    Text.chars_joinNibbles (by rfl)
  have hdigits : joinNibbles ([0, 1, 2, 3].map (Operands.ofWord w).nibble) = w := by
    have := Operands.word_ofWord w
    simp only [Operands.word] at this
    simp only [joinNibbles, List.map_cons, List.map_nil, List.foldl_cons, List.foldl_nil,
      Operands.nibble]
    omega
  rw [hdigits] at hchars
  rw [hexText, ← Text.upperHex_natCast, Text.upperHex, Text.Numeral.render, hchars]
  rfl

theorem ofList_heading (heading : String) (f : Form) (o : Operands) :
    String.ofList (Form.chars (heading.toList.map .fixed ++ f) o) =
      heading ++ String.ofList (f.chars o) := by
  simp [Form.chars, Function.comp_def, Slot.char]

theorem formOf_of_none (h : InstructionTable.standard.lookup (w : Int) = none) :
    formOf w = Form.unknown := by
  rw [formOf, h]

theorem formOf_of_some {i : Instruction} (h : InstructionTable.standard.lookup (w : Int) = some i) :
    formOf w = i.form := by
  rw [formOf, h]

theorem unknownText_eq_form (hw : w < 65536) :
    unknownText w = String.ofList (Form.unknown.chars (.ofWord w)) :=
  (congrArg _ (hexText_eq_digits hw)).trans (ofList_heading "UNKNOWN INSTRUCTION " _ _).symm

theorem wordText_eq_form (host : Template.Host) (hw : w < 65536) :
    wordText host .standard w = .ok (String.ofList ((formOf w).chars (.ofWord w))) := by
  cases hl : InstructionTable.standard.lookup (w : Int) with
  | none =>
    rw [wordText_of_none hl, formOf_of_none hl, unknownText_eq_form hw]
  | some i =>
    rw [wordText_of_some hl, formOf_of_some hl, Instruction.write_eq_form (mem_of_lookup hl)]

/-- Words that no listing tells apart: the same one twice, or two shifts of the same kind and the
same first operand. -/
def Alike (w v : Nat) : Prop :=
  w = v ∨ ∃ p ∈ Instruction.shifts, p.accepts w = true ∧ p.accepts v = true ∧
    (Operands.ofWord w).x = (Operands.ofWord v).x

instance (w v : Nat) : Decidable (Alike w v) :=
  inferInstanceAs (Decidable (w = v ∨ ∃ p ∈ Instruction.shifts, p.accepts w = true ∧
    p.accepts v = true ∧ (Operands.ofWord w).x = (Operands.ofWord v).x))

theorem eq_of_nibbles (hw : w < 65536) (hv : v < 65536)
    (h : ∀ k, (Operands.ofWord w).nibble k = (Operands.ofWord v).nibble k) : w = v := by
  have hword := congrArg Operands.word (Operands.ext_nibble h)
  have := Operands.word_ofWord w
  have := Operands.word_ofWord v
  omega

/-- The form of an unknown word is apart from all others, and these are from one another. -/
theorem formOf_apart (h : InstructionTable.standard.lookup (w : Int) ≠
    InstructionTable.standard.lookup (v : Int)) : Form.apart (formOf w) (formOf v) = true := by
  have hall : ∀ i ∈ Standard.instructions, Form.apart Form.unknown i.form = true := by
    decide +kernel
  cases hw : InstructionTable.standard.lookup (w : Int) with
  | none =>
    cases hv : InstructionTable.standard.lookup (v : Int) with
    | none => exact absurd (hw.trans hv.symm) h
    | some j =>
      rw [formOf_of_none hw, formOf_of_some hv]
      exact hall j (mem_of_lookup hv)
  | some i =>
    cases hv : InstructionTable.standard.lookup (v : Int) with
    | none =>
      rw [formOf_of_some hw, formOf_of_none hv, Form.apart_comm]
      exact hall i (mem_of_lookup hw)
    | some j =>
      rw [formOf_of_some hw, formOf_of_some hv]
      refine Instruction.apart_form (mem_of_lookup hw) (mem_of_lookup hv) ?_
      rintro rfl
      exact h (hw.trans hv.symm)

theorem alike_of_chars_eq (hw : w < 65536) (hv : v < 65536)
    (h : (formOf w).chars (.ofWord w) = (formOf v).chars (.ofWord v)) : Alike w v := by
  have hsame : InstructionTable.standard.lookup (w : Int) =
      InstructionTable.standard.lookup (v : Int) := by
    by_contra hne
    exact Form.chars_ne (formOf_apart hne) _ _ h
  cases hl : InstructionTable.standard.lookup (w : Int) with
  | none =>
    rw [formOf_of_none hl, formOf_of_none (hsame.symm.trans hl)] at h
    refine .inl (eq_of_nibbles hw hv fun k => Form.nibble_eq h ?_)
    revert k
    decide
  | some i =>
    rw [formOf_of_some hl, formOf_of_some (hsame.symm.trans hl)] at h
    obtain ⟨_, haw⟩ := InstructionTable.standard_grouped.mem_of_lookup hl
    obtain ⟨_, hav⟩ := InstructionTable.standard_grouped.mem_of_lookup (hsame.symm.trans hl)
    have hshown := Instruction.fixed_or_shown (mem_of_lookup hl)
    by_cases hshift : i.pattern ∈ Instruction.shifts
    · refine .inr ⟨i.pattern, hshift, haw, hav, ?_⟩
      rcases hshown 1 with hk | hk | ⟨_, hk⟩
      · exact Pattern.nibble_eq haw hav hk
      · exact Form.nibble_eq h hk
      · cases hk
    · refine .inl (eq_of_nibbles hw hv fun k => ?_)
      rcases hshown k with hk | hk | ⟨hk, _⟩
      · exact Pattern.nibble_eq haw hav hk
      · exact Form.nibble_eq h hk
      · exact absurd hk hshift

theorem chars_eq_of_alike (h : Alike w v) :
    (formOf w).chars (.ofWord w) = (formOf v).chars (.ofWord v) := by
  rcases h with rfl | ⟨p, hp, haw, hav, hx⟩
  · rfl
  · obtain ⟨r, hr, rfl⟩ : ∃ r : Routine, r ≠ .machineCall ∧ r.pattern = p := by
      rcases List.mem_pair.mp hp with rfl | rfl
      · exact ⟨.shiftRight, by decide, rfl⟩
      · exact ⟨.shiftLeft, by decide, rfl⟩
    have hdw := InstructionTable.decodes_of_accepts hr haw
    have hdv := InstructionTable.decodes_of_accepts hr hav
    obtain ⟨i, hl, hri⟩ := hdw
    obtain ⟨hi, hai⟩ := InstructionTable.standard_grouped.mem_of_lookup hl
    obtain ⟨s, hs, hip⟩ := InstructionTable.exists_routine hi
    obtain rfl : r = s := Option.some.inj (hri.symm.trans hs)
    rw [formOf_of_some hl, formOf_of_some ((hdv.lookup_eq ⟨i, hl, hri⟩).trans hl)]
    refine Form.chars_congr fun k hk => ?_
    rw [Instruction.shown_of_shift (mem_of_lookup hl) (hip ▸ hp) hk]
    exact hx

theorem wordText_eq_iff (host : Template.Host) (hw : w < 65536) (hv : v < 65536) :
    wordText host .standard w = wordText host .standard v ↔ Alike w v := by
  rw [wordText_eq_form host hw, wordText_eq_form host hv, Except.ok.injEq, String.ofList_inj]
  exact ⟨alike_of_chars_eq hw hv, chars_eq_of_alike⟩

/-! ## Lines -/

theorem newline_not_mem_wordText (hw : w < 65536) {text : String}
    (h : wordText host .standard w = .ok text) : '\n' ∉ text.toList := by
  rw [wordText_eq_form host hw, Except.ok.injEq] at h
  rw [← h, String.toList_ofList]
  refine Form.newline_not_mem ?_ _
  cases hl : InstructionTable.standard.lookup (w : Int) with
  | none =>
    rw [formOf_of_none hl]
    decide
  | some i =>
    rw [formOf_of_some hl]
    exact Instruction.newline_not_mem_form (mem_of_lookup hl)

theorem newline_not_mem_leadText (number : Nat) (address : Int) :
    '\n' ∉ (leadText number address).toList := by
  have hnumber : '\n' ∉ Text.Numeral.chars { width := 2 } number :=
    Text.newline_not_mem_chars (by decide) (by decide) number
  have haddress : '\n' ∉ Text.Numeral.chars { base := 16, upper := true, width := 4 } address :=
    Text.newline_not_mem_chars (by decide) (by decide) address
  simp [leadText, Text.paddedDecimal, Text.upperHex, Text.Numeral.render, hnumber, haddress]

theorem append_newline_inj {xs ys xs' ys' : List Char} (hx : '\n' ∉ xs) (hy : '\n' ∉ ys)
    (h : xs ++ '\n' :: xs' = ys ++ '\n' :: ys') : xs = ys ∧ xs' = ys' := by
  have hfirst {zs : List Char} (hz : '\n' ∉ zs) (rest : List Char) :
      (zs ++ '\n' :: rest).takeWhile (· ≠ '\n') = zs := by
    rw [List.takeWhile_append_of_pos, List.takeWhile_cons_of_neg (by simp), List.append_nil]
    intro c hc
    rw [decide_eq_true_eq]
    rintro rfl
    exact hz hc
  have hxy : xs = ys := by rw [← hfirst hx xs', h, hfirst hy ys']
  rw [hxy] at h
  exact ⟨hxy, (List.cons.inj (List.append_cancel_left h)).2⟩

/-- Lines that are put together can be told apart again. -/
theorem eq_of_join_eq {ls ms : List String} (hl : ∀ l ∈ ls, '\n' ∉ l.toList)
    (hm : ∀ m ∈ ms, '\n' ∉ m.toList)
    (h : String.join (ls.map (· ++ "\n")) = String.join (ms.map (· ++ "\n"))) : ls = ms := by
  induction ls generalizing ms with
  | nil =>
    cases ms with
    | nil => rfl
    | cons m ms => simpa using congrArg String.toList h
  | cons l ls ih =>
    cases ms with
    | nil => simpa using congrArg String.toList h
    | cons m ms =>
      have hchars := congrArg String.toList h
      simp only [List.map_cons, String.join_cons, String.toList_append, List.append_assoc] at hchars
      obtain ⟨hlm, hrest⟩ := append_newline_inj (hl l (.head _)) (hm m (.head _)) hchars
      rw [String.toList_inj.mp hlm, ih (fun l' h' => hl l' (.tail _ h'))
        (fun m' h' => hm m' (.tail _ h')) (String.toList_inj.mp hrest)]

/-! ## Images -/

theorem wordAt_lt (data : List UInt8) (k : Nat) : wordAt data k < 65536 := wordFrom_lt _ _

/-- The text of an image of whole words, and its lines. -/
theorem text_spec (host : Template.Host) (data : List UInt8) (heven : data.length % 2 = 0)
    (start : Int) : ∃ ls : List String,
      text host data start = .ok (String.join (ls.map (· ++ "\n"))) ∧
      ls.length = data.length / 2 ∧ (∀ l ∈ ls, '\n' ∉ l.toList) ∧
      ∀ k < data.length / 2, ∃ text, wordText host .standard (wordAt data k) = .ok text ∧
        ls[k]? = some (leadText (1 + k) (start + 2 * k) ++ text) := by
  obtain ⟨ls, hls, hlen, hlines⟩ := linesFrom_spec (exists_wordText host) data 1 start
  refine ⟨ls, ?_, hlen, fun l hl => ?_, hlines⟩
  · unfold text lines
    rw [if_neg (by omega), hls]
    rfl
  · obtain ⟨k, hk, rfl⟩ := List.mem_iff_getElem.mp hl
    obtain ⟨text, htext, hline⟩ := hlines k (by omega)
    rw [List.getElem?_eq_getElem hk, Option.some.injEq] at hline
    rw [hline, String.toList_append, List.mem_append, not_or]
    exact ⟨newline_not_mem_leadText _ _, newline_not_mem_wordText (wordAt_lt data k) htext⟩

/-- Two images of whole words have the same listing exactly if they are of the same length and
agree in every word, but for the second operands of shifts. -/
theorem text_eq_iff (host : Template.Host) {d e : List UInt8} (hd : d.length % 2 = 0)
    (he : e.length % 2 = 0) (start : Int) :
    ∃ s t, text host d start = .ok s ∧ text host e start = .ok t ∧
      (s = t ↔ d.length = e.length ∧ ∀ k < d.length / 2, Alike (wordAt d k) (wordAt e k)) := by
  obtain ⟨ls, hls, hlen, hlnew, hl⟩ := text_spec host d hd start
  obtain ⟨ms, hms, hmlen, hmnew, hm⟩ := text_spec host e he start
  refine ⟨_, _, hls, hms, fun h => ?_, fun ⟨hlength, halike⟩ => ?_⟩
  · obtain rfl := eq_of_join_eq hlnew hmnew h
    refine ⟨by omega, fun k hk => ?_⟩
    obtain ⟨a, ha, hla⟩ := hl k hk
    obtain ⟨b, hb, hlb⟩ := hm k (by omega)
    rw [← wordText_eq_iff host (wordAt_lt d k) (wordAt_lt e k), ha, hb]
    rw [hla, Option.some.injEq, String.append_right_inj] at hlb
    rw [hlb]
  · suffices ls = ms by rw [this]
    refine List.ext_getElem? fun k => ?_
    rcases Nat.lt_or_ge k (d.length / 2) with hk | hk
    · obtain ⟨a, ha, hla⟩ := hl k hk
      obtain ⟨b, hb, hlb⟩ := hm k (by omega)
      have hab := (wordText_eq_iff host (wordAt_lt d k) (wordAt_lt e k)).mpr (halike k hk)
      rw [ha, hb, Except.ok.injEq] at hab
      rw [hla, hlb, hab]
    · rw [List.getElem?_eq_none (by omega), List.getElem?_eq_none (by omega)]

/-- Shifts of one register are listed alike, a copy of register 5 and a load of 05 are not. -/
theorem text_eq_iff_shifts : ∃ s t u, text {} [0x81, 0x26, 0x81, 0x50] (-2) = .ok s ∧
    text {} [0x81, 0x36, 0x81, 0x50] (-2) = .ok t ∧ text {} [0x81, 0x26, 0x61, 0x05] (-2) = .ok u ∧
    s = t ∧ s ≠ u := by
  obtain ⟨s, t, hs, ht, hst⟩ := text_eq_iff {} (d := [0x81, 0x26, 0x81, 0x50])
    (e := [0x81, 0x36, 0x81, 0x50]) rfl rfl (-2)
  obtain ⟨s', u, hs', hu, hsu⟩ := text_eq_iff {} (d := [0x81, 0x26, 0x81, 0x50])
    (e := [0x81, 0x26, 0x61, 0x05]) rfl rfl (-2)
  obtain rfl := Except.ok.inj (hs.symm.trans hs')
  refine ⟨s, t, u, hs, ht, hu, hst.mpr (by decide), fun he => ?_⟩
  exact absurd (hsu.mp he) (by decide)

end Listing

end Chip8
