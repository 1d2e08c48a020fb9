import Chip8.Operands
import Mathlib.Data.List.Induction

/-! # The characters of numerals

A numeral without a lead is a sign, zeros and digits, so it never breaks a line. With zeros in
front the number that nibbles spell is written with one digit for each nibble, and no two nibbles
have the same digit. -/

namespace Chip8

namespace Text

theorem toUpper_digitChar_ne : ∀ d < 16, (Nat.digitChar d).toUpper ≠ '\n' := by decide

theorem mem_toDigits {b n : Nat} {c : Char} (hb : 1 < b) (h : c ∈ Nat.toDigits b n) :
    ∃ d < b, c = Nat.digitChar d := by
  induction n using Nat.strongRecOn with
  | ind n ih =>
    rcases Nat.lt_or_ge n b with hn | hn
    · rw [Nat.toDigits_of_lt_base hn, List.mem_singleton] at h
      exact ⟨n, hn, h⟩
    · rw [Nat.toDigits_of_base_le hb hn, List.mem_append, List.mem_singleton] at h
      rcases h with h | h
      · exact ih (n / b) (Nat.div_lt_self (by omega) hb) h
      · exact ⟨n % b, Nat.mod_lt n (by omega), h⟩

theorem newline_not_mem_chars {base width : Nat} {upper : Bool} (hb : 1 < base)
    (hle : base ≤ 16) (v : Int) :
    '\n' ∉ Numeral.chars { base, upper, width } v := by
  intro h
  simp only [Numeral.chars, Numeral.head, Numeral.digits, zeros, List.mem_append,
    List.mem_replicate, Nat.zero_sub, List.replicate_zero, List.nil_append, List.append_nil] at h
  rcases h with (h | h) | h
  · split at h <;> simp at h
  · exact absurd h.2 (by decide)
  · split at h
    · obtain ⟨c, hc, he⟩ := List.mem_map.mp h
      obtain ⟨d, hd, rfl⟩ := mem_toDigits hb hc
      exact toUpper_digitChar_ne d (by omega) he
    · obtain ⟨d, hd, hc⟩ := mem_toDigits hb h
      exact toUpper_digitChar_ne d (by omega) (by rw [← hc]; rfl)

/-- The upper-case digit of a nibble. -/
def hexDigit (d : Nibble) : Char := (Nat.digitChar d.val).toUpper

theorem hexDigit_injective : ∀ d e : Nibble, hexDigit d = hexDigit e → d = e := by decide

theorem hexDigit_ne_newline (d : Nibble) : hexDigit d ≠ '\n' := toUpper_digitChar_ne d.val d.isLt

theorem joinNibbles_concat (ns : List Nibble) (d : Nibble) :
    joinNibbles (ns ++ [d]) = 16 * joinNibbles ns + d.val := by
  simp [joinNibbles, Nat.mul_comm]

/-- The digits of the number that nibbles spell are the digits of the nibbles, but for zeros in
front. -/
theorem leftpad_joinNibbles {ns : List Nibble} (h : ns ≠ []) :
    ((Nat.toDigits 16 (joinNibbles ns)).map Char.toUpper).leftpad ns.length '0' =
      ns.map hexDigit := by
  induction ns using List.reverseRecOn with
  | nil => exact absurd rfl h
  | append_singleton ns d ih =>
    have hlast : (Nat.toDigits 16 d.val).map Char.toUpper = [hexDigit d] := by
      rw [Nat.toDigits_of_lt_base d.isLt]
      rfl
    rw [joinNibbles_concat, List.map_append, List.length_append]
    rcases Nat.eq_zero_or_pos (joinNibbles ns) with hz | hp
    · -- nothing but zeros in front
      have hfront : ns.map hexDigit = List.replicate ns.length '0' := by
        cases ns with
        | nil => rfl
        | cons e es =>
          rw [← ih (List.cons_ne_nil e es), hz]
          simp [List.leftpad, List.replicate_succ', show Nat.toDigits 16 0 = ['0'] from rfl]
      rw [hz, Nat.mul_zero, Nat.zero_add, hlast, hfront]
      simp [List.leftpad]
    · have hne : ns ≠ [] := by
        rintro rfl
        exact Nat.lt_irrefl _ hp
      rw [← Nat.toDigits_append_toDigits (by decide) hp d.isLt, List.map_append, hlast, ← ih hne]
      simp [List.leftpad]

/-- A numeral as wide as the field that it writes. -/
theorem chars_joinNibbles {ns : List Nibble} {width : Nat} (h : ns.length = max 1 width) :
    Numeral.chars { base := 16, upper := true, width } (joinNibbles ns) = ns.map hexDigit := by
  have hne : ns ≠ [] := by
    rintro rfl
    simp at h
    omega
  have hpos : 0 < (Nat.toDigits 16 (joinNibbles ns)).length := Nat.length_toDigits_pos
  have hneg : ¬ (joinNibbles ns : Int) < 0 := by omega
  rw [← leftpad_joinNibbles hne, h]
  simp only [Numeral.chars, Numeral.head, Numeral.digits, zeros, if_neg hneg, List.leftpad,
    List.length_map, List.append_nil, List.nil_append, Nat.zero_sub, List.replicate_zero,
    Int.natAbs_natCast, List.length_nil, Nat.zero_add, if_true]
  rw [show width - (Nat.toDigits 16 (joinNibbles ns)).length =
    max 1 width - (Nat.toDigits 16 (joinNibbles ns)).length by omega]

end Text

end Chip8
