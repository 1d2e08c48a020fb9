import Chip8.Listing
import Chip8.Proofs.Instruction.Text
import Chip8.Proofs.Machine.FaultDomain
import Chip8.Proofs.Machine.Program

/-! # Listings and machines

A listing cuts an image into words by itself, and a machine reads words from memory, where the
image was put. Both come to the same words, and where the listing knows no instruction the
machine stops. -/

namespace Chip8

namespace Text

theorem paddedDecimal_natCast (width n : Nat) :
    paddedDecimal width n = String.ofList ((Nat.toDigits 10 n).leftpad width '0') := by
  have hn : ¬ (n : Int) < 0 := by omega
  simp [paddedDecimal, Numeral.render, Numeral.chars, Numeral.head, Numeral.digits, zeros,
    List.leftpad, hn]

theorem upperHex_natCast (width n : Nat) : upperHex width n =
    String.ofList (((Nat.toDigits 16 n).map Char.toUpper).leftpad width '0') := by
  have hn : ¬ (n : Int) < 0 := by omega
  simp [upperHex, Numeral.render, Numeral.chars, Numeral.head, Numeral.digits, zeros,
    List.leftpad, hn]

theorem head?_append {s t : String} {c : Char} (h : s.toList.head? = some c) :
    (s ++ t).toList.head? = some c := by
  rw [String.toList_append, List.head?_append, h, Option.some_or]

end Text

namespace Listing

/-- The number of a line: its decimal digits, at least two of them. -/
def numberText (n : Nat) : String := String.ofList ((Nat.toDigits 10 n).leftpad 2 '0')

/-- An address or a word: its upper-case digits to the base sixteen, at least four of them. -/
def hexText (n : Nat) : String :=
  String.ofList (((Nat.toDigits 16 n).map Char.toUpper).leftpad 4 '0')

def unknownText (w : Nat) : String := "UNKNOWN INSTRUCTION " ++ hexText w

/-- A line is its number, an address, and a text behind a tab. -/
def lineText (number address : Nat) (text : String) : String :=
  numberText number ++ ") " ++ hexText address ++ "\t" ++ text

/-- The word at place `k` of an image, high byte first. -/
def wordAt (data : List UInt8) (k : Nat) : Nat :=
  wordFrom (data.getD (2 * k) 0) (data.getD (2 * k + 1) 0)

variable {host : Template.Host} {table : InstructionTable} {w : Nat} {text : String}

/-- What stands on a line before the text. -/
def leadText (number : Nat) (address : Int) : String :=
  Text.paddedDecimal 2 number ++ ") " ++ Text.upperHex 4 address ++ "\t"

theorem leadText_append (number address : Nat) (text : String) :
    leadText number address ++ text = lineText number address text := by
  simp only [leadText, Text.paddedDecimal_natCast, Text.upperHex_natCast, lineText, numberText,
    hexText]

theorem line_eq_ok {number : Nat} {address : Int} (h : wordText host table w = .ok text) :
    line host table number address w = .ok (leadText number address ++ text) := by
  simp only [line, h, ok_bind, pure_eq_ok, leadText]

theorem wordText_of_none (h : table.lookup w = none) :
    wordText host table w = .ok (unknownText w) := by
  unfold wordText
  rw [h, Text.upperHex_natCast]
  rfl

theorem wordText_of_some {i : Instruction} (h : table.lookup w = some i) :
    wordText host table w = i.write host w := by
  unfold wordText
  rw [h]

/-- One line for each word, and each line tells of its own word only. -/
theorem linesFrom_spec (ht : ∀ w : Nat, ∃ text, wordText host table w = .ok text) :
    ∀ (data : List UInt8) (number : Nat) (address : Int),
      ∃ ls, linesFrom host table number address data = .ok ls ∧ ls.length = data.length / 2 ∧
        ∀ k < data.length / 2, ∃ text, wordText host table (wordAt data k) = .ok text ∧
          ls[k]? = some (leadText (number + k) (address + 2 * k) ++ text)
  | [], _, _ => ⟨[], rfl, rfl, fun k hk => absurd hk (Nat.not_lt_zero k)⟩
  | [b], _, _ => by
    have hhalf : [b].length / 2 = 0 := by simp
    rw [hhalf]
    exact ⟨[], rfl, rfl, fun k hk => absurd hk (Nat.not_lt_zero k)⟩
  | high :: low :: rest, number, address => by
    obtain ⟨text, htext⟩ := ht (wordFrom high low)
    obtain ⟨ls, hls, hlen, hlines⟩ := linesFrom_spec ht rest (number + 1) (address + 2)
    have hhalf : (high :: low :: rest).length / 2 = rest.length / 2 + 1 := by
      simp only [List.length_cons]
      omega
    refine ⟨(leadText number address ++ text) :: ls, ?_, by rw [List.length_cons, hlen, hhalf], ?_⟩
    · simp only [linesFrom, line_eq_ok htext, hls, ok_bind, pure_eq_ok]
    · intro k hk
      -- the first line is about the first two bytes, the others are lines of the rest
      cases k with
      | zero => exact ⟨text, htext, by simp⟩
      | succ k =>
        obtain ⟨text', htext', hline⟩ := hlines k (by omega)
        refine ⟨text', htext', ?_⟩
        rw [List.getElem?_cons_succ, hline, show number + 1 + k = number + (k + 1) by omega,
          show address + 2 + 2 * (k : Int) = address + 2 * ((k + 1 : Nat) : Int) by omega]

theorem linesFrom_eq_ok (ht : ∀ w : Nat, ∃ text, wordText host table w = .ok text)
    (data : List UInt8) (number address : Nat) :
    ∃ ls, linesFrom host table number address data = .ok ls ∧ ls.length = data.length / 2 ∧
      ∀ k < data.length / 2, ∃ text, wordText host table (wordAt data k) = .ok text ∧
        ls[k]? = some (lineText (number + k) (address + 2 * k) text) := by
  obtain ⟨ls, hls, hlen, hlines⟩ := linesFrom_spec ht data number address
  refine ⟨ls, hls, hlen, fun k hk => ?_⟩
  obtain ⟨text, htext, hline⟩ := hlines k hk
  exact ⟨text, htext, by rw [hline, ← leadText_append]; rfl⟩

/-! ## The standard table -/

theorem mem_of_lookup {i : Instruction} (h : InstructionTable.standard.lookup w = some i) :
    i ∈ Standard.instructions := by
  obtain ⟨hi, _⟩ := InstructionTable.standard_grouped.mem_of_lookup h
  rwa [InstructionTable.entries_standard] at hi

theorem exists_wordText (host : Template.Host) (w : Nat) :
    ∃ text, wordText host .standard w = .ok text := by
  cases h : InstructionTable.standard.lookup w with
  | none => exact ⟨_, wordText_of_none h⟩
  | some i =>
    rw [wordText_of_some h]
    exact Instruction.write_eq_ok (mem_of_lookup h) host w

theorem head?_unknownText (w : Nat) : (unknownText w).toList.head? = some 'U' := by
  have hfirst : "UNKNOWN INSTRUCTION ".toList.head? = some 'U' := by decide
  exact Text.head?_append hfirst

/-- No instruction is written like an unknown word. -/
theorem eq_unknownText_iff (h : wordText host .standard w = .ok text) :
    text = unknownText w ↔ InstructionTable.standard.lookup w = none := by
  constructor
  · intro he
    cases hl : InstructionTable.standard.lookup w with
    | none => rfl
    | some i =>
      rw [wordText_of_some hl, he] at h
      exact absurd (head?_unknownText w) (Instruction.head?_write (mem_of_lookup hl) h)
  · intro hn
    rw [wordText_of_none hn] at h
    exact (Except.ok.inj h).symm

end Listing

namespace Machine

open Listing

variable {m : Machine} {w : Nat}

/-- A cycle stops at an illegal instruction exactly where nothing is decoded. -/
theorem cycle_illegal_iff (hm : m.bus.Covered) (hw : m.bus.load16 m.cpu.pc = .ok w) :
    (∃ a v t, cycle m = .error (.illegal a v) t) ↔ m.decode w = none := by
  constructor
  · intro h
    obtain ⟨a, v, t, h⟩ := h
    cases ((cycle_eq_error hm).mp h).1 with
    | illegal h hd =>
      obtain rfl := Except.ok.inj (h.symm.trans hw)
      exact hd
    | refused _ hr =>
      rcases Routine.kind_of_refuses hr with ⟨_, he⟩ | ⟨_, he⟩ | ⟨_, he⟩ <;> cases he
  · intro hd
    exact ⟨_, _, m, (cycle_eq_error hm).mpr ⟨.illegal hw hd, rfl⟩⟩

/-- The listing of a program and the machine that was switched on with it agree. There is a line
for each word, with its number and its address. Its text is what the machine decodes at this
address, written out, and the text of an unknown word exactly where a cycle of the machine would
stop at an illegal instruction. -/
theorem listing_agrees (host : Template.Host) {o : Options} {data : List UInt8}
    (h : create o = .ok m) (hrom : o.rom = some data) (heven : data.length % 2 = 0) :
    ∃ ls, Listing.lines host .standard data 0x200 = .ok ls ∧ ls.length = data.length / 2 ∧
      ∀ k < data.length / 2, ∃ w text,
        m.bus.load16 (0x200 + 2 * k : Nat) = .ok w ∧
        ls[k]? = some (lineText (k + 1) (0x200 + 2 * k) text) ∧
        (∀ i, m.decode w = some i → i.write host w = .ok text) ∧
        (m.decode w = none → text = unknownText w) ∧
        (text = unknownText w ↔ ∃ a v t,
          cycle { m with cpu := { m.cpu with pc := (0x200 + 2 * k : Nat) } } =
            .error (.illegal a v) t) := by
  obtain ⟨ht, _⟩ := settings_of_create h
  obtain ⟨ls, hls, hlen, hlines⟩ := linesFrom_eq_ok (exists_wordText host) data 1 0x200
  refine ⟨ls, ?_, hlen, fun k hk => ?_⟩
  · unfold Listing.lines
    rw [if_neg (by omega), show linesFrom host .standard 1 0x200 data = .ok ls from hls]
    rfl
  · obtain ⟨text, htext, hline⟩ := hlines k hk
    have hw : m.bus.load16 (0x200 + 2 * k : Nat) = .ok (wordAt data k) :=
      load16_program h hrom (by omega)
    have hcycle := cycle_illegal_iff
      (m := { m with cpu := { m.cpu with pc := (0x200 + 2 * k : Nat) } })
      (create_standard h).covered hw
    refine ⟨_, text, hw, by rw [hline, Nat.add_comm 1 k], ?_, ?_, ?_⟩
    · intro i hi
      rw [decode_standard ht] at hi
      rwa [wordText_of_some hi] at htext
    · intro hn
      rw [decode_standard ht] at hn
      exact (eq_unknownText_iff htext).mpr hn
    · rw [eq_unknownText_iff htext, hcycle, ← decode_standard ht]
      rfl

/-- An instruction, and a word that is none. -/
def twoWords : List UInt8 := [0xC3, 0x0F, 0x50, 0x01]

theorem listing_agrees_twoWords :
    ∃ m ls, create { rom := some twoWords } = .ok m ∧ twoWords.length % 2 = 0 ∧
      Listing.lines {} .standard twoWords 0x200 = .ok ls ∧ ls.length = 2 ∧
      ls[1]? = some "02) 0202\tUNKNOWN INSTRUCTION 5001" ∧
      ∃ a v t, cycle { m with cpu := { m.cpu with pc := (0x202 : Nat) } } =
        .error (.illegal a v) t := by
  let o : Options := { rom := some twoWords }
  obtain ⟨m, h⟩ : ∃ m, create o = .ok m := exists_create rfl (by decide) (by decide)
  have heven : twoWords.length % 2 = 0 := rfl
  obtain ⟨ls, hls, hlen, hlines⟩ := listing_agrees {} h rfl heven
  obtain ⟨w, text, hw, hline, _, hnone, hunknown⟩ := hlines 1 (by decide)
  have hword : m.bus.load16 (0x200 + 2 * 1 : Nat) = .ok 0x5001 :=
    load16_program h rfl (k := 2) (by decide)
  obtain rfl : 0x5001 = w := Except.ok.inj (hword.symm.trans hw)
  obtain ⟨ht, _⟩ := settings_of_create h
  have hd : m.decode (0x5001 : Nat) = none := by
    rw [decode_standard ht]
    decide
  have htext : text = "UNKNOWN INSTRUCTION 5001" := (hnone hd).trans (by decide)
  refine ⟨m, ls, h, heven, hls, hlen, ?_, hunknown.mp (hnone hd)⟩
  rw [hline, htext]
  decide

end Machine

end Chip8
