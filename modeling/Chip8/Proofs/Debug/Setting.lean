import Chip8.Debug
import Mathlib.Data.List.DropRight
import Mathlib.Data.Set.Basic
import Mathlib.Data.String.Basic

/-! # What a setting turns on

A setting is read as parts between commas. A part names the category that is left of it without the
blanks at its ends, in lower case, and a part with nothing but blanks names none. So a setting comes
to a set of names, and this set alone decides which categories are on. -/

namespace Chip8

namespace Text

/-! ## Blanks at the ends -/

/-- The second text is the first without the blanks at its ends, and has none there itself. -/
structure Stripped (text core : String) : Prop where
  around : ∃ before after, text.toList = before ++ core.toList ++ after ∧
    ∀ c ∈ before ++ after, isBlank c = true
  first : ∀ c ∈ core.toList.head?, isBlank c = false
  last : ∀ c ∈ core.toList.getLast?, isBlank c = false

variable {off : Char → Bool} {cs before core after : List Char}

/-- What begins and ends on something that stays is found again between what goes. -/
theorem trim_eq_core (hbefore : ∀ c ∈ before, off c = true) (hafter : ∀ c ∈ after, off c = true)
    (hfirst : ∀ c ∈ core.head?, off c = false) (hlast : ∀ c ∈ core.getLast?, off c = false) :
    trim off (before ++ core ++ after) = core := by
  -- nothing is taken off a list that begins on something that stays
  have hstays : ∀ ds : List Char, (∀ c ∈ ds.head?, off c = false) → ds.dropWhile off = ds := by
    intro ds h
    cases ds with
    | nil => rfl
    | cons d ds => exact List.dropWhile_cons_of_neg (by simp [h d rfl])
  unfold trim
  rw [List.append_assoc, List.dropWhile_append_of_pos hbefore]
  cases core with
  | nil => simp [List.dropWhile_eq_nil_iff.mpr hafter]
  | cons d ds =>
    rw [hstays (d :: ds ++ after) hfirst, List.reverse_append,
      List.dropWhile_append_of_pos (by simpa using hafter),
      hstays (d :: ds).reverse (by rwa [List.head?_reverse]), List.reverse_reverse]

theorem head?_trim {c : Char} (h : c ∈ (trim off cs).head?) : off c = false := by
  obtain ⟨after, hafter⟩ : trim off cs <+: cs.dropWhile off := List.rdropWhile_prefix off _
  have hc : (cs.dropWhile off).head? = some c := by
    rw [← hafter, List.head?_append, Option.mem_def.mp h]
    rfl
  simpa [hc] using List.head?_dropWhile_not off cs

theorem getLast?_trim {c : Char} (h : c ∈ (trim off cs).getLast?) : off c = false := by
  unfold trim at h
  rw [List.getLast?_reverse] at h
  simpa [Option.mem_def.mp h] using List.head?_dropWhile_not off (cs.dropWhile off).reverse

theorem exists_trim (off : Char → Bool) (cs : List Char) :
    ∃ before after, cs = before ++ trim off cs ++ after ∧ ∀ c ∈ before ++ after, off c = true := by
  refine ⟨cs.takeWhile off, (cs.dropWhile off).rtakeWhile off, ?_, fun c hc => ?_⟩
  · rw [List.append_assoc]
    change _ = cs.takeWhile off ++ ((cs.dropWhile off).rdropWhile off ++ _)
    rw [List.rdropWhile_append_rtakeWhile, List.takeWhile_append_dropWhile]
  · rcases List.mem_append.mp hc with hc | hc
    · exact List.mem_takeWhile_imp hc
    · exact List.mem_rtakeWhile_imp hc

theorem stripped_iff {text core : String} : Stripped text core ↔ core = strip text := by
  constructor
  · rintro ⟨⟨before, after, htext, hoff⟩, hfirst, hlast⟩
    rw [strip, htext, trim_eq_core (fun c hc => hoff c (List.mem_append_left _ hc))
      (fun c hc => hoff c (List.mem_append_right _ hc)) hfirst hlast, String.ofList_toList]
  · rintro rfl
    unfold strip
    constructor
    · rw [String.toList_ofList]
      exact exists_trim isBlank text.toList
    · rw [String.toList_ofList]
      exact fun c => head?_trim
    · rw [String.toList_ofList]
      exact fun c => getLast?_trim

end Text

namespace Debug

/-! ## Parts between commas -/

/-- Joined by commas the parts are the text, and a comma stands in none of them. -/
structure CommaParts (text : String) (parts : List String) : Prop where
  nonempty : parts ≠ []
  joined : text = ",".intercalate parts
  whole : ∀ part ∈ parts, ',' ∉ part.toList

/-- A separator of one character is met wherever the character stands. -/
theorem splitOnAux_comma (s : String) (b i : String.Pos.Raw) (parts : List String) :
    s.splitOnAux "," b i 0 parts = s.splitAux (· == ',') b i parts := by
  have hget : String.Pos.Raw.get "," 0 = ',' := rfl
  have hend : String.Pos.Raw.atEnd "," (String.Pos.Raw.next "," 0) = true := rfl
  fun_induction String.splitAux s (· == ',') b i parts with
  | case1 b i parts h => rw [String.splitOnAux, if_pos h]
  | case2 b i parts h _ hc next ih =>
    -- the part that is cut off ends where the comma begins
    have hcut : next.unoffsetBy (String.Pos.Raw.next "," 0) = i := by
      change (i + i.get s).unoffsetBy _ = i
      rw [eq_of_beq hc]
      exact String.Pos.Raw.ext (Nat.add_sub_cancel i.byteIdx 1)
    rw [String.splitOnAux, if_neg h, hget, if_pos hc]
    dsimp only
    rw [if_pos hend, hcut, ih]
  | case3 b i parts h _ hc ih =>
    rw [String.splitOnAux, if_neg h, hget, if_neg hc, String.Pos.Raw.unoffsetBy_zero, ih]

theorem splitOn_comma (s : String) :
    s.splitOn "," = (s.toList.splitOn ',').map String.ofList := by
  have h : s.splitOn "," = s.splitToList (· == ',') := splitOnAux_comma s 0 0 []
  rw [h, String.splitToList_of_valid, List.splitOn_eq_splitOnP]

theorem not_mem_of_mem_splitOn {α : Type} [BEq α] [LawfulBEq α] {a : α} {as piece : List α}
    (h : piece ∈ as.splitOn a) : a ∉ piece := by
  induction as generalizing piece with
  | nil =>
    rw [List.splitOn_nil, List.mem_singleton] at h
    simp [h]
  | cons b as ih =>
    rw [List.splitOn_cons_eq_if_modifyHead] at h
    obtain ⟨next, rest, hnext⟩ := List.exists_cons_of_ne_nil (List.splitOn_ne_nil a as)
    rw [hnext] at h ih
    split at h
    · rcases List.mem_cons.mp h with rfl | h
      · exact List.not_mem_nil
      · exact ih h
    · rename_i hb
      rw [List.modifyHead_cons] at h
      rcases List.mem_cons.mp h with rfl | h
      · have hab : a ≠ b := fun hab => hb (beq_iff_eq.mpr hab.symm)
        exact List.not_mem_cons_of_ne_of_not_mem hab (ih List.mem_cons_self)
      · exact ih (List.mem_cons_of_mem _ h)

theorem commaParts_iff {text : String} {parts : List String} :
    CommaParts text parts ↔ parts = text.splitOn "," := by
  rw [splitOn_comma]
  constructor
  · rintro ⟨hne, rfl, hwhole⟩
    have hlists : (",".intercalate parts).toList = [','].intercalate (parts.map String.toList) := by
      rw [String.toList_intercalate]
      rfl
    rw [hlists, List.splitOn_intercalate, List.map_map]
    · simp
    · simpa using hwhole
    · simpa using hne
  · rintro rfl
    refine ⟨by simp [List.splitOn_ne_nil], ?_, fun part hpart => ?_⟩
    · rw [← String.toList_inj, String.toList_intercalate, List.map_map]
      simp [Function.comp_def]
    · obtain ⟨piece, hpiece, rfl⟩ := List.mem_map.mp hpart
      rw [String.toList_ofList]
      exact not_mem_of_mem_splitOn hpiece

/-! ## Names -/

/-- The names in a setting: its parts, stripped and in lower case, so far as anything is left of them.
Where nothing is set it is as if the text were empty. -/
def named (value : Option String) : Set String :=
  {name | name ≠ "" ∧ ∃ parts, CommaParts (value.getD "") parts ∧
    ∃ part ∈ parts, ∃ core, Text.Stripped part core ∧ Text.lowercase core = name}

/-- Something is named, and it is everything, or no category is asked for in particular, or the one
that is asked for is named in lower case. -/
def On (names : Set String) (category : Option String) : Prop :=
  names.Nonempty ∧
    ("all" ∈ names ∨ category = none ∨ ∃ c, category = some c ∧ Text.lowercase c ∈ names)

theorem ofSetting_getD (value : Option String) :
    Categories.ofSetting (some (value.getD "")) = Categories.ofSetting value := by
  cases value with
  | none =>
    simp only [Option.getD_none, Categories.ofSetting, splitOn_comma]
    rfl
  | some s => rfl

theorem mem_named_iff {value : Option String} {name : String} :
    name ∈ named value ↔ name ∈ (Categories.ofSetting value).names := by
  rw [← ofSetting_getD]
  simp only [named, Set.mem_ofPred_eq, commaParts_iff, exists_eq_left, Text.stripped_iff,
    Categories.ofSetting, List.mem_filter, List.mem_map, decide_eq_true_eq]
  exact and_comm

theorem nonempty_named_iff {value : Option String} :
    (named value).Nonempty ↔ (Categories.ofSetting value).names ≠ [] := by
  constructor
  · rintro ⟨name, h⟩
    exact List.ne_nil_of_mem (mem_named_iff.mp h)
  · intro h
    obtain ⟨name, hname⟩ := List.exists_mem_of_ne_nil _ h
    exact ⟨name, mem_named_iff.mpr hname⟩

theorem enabled_iff (value : Option String) (category : Option String) :
    (Categories.ofSetting value).enabled category = true ↔ On (named value) category := by
  unfold Categories.enabled On
  rw [nonempty_named_iff]
  simp only [mem_named_iff, ne_eq, ← List.isEmpty_iff]
  split
  · rename_i hempty
    simp [hempty]
  · rename_i hsome
    split
    · rename_i hall
      simp [hsome, hall]
    · rename_i hall
      cases category <;> simp [hsome, hall]

end Debug

end Chip8
