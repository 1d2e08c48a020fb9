import Chip8.Instruction.Table
import Chip8.Proofs.Instruction.Pattern

/-! # The search of a table

A group holds exactly the entries whose patterns lead with its digit, the most specific
ones first, however the table was filled. When every pattern starts with a digit a lookup
therefore sees every entry that accepts the word, and answers one that is as specific as
any of them. -/

namespace Chip8

namespace InstructionTable

theorem mem_place {i j : Instruction} {js : List Instruction} :
    j ∈ place i js ↔ j = i ∨ j ∈ js := by
  induction js with
  | nil => simp [place]
  | cons k ks ih =>
    by_cases h : i.specificity ≤ k.specificity
    · rw [place, if_pos h, List.mem_cons, ih, List.mem_cons]
      exact or_left_comm
    · rw [place, if_neg h, List.mem_cons]

/-- The most specific first. -/
def Ordered (js : List Instruction) : Prop := js.Pairwise fun i j => j.specificity ≤ i.specificity

theorem ordered_place {i : Instruction} {js : List Instruction} (h : Ordered js) :
    Ordered (place i js) := by
  unfold Ordered at h ⊢
  induction js with
  | nil => exact List.pairwise_singleton _ i
  | cons k ks ih =>
    obtain ⟨hk, hks⟩ := List.pairwise_cons.mp h
    by_cases hi : i.specificity ≤ k.specificity
    · rw [place, if_pos hi]
      refine List.pairwise_cons.mpr ⟨?_, ih hks⟩
      intro j hj
      rcases mem_place.mp hj with rfl | hj
      · exact hi
      · exact hk j hj
    · rw [place, if_neg hi]
      refine List.pairwise_cons.mpr ⟨?_, h⟩
      intro j hj
      rcases List.mem_cons.mp hj with rfl | hj
      · omega
      · have := hk j hj
        omega

/-- The groups hold the entries, each in its place. -/
structure Grouped (t : InstructionTable) : Prop where
  mem_group : ∀ k i, i ∈ t.groups.get k ↔ i ∈ t.entries ∧ i.pattern.leading = k
  ordered : ∀ k, Ordered (t.groups.get k)

theorem Grouped.empty : Grouped {} := by
  have hnil : ∀ k : Nibble, (Vector.replicate 16 ([] : List Instruction)).get k = [] := by
    intro k
    exact Vector.getElem_replicate k.isLt
  refine ⟨fun k i => ?_, fun k => ?_⟩
  · rw [hnil]
    simp
  · rw [hnil]
    exact List.Pairwise.nil

theorem Grouped.insert {t : InstructionTable} (h : t.Grouped) (i : Instruction) :
    (t.insert i).Grouped := by
  have hget : ∀ k, (t.insert i).groups.get k =
      if k = i.pattern.leading then place i (t.groups.get k) else t.groups.get k := by
    intro k
    unfold InstructionTable.insert
    rw [get_setAt]
    by_cases hk : k = i.pattern.leading
    · rw [if_pos hk, if_pos hk, hk]
    · rw [if_neg hk, if_neg hk]
  refine ⟨fun k j => ?_, fun k => ?_⟩
  · have hentries : j ∈ (t.insert i).entries ↔ j ∈ t.entries ∨ j = i := by
      simp [InstructionTable.insert]
    rw [hget, hentries]
    by_cases hk : k = i.pattern.leading
    · rw [if_pos hk, mem_place, h.mem_group]
      constructor
      · intro hj
        rcases hj with rfl | ⟨hj, hl⟩
        · exact ⟨.inr rfl, hk.symm⟩
        · exact ⟨.inl hj, hl⟩
      · intro hj
        rcases hj with ⟨hj | rfl, hl⟩
        · exact .inr ⟨hj, hl⟩
        · exact .inl rfl
    · rw [if_neg hk, h.mem_group]
      constructor
      · intro hj
        exact ⟨.inl hj.1, hj.2⟩
      · intro hj
        rcases hj with ⟨hj | rfl, hl⟩
        · exact ⟨hj, hl⟩
        · exact absurd hl.symm hk
  · rw [hget]
    by_cases hk : k = i.pattern.leading
    · rw [if_pos hk]
      exact ordered_place (h.ordered k)
    · rw [if_neg hk]
      exact h.ordered k

theorem Grouped.insertAll {t : InstructionTable} (h : t.Grouped) (is : List Instruction) :
    (is.foldl InstructionTable.insert t).Grouped := by
  induction is generalizing t with
  | nil => exact h
  | cons i is ih => exact ih (h.insert i)

theorem entries_insertAll (t : InstructionTable) (is : List Instruction) :
    (is.foldl InstructionTable.insert t).entries = t.entries ++ is := by
  induction is generalizing t with
  | nil => simp
  | cons i is ih =>
    rw [List.foldl_cons, ih]
    simp [InstructionTable.insert]

/-- Every pattern starts with a digit. -/
def Fixed (t : InstructionTable) : Prop := ∀ i ∈ t.entries, i.pattern.first.isFixed = true

variable {t : InstructionTable} {w : Int} {i : Instruction}

theorem Grouped.mem_searched (h : t.Grouped) (hf : t.Fixed) (hi : i ∈ t.entries)
    (ha : i.accepts w = true) : i ∈ t.groups.get (nibbleOf (w / 4096)) := by
  rw [h.mem_group]
  refine ⟨hi, ?_⟩
  rw [Pattern.lead_of_accepts (hf i hi) ha, Operands.lead_ofWord]

theorem Grouped.lookup_eq_none (h : t.Grouped) (hf : t.Fixed) :
    t.lookup w = none ↔ ∀ i ∈ t.entries, i.accepts w = false := by
  unfold lookup
  rw [List.find?_eq_none]
  constructor
  · intro hn i hi
    cases ha : i.accepts w with
    | false => rfl
    | true => exact absurd ha (hn i (h.mem_searched hf hi ha))
  · intro hn i hi
    rw [hn i ((h.mem_group _ i).mp hi).1]
    exact Bool.false_ne_true

theorem Grouped.mem_of_lookup (h : t.Grouped) (hl : t.lookup w = some i) :
    i ∈ t.entries ∧ i.accepts w = true := by
  unfold lookup at hl
  exact ⟨((h.mem_group _ i).mp (List.mem_of_find?_eq_some hl)).1, by simpa using List.find?_some hl⟩

/-- In an ordered list the first match is as specific as any. -/
theorem Ordered.specificity_le {js : List Instruction} (h : Ordered js)
    (hl : js.find? (·.accepts w) = some i) {j : Instruction} (hj : j ∈ js)
    (ha : j.accepts w = true) : j.specificity ≤ i.specificity := by
  obtain ⟨_, before, after, rfl, hn⟩ := List.find?_eq_some_iff_append.mp hl
  rcases List.mem_append.mp hj with hb | hb
  · have := hn j hb
    rw [ha] at this
    cases this
  · rcases List.mem_cons.mp hb with rfl | hb
    · exact Nat.le_refl _
    · exact (List.pairwise_cons.mp (List.pairwise_append.mp h).2.1).1 j hb

/-- What is found is as specific as any entry of the group that accepts the word. -/
theorem Grouped.specificity_le_of_leading (h : t.Grouped) (hl : t.lookup w = some i)
    {j : Instruction} (hj : j ∈ t.entries) (ha : j.accepts w = true)
    (hlead : j.pattern.leading = (Operands.ofWord w).lead) : j.specificity ≤ i.specificity := by
  rw [Operands.lead_ofWord] at hlead
  exact (h.ordered _).specificity_le hl ((h.mem_group _ j).mpr ⟨hj, hlead⟩) ha

theorem Grouped.specificity_le (h : t.Grouped) (hf : t.Fixed) (hl : t.lookup w = some i)
    {j : Instruction} (hj : j ∈ t.entries) (ha : j.accepts w = true) :
    j.specificity ≤ i.specificity :=
  h.specificity_le_of_leading hl hj ha (Pattern.lead_of_accepts (hf j hj) ha)

theorem Grouped.leading_of_lookup (h : t.Grouped) (hl : t.lookup w = some i) :
    i.pattern.leading = (Operands.ofWord w).lead := by
  rw [Operands.lead_ofWord]
  exact ((h.mem_group _ i).mp (List.mem_of_find?_eq_some hl)).2

/-- A word is looked for among the patterns that lead with its first digit. -/
theorem Grouped.lookup_isSome_iff (h : t.Grouped) : (t.lookup w).isSome = true ↔
    ∃ i ∈ t.entries, i.accepts w = true ∧ i.pattern.leading = (Operands.ofWord w).lead := by
  unfold lookup
  rw [List.find?_isSome, ← Operands.lead_ofWord]
  constructor
  · rintro ⟨i, hi, ha⟩
    obtain ⟨hi, hl⟩ := (h.mem_group _ i).mp hi
    exact ⟨i, hi, ha, hl⟩
  · rintro ⟨i, hi, ha, hl⟩
    exact ⟨i, (h.mem_group _ i).mpr ⟨hi, hl⟩, ha⟩

end InstructionTable

end Chip8
