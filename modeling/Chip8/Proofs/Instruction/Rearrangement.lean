import Chip8.Proofs.Instruction.Decode
import Chip8.Proofs.Instruction.Registration
import Mathlib.Data.List.Pairwise

/-! # Tables filled in another order

The order of registration bears on a lookup only where two patterns that are as specific as each
other accept a common word. In a set without such patterns a group may be ordered otherwise, but
of the entries that accept a word a single one is the most specific. The standard set is of this
kind. -/

namespace Chip8

namespace InstructionTable

variable {t u : InstructionTable} {is js : List Instruction}

theorem registerAll_of_nodup (h : ((t.entries ++ is).map (·.pattern)).Nodup) :
    registerAll is t = .ok () (is.foldl InstructionTable.insert t) := by
  induction is generalizing t with
  | nil => rfl
  | cons i is ih =>
    have hfree : ∀ j ∈ t.entries, j.pattern ≠ i.pattern := by
      rw [List.map_append, List.map_cons] at h
      intro j hj
      exact (List.nodup_append.mp h).2.2 _ (List.mem_map_of_mem hj) _ (.head _)
    have hrest : (((t.insert i).entries ++ is).map (·.pattern)).Nodup := by
      simpa [entries_insert] using h
    exact bind_eq_ok.mpr ⟨(), _, register_eq_ok.mpr ⟨hfree, rfl⟩, ih hrest⟩

/-- Instructions with patterns of their own fill a table. -/
theorem build_of_nodup (h : (is.map (·.pattern)).Nodup) :
    build is = .ok (is.foldl InstructionTable.insert {}) := by
  have hr : registerAll is {} = .ok () (is.foldl InstructionTable.insert {}) :=
    registerAll_of_nodup h
  simp only [build, EStateM.run, hr]

/-- Two instructions that are as specific as each other accept no common word. -/
def Separate (is : List Instruction) : Prop :=
  ∀ i ∈ is, ∀ j ∈ is, i ≠ j → i.specificity = j.specificity →
    ∀ w : Int, ¬ (i.accepts w = true ∧ j.accepts w = true)

/-- Patterns that are as specific as each other and differ in a digit. -/
theorem separate_of_clashes (h : is.Pairwise fun i j =>
    i.specificity = j.specificity → i.pattern.clashes j.pattern = true) : Separate is := by
  have : Std.Symm fun i j : Instruction =>
      i.specificity = j.specificity → i.pattern.clashes j.pattern = true :=
    ⟨fun i j hij hs => by rw [Pattern.clashes_comm]; exact hij hs.symm⟩
  intro i hi j hj hne hs w ⟨hai, haj⟩
  have hc := h.forall hi hj hne hs
  rw [Pattern.not_clashes hai haj] at hc
  cases hc

/-- Tables that hold the same entries find the same, if no two entries contend for a word. -/
theorem Grouped.lookup_congr (ht : t.Grouped) (hu : u.Grouped)
    (hmem : ∀ i, i ∈ t.entries ↔ i ∈ u.entries) (hs : Separate t.entries) (w : Int) :
    t.lookup w = u.lookup w := by
  have hsome : (t.lookup w).isSome = true ↔ (u.lookup w).isSome = true := by
    simp only [ht.lookup_isSome_iff, hu.lookup_isSome_iff, hmem]
  cases hi : t.lookup w with
  | none =>
    rw [hi] at hsome
    cases hj : u.lookup w with
    | none => rfl
    | some j => simp [hj] at hsome
  | some i =>
    rw [hi] at hsome
    obtain ⟨j, hj⟩ := Option.isSome_iff_exists.mp (hsome.mp rfl)
    obtain ⟨hit, hai⟩ := ht.mem_of_lookup hi
    obtain ⟨hju, haj⟩ := hu.mem_of_lookup hj
    have hjt := (hmem j).mpr hju
    -- each of them is in both groups, so neither is more specific
    have hle := ht.specificity_le_of_leading hi hjt haj (hu.leading_of_lookup hj)
    have hge := hu.specificity_le_of_leading hj ((hmem i).mp hit) hai (ht.leading_of_lookup hi)
    by_cases hij : i = j
    · rw [hij, hj]
    · exact absurd ⟨hai, haj⟩ (hs i hit j hjt hij (Nat.le_antisymm hge hle) w)

/-- Two orders of such a set fill two tables, and these find the same. -/
theorem build_of_perm (hd : (is.map (·.pattern)).Nodup) (hp : is.Perm js) (hs : Separate is) :
    build is = .ok (is.foldl InstructionTable.insert {}) ∧
      build js = .ok (js.foldl InstructionTable.insert {}) ∧
      ∀ w, (is.foldl InstructionTable.insert {}).lookup w =
        (js.foldl InstructionTable.insert {}).lookup w := by
  have hentries (ks : List Instruction) : (ks.foldl InstructionTable.insert {}).entries = ks :=
    entries_insertAll {} ks
  refine ⟨build_of_nodup hd, build_of_nodup ((hp.map _).nodup hd), fun w => ?_⟩
  refine Grouped.lookup_congr (Grouped.empty.insertAll is) (Grouped.empty.insertAll js) ?_ ?_ w
  · intro i
    rw [hentries, hentries]
    exact hp.mem_iff
  · rwa [hentries]

theorem separate_standard : Separate Standard.instructions :=
  separate_of_clashes (by decide +kernel)

/-- Two tables with the same instructions, registered in different orders, find the same for
every word, if instructions that are as specific as each other accept no common word. The
standard instructions are such, so whatever their order they decode every word alike. -/
theorem lookup_of_perm :
    (∀ is js : List Instruction, (is.map (·.pattern)).Nodup → is.Perm js → Separate is →
      ∃ t u, build is = .ok t ∧ build js = .ok u ∧ ∀ w, t.lookup w = u.lookup w) ∧
    (Standard.instructions.map (·.pattern)).Nodup ∧ Separate Standard.instructions ∧
    ∀ js, Standard.instructions.Perm js →
      ∃ t, build js = .ok t ∧ ∀ w, t.lookup w = standard.lookup w := by
  refine ⟨fun is js hd hp hs => ⟨_, _, build_of_perm hd hp hs⟩, nodup_standard,
    separate_standard, fun js hp => ?_⟩
  obtain ⟨_, hb, hl⟩ := build_of_perm nodup_standard hp separate_standard
  exact ⟨_, hb, fun w => (hl w).symm⟩

/-- Some of the standard instructions behind one that accepts every word. -/
def mixed : List Instruction := everyWord :: Standard.instructions.take 5

theorem lookup_of_perm_mixed : (mixed.map (·.pattern)).Nodup ∧ Separate mixed ∧
    ∃ t u, build mixed = .ok t ∧ build mixed.reverse = .ok u ∧ ∀ w, t.lookup w = u.lookup w := by
  have hd : (mixed.map (·.pattern)).Nodup := by decide +kernel
  have hs : Separate mixed := separate_of_clashes (by decide +kernel)
  exact ⟨hd, hs, lookup_of_perm.1 mixed mixed.reverse hd mixed.reverse_perm.symm hs⟩

end InstructionTable

end Chip8
