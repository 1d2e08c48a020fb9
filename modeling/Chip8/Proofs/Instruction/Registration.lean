import Chip8.Proofs.Instruction.Table
import Chip8.Proofs.Outcome

/-! # Filling a table

A registration puts an instruction behind all others or, where the pattern is taken, leaves the
table as it was. So the entries are the instructions that were accepted, in this order, and the
entries of a group that are as specific as each other keep it. A lookup chooses the first among
the most specific ones. What it can miss is a pattern without a digit in front: this stands in
group zero, whatever words it accepts. -/

namespace Chip8

namespace InstructionTable

variable {t u : InstructionTable} {i j : Instruction} {is : List Instruction} {w : Int}
  {e : DuplicatePattern}

/-! ## One registration and several -/

theorem register_eq (i : Instruction) (t : InstructionTable) :
    register i t = match t.entries.find? (·.pattern = i.pattern) with
      | some j => .error ⟨i.pattern, j.mnemonic⟩ t
      | none => .ok () (t.insert i) := by
  rw [register, get_bind]
  cases t.entries.find? (·.pattern = i.pattern) with
  | some j => rfl
  | none => rfl

/-- A pattern that no entry has is accepted. -/
theorem register_eq_ok :
    register i t = .ok () u ↔ (∀ j ∈ t.entries, j.pattern ≠ i.pattern) ∧ u = t.insert i := by
  cases h : t.entries.find? (·.pattern = i.pattern) with
  | some j =>
    have hj := List.mem_of_find?_eq_some h
    have hp : j.pattern = i.pattern := by simpa using List.find?_some h
    simp only [register_eq, h, reduceCtorEq, false_iff, not_and]
    exact fun hn => absurd hp (hn j hj)
  | none =>
    have hn : ∀ j ∈ t.entries, j.pattern ≠ i.pattern := by simpa using h
    simp only [register_eq, h, EStateM.Result.ok.injEq, true_and]
    exact ⟨fun hu => ⟨hn, hu.symm⟩, fun hu => hu.2.symm⟩

/-- A pattern that is taken is refused, and the table stays as it was. -/
theorem register_eq_error (h : register i t = .error e u) :
    u = t ∧ ∃ j ∈ t.entries, j.pattern = i.pattern ∧ e = ⟨i.pattern, j.mnemonic⟩ := by
  cases hf : t.entries.find? (·.pattern = i.pattern) with
  | some j =>
    rw [register_eq, hf] at h
    cases h
    exact ⟨rfl, j, List.mem_of_find?_eq_some hf, by simpa using List.find?_some hf, rfl⟩
  | none =>
    rw [register_eq, hf] at h
    cases h

theorem entries_insert : (t.insert i).entries = t.entries ++ [i] := rfl

theorem registerAll_eq_ok (h : registerAll is t = .ok () u) :
    u = is.foldl InstructionTable.insert t := by
  induction is generalizing t with
  | nil => cases h; rfl
  | cons i is ih =>
    obtain ⟨⟨⟩, v, hv, h⟩ := bind_eq_ok.mp h
    obtain ⟨_, rfl⟩ := register_eq_ok.mp hv
    exact ih h

/-- Several registrations stop at one that is refused, behind those before it. -/
theorem registerAll_eq_error (h : registerAll is t = .error e u) :
    ∃ k i, is[k]? = some i ∧ registerAll (is.take k) t = .ok () u ∧ register i u = .error e u := by
  induction is generalizing t with
  | nil => cases h
  | cons i is ih =>
    rcases bind_eq_error.mp h with h | ⟨⟨⟩, v, hv, h⟩
    · obtain ⟨rfl, _⟩ := register_eq_error h
      exact ⟨0, i, rfl, rfl, h⟩
    · obtain ⟨k, j, hj, hk, he⟩ := ih h
      exact ⟨k + 1, j, hj, bind_eq_ok.mpr ⟨(), v, hv, hk⟩, he⟩

/-! ## The order of a group -/

/-- The new instruction comes behind those that are as specific. -/
theorem filter_place {js : List Instruction} (h : Ordered js) (s : Nat) :
    (place i js).filter (·.specificity = s) =
      js.filter (·.specificity = s) ++ [i].filter (·.specificity = s) := by
  unfold Ordered at h
  induction js with
  | nil => rfl
  | cons k ks ih =>
    obtain ⟨hk, hks⟩ := List.pairwise_cons.mp h
    by_cases hi : i.specificity ≤ k.specificity
    · rw [place, if_pos hi, List.filter_cons, ih hks, List.filter_cons (x := k)]
      split
      · rfl
      · rfl
    · rw [place, if_neg hi]
      by_cases hs : i.specificity = s
      · -- all that the list holds is less specific
        have hnil : (k :: ks).filter (·.specificity = s) = [] := by
          refine List.filter_eq_nil_iff.mpr fun j hj => ?_
          have : j.specificity ≤ k.specificity := by
            rcases List.mem_cons.mp hj with rfl | hj
            · exact Nat.le_refl _
            · exact hk j hj
          simp only [decide_eq_true_eq]
          omega
        rw [List.filter_cons, hnil]
        simp [hs]
      · simp [hs, List.filter_cons]

/-- In each group entries that are as specific as each other stand in the order in which they
were registered. -/
structure Arranged (t : InstructionTable) : Prop extends t.Grouped where
  filter_group : ∀ k s, (t.groups.get k).filter (·.specificity = s) =
    t.entries.filter fun i => i.pattern.leading = k ∧ i.specificity = s

theorem Arranged.empty : Arranged {} where
  toGrouped := .empty
  filter_group k s := by
    have hnil : ({} : InstructionTable).groups.get k = [] := by
      change (Vector.replicate 16 ([] : List Instruction)).get k = []
      exact Vector.getElem_replicate k.isLt
    rw [hnil]
    rfl

theorem Arranged.insert (h : t.Arranged) (i : Instruction) : (t.insert i).Arranged where
  toGrouped := h.toGrouped.insert i
  filter_group k s := by
    have hget : (t.insert i).groups.get k =
        if k = i.pattern.leading then place i (t.groups.get i.pattern.leading)
        else t.groups.get k := by
      simp [InstructionTable.insert]
    rw [hget, entries_insert, List.filter_append, ← h.filter_group k s]
    by_cases hk : k = i.pattern.leading
    · rw [if_pos hk, ← hk, filter_place (h.ordered k)]
      simp [List.filter_cons, hk]
    · rw [if_neg hk]
      simp [Ne.symm hk]

theorem Arranged.insertAll (h : t.Arranged) (is : List Instruction) :
    (is.foldl InstructionTable.insert t).Arranged := by
  induction is generalizing t with
  | nil => exact h
  | cons i is ih => exact ih (h.insert i)

/-- Tables that come about by registrations, accepted and refused ones. -/
inductive Filled : InstructionTable → Prop
  | empty : Filled {}
  | one {t : InstructionTable} (h : Filled t) (i : Instruction) :
      Filled (leftBy (register i) t)
  | several {t : InstructionTable} (h : Filled t) (is : List Instruction) :
      Filled (leftBy (registerAll is) t)

theorem Arranged.register (h : t.Arranged) (i : Instruction) :
    (leftBy (register i) t).Arranged := by
  cases hr : InstructionTable.register i t with
  | ok a u =>
    rw [leftBy_of_ok hr, (register_eq_ok.mp hr).2]
    exact h.insert i
  | error e u =>
    rw [leftBy_of_error hr, (register_eq_error hr).1]
    exact h

theorem Arranged.registerAll (h : t.Arranged) (is : List Instruction) :
    (leftBy (registerAll is) t).Arranged := by
  cases hr : InstructionTable.registerAll is t with
  | ok a u =>
    rw [leftBy_of_ok hr, registerAll_eq_ok hr]
    exact h.insertAll is
  | error e u =>
    obtain ⟨k, _, _, hk, _⟩ := registerAll_eq_error hr
    rw [leftBy_of_error hr, registerAll_eq_ok hk]
    exact h.insertAll (is.take k)

theorem Filled.arranged (h : t.Filled) : t.Arranged := by
  induction h with
  | empty => exact .empty
  | one _ i ih => exact ih.register i
  | several _ is ih => exact ih.registerAll is

/-! ## What a lookup finds -/

/-- Among the instructions that accept the word this is one of the most specific, and of these
the first. -/
def Chosen (is : List Instruction) (w : Int) (i : Instruction) : Prop :=
  i.accepts w = true ∧ ∃ before after, is = before ++ i :: after ∧
    (∀ j ∈ before, j.accepts w = true → j.specificity < i.specificity) ∧
    ∀ j ∈ after, j.accepts w = true → j.specificity ≤ i.specificity

theorem Arranged.chosen (h : t.Arranged) (hf : t.Fixed) (hl : t.lookup w = some i) :
    Chosen t.entries w i := by
  obtain ⟨_, ha⟩ := h.mem_of_lookup hl
  have hmax : ∀ j ∈ t.entries, j.accepts w = true → j.specificity ≤ i.specificity :=
    fun j hj => h.specificity_le hf hl hj
  -- the first match of the group is the first match of those that are as specific as it
  have hfind : (t.entries.filter fun j => j.pattern.leading = nibbleOf (w / 4096) ∧
      j.specificity = i.specificity).find? (·.accepts w) = some i := by
    unfold lookup at hl
    rw [← h.filter_group]
    obtain ⟨_, front, back, hg, hfront⟩ := List.find?_eq_some_iff_append.mp hl
    refine List.find?_eq_some_iff_append.mpr ⟨ha, front.filter (·.specificity = i.specificity),
      back.filter (·.specificity = i.specificity), ?_, ?_⟩
    · rw [hg, List.filter_append, List.filter_cons_of_pos (by simp)]
    · exact fun j hj => hfront j (List.mem_filter.mp hj).1
  rw [List.find?_filter] at hfind
  obtain ⟨_, before, after, he, hbefore⟩ := List.find?_eq_some_iff_append.mp hfind
  refine ⟨ha, before, after, he, fun j hj haj => ?_, fun j hj haj => ?_⟩
  · have hmem : j ∈ t.entries := by simp [he, hj]
    have hlead : j.pattern.leading = nibbleOf (w / 4096) := by
      rw [Pattern.lead_of_accepts (hf j hmem) haj, Operands.lead_ofWord]
    have hne : j.specificity ≠ i.specificity := by
      intro hs
      simpa [hlead, hs, haj] using hbefore j hj
    exact Nat.lt_of_le_of_ne (hmax j hmem haj) hne
  · exact hmax j (by simp [he, hj]) haj

/-- With a digit in front of every pattern a lookup answers the first of the most specific
entries that accept the word, and nothing only where none does. A registration puts its
instruction behind the entries, or leaves the table as it was because an entry has the pattern.
Several are accepted all, or leave the table that those before the first refused one leave. -/
theorem Filled.lookup_chooses (h : t.Filled) (hf : t.Fixed) :
    (∀ w : Int, (t.lookup w = none ↔ ∀ i ∈ t.entries, i.accepts w = false) ∧
      ∀ i, t.lookup w = some i → Chosen t.entries w i) ∧
    (∀ i, (∃ u, register i t = .ok () u ∧ u.entries = t.entries ++ [i]) ∨
      ∃ j ∈ t.entries, j.pattern = i.pattern ∧
        register i t = .error ⟨i.pattern, j.mnemonic⟩ t) ∧
    ∀ is, (∃ u, registerAll is t = .ok () u ∧ u.entries = t.entries ++ is) ∨
      ∃ k i e u, is[k]? = some i ∧ registerAll is t = .error e u ∧
        registerAll (is.take k) t = .ok () u ∧ u.entries = t.entries ++ is.take k ∧
        register i u = .error e u := by
  refine ⟨fun w => ⟨h.arranged.lookup_eq_none hf, fun i hl => h.arranged.chosen hf hl⟩,
    fun i => ?_, fun is => ?_⟩
  · cases hr : InstructionTable.register i t with
    | ok a u =>
      refine .inl ⟨u, rfl, ?_⟩
      rw [(register_eq_ok.mp hr).2, entries_insert]
    | error e u =>
      obtain ⟨rfl, j, hj, hp, rfl⟩ := register_eq_error hr
      exact .inr ⟨j, hj, hp, rfl⟩
  · cases hr : InstructionTable.registerAll is t with
    | ok a u =>
      refine .inl ⟨u, rfl, ?_⟩
      rw [registerAll_eq_ok hr, entries_insertAll]
    | error e u =>
      obtain ⟨k, i, hi, hk, he⟩ := registerAll_eq_error hr
      refine .inr ⟨k, i, e, u, hi, rfl, hk, ?_, he⟩
      rw [registerAll_eq_ok hk, entries_insertAll]

/-- Three overlapping patterns, and the first of them once more. -/
def overlapping : List Instruction :=
  [⟨⟨1, .n, .n, .n⟩, "A", "a", []⟩, ⟨⟨1, .x, .n, 0⟩, "B", "b", []⟩,
    ⟨⟨1, .x, 0, .n⟩, "C", "c", []⟩, ⟨⟨1, .n, .n, .n⟩, "D", "d", []⟩]

theorem lookup_chooses_overlapping :
    ∃ t e, registerAll overlapping {} = .error e t ∧ t.Filled ∧ t.Fixed ∧
      t.entries = overlapping.take 3 ∧
      ∃ i, t.lookup 0x1200 = some i ∧ i.mnemonic = "B" ∧ Chosen t.entries 0x1200 i := by
  let t : InstructionTable := (overlapping.take 3).foldl InstructionTable.insert {}
  have hr : registerAll overlapping {} = .error ⟨⟨1, .n, .n, .n⟩, "A"⟩ t := rfl
  have ht : t.Filled := by
    have := Filled.empty.several overlapping
    rwa [leftBy_of_error hr] at this
  have hf : t.Fixed := by
    change ∀ i ∈ overlapping.take 3, i.pattern.first.isFixed = true
    decide
  obtain ⟨hl, -, -⟩ := ht.lookup_chooses hf
  exact ⟨t, _, hr, ht, hf, rfl, _, rfl, rfl, (hl 0x1200).2 _ rfl⟩

/-! ## Patterns without a digit in front -/

/-- A lookup honours a pattern without a digit in front for the words alone that start with
zero, and every other pattern for all words that it accepts. -/
theorem Filled.lookup_isSome (h : t.Filled) (w : Int) : (t.lookup w).isSome = true ↔
    ∃ i ∈ t.entries, i.accepts w = true ∧
      (i.pattern.first.isFixed = true ∨ (Operands.ofWord w).lead = 0) := by
  rw [h.arranged.lookup_isSome_iff]
  constructor
  · rintro ⟨i, hi, ha, hl⟩
    refine ⟨i, hi, ha, ?_⟩
    cases hfirst : i.pattern.first.isFixed with
    | true => exact .inl rfl
    | false => exact .inr (by rw [← hl, Pattern.leading_of_operand hfirst])
  · rintro ⟨i, hi, ha, hfirst⟩
    refine ⟨i, hi, ha, ?_⟩
    cases hd : i.pattern.first.isFixed with
    | true => exact Pattern.lead_of_accepts hd ha
    | false =>
      have hzero := hfirst.resolve_left (by simp [hd])
      rw [hzero, Pattern.leading_of_operand hd]

/-- It starts with an operand and accepts every word. -/
def everyWord : Instruction := ⟨⟨.x, .n, .n, .n⟩, "ANY", "any", []⟩

theorem lookup_isSome_everyWord : ∃ t, build [everyWord] = .ok t ∧ t.Filled ∧
    (t.lookup 0x0234).isSome = true := by
  have hr : registerAll [everyWord] {} = .ok () (({} : InstructionTable).insert everyWord) := rfl
  have ht := Filled.empty.several [everyWord]
  rw [leftBy_of_ok hr] at ht
  exact ⟨_, rfl, ht, (ht.lookup_isSome 0x0234).mpr ⟨everyWord, .head _, rfl, .inr rfl⟩⟩

/-- A word that does not start with zero is not found, though its pattern was accepted and
accepts it. -/
theorem lookup_everyWord_misses : ∃ t, Instruction.ofText "XNNN" "ANY" "any" "" = .ok everyWord ∧
    build [everyWord] = .ok t ∧ everyWord ∈ t.entries ∧ everyWord.accepts 0x1234 = true ∧
    t.lookup 0x1234 = none :=
  ⟨_, rfl, rfl, .head _, rfl, rfl⟩

end InstructionTable

end Chip8
