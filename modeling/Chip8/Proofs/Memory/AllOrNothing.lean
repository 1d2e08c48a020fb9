import Chip8.Proofs.Memory.Built

/-! # Stores that happen as a whole

A block is stored as a whole or not at all, since the whole range is checked before the first byte
is written: behind the check no single store is refused. It changes the bytes that are served in
the range and no other byte of any block, shadowed ones included. -/

namespace Chip8

namespace Region

@[simp] theorem offset_put (r : Region) (k : Nat) (b : UInt8) (a : Int) :
    (r.put k b).offset a = r.offset a := by
  unfold offset stop
  rw [size_put]
  rfl

/-- A byte that is put changes no other place of its region. -/
theorem load_put {r : Region} {k : Nat} (hk : k < r.bytes.size) (b : UInt8) {a : Int}
    (h : a ≠ r.start + k) : (r.put k b).load a = r.load a := by
  unfold load
  rw [offset_put]
  cases ho : r.offset a with
  | error e => rfl
  | ok j =>
    have hj : j ≠ k := by
      unfold offset at ho
      dsimp only at ho
      split at ho
      · cases ho
        omega
      · cases ho
    simp only [ok_bind, getD_put r hk, if_neg hj]

end Region

namespace Bus

/-- What a block holds at an address, whoever serves the address. -/
def held (m : Bus) (id : Nat) (a : Int) : Option (Except MemoryFault Int) :=
  m.blocks[id]?.map (·.load8 a)

def Serves (m : Bus) (id : Nat) (a : Int) : Prop := ∃ b, m.serving a = .ok (id, b)

/-- Why an address takes no bytes: there is nothing, or it is a font's. -/
def Refusal (a : Int) (e : MemoryFault) : Prop := Missing a e ∨ e = .readOnly a

variable {m t : Bus} {n : Nat}

theorem Serves.of_layout {id : Nat} {a : Int} (h : m.Serves id a) (hl : t.layout = m.layout) :
    t.Serves id a := by
  obtain ⟨b, hb⟩ := h
  obtain ⟨b', hb', _⟩ := serving_of_layout hl hb
  exact ⟨b', hb'⟩

/-! ## Stores and the blocks -/

/-- A byte that is stored goes to the block that serves its address, and to no other place. -/
theorem held_store8 (hm : m.Covered) {a v : Int} (h : store8 a v m = .ok () t) {id : Nat} {a' : Int}
    (hne : ¬ (a' = a ∧ m.Serves id a')) : t.held id a' = m.held id a' := by
  obtain ⟨id', k, r, hs, lo, hi, rfl⟩ := store8_inv hm h
  change a ≤ r.start + r.bytes.size - 1 at hi
  have hb := getElem?_of_serving hs
  have hlt := (Array.getElem?_eq_some_iff.mp hb).1
  unfold held setBlock
  rw [Array.getElem?_setIfInBounds]
  by_cases hid : id' = id
  · subst hid
    rw [if_pos rfl, if_pos hlt, hb, Option.map_some, Option.map_some]
    congr 1
    have hplace : a' ≠ r.start + (a - r.start).toNat := by
      intro he
      obtain rfl : a' = a := by omega
      exact hne ⟨rfl, _, hs⟩
    have hk : (a - r.start).toNat < r.bytes.size := by omega
    simp only [Block.load8, Region.load_put hk _ hplace]
  · rw [if_neg hid]

theorem held_storeFrom (data : List Int) : ∀ {start : Int} {m t : Bus}, m.Covered →
    storeFrom start data m = .ok () t → ∀ {id : Nat} {a : Int},
      ¬ (start ≤ a ∧ a < start + data.length ∧ m.Serves id a) → t.held id a = m.held id a := by
  induction data with
  | nil =>
    intro start m t _ h id a _
    cases h
    rfl
  | cons v vs ih =>
    intro start m t hm h id a hne
    obtain ⟨_, u, hu, h⟩ := bind_eq_ok.mp h
    have hl := layout_of_store8 hu
    rw [List.length_cons] at hne
    have hrest : ¬ (start + 1 ≤ a ∧ a < start + 1 + vs.length ∧ u.Serves id a) := fun hin =>
      hne ⟨by omega, by omega, hin.2.2.of_layout hl.symm⟩
    have hfirst : ¬ (a = start ∧ m.Serves id a) := fun hin => hne ⟨by omega, by omega, hin.2⟩
    rw [ih (hm.of_layout hl) h hrest, held_store8 hm hu hfirst]

theorem loadFrom_of_load8 (bs : List UInt8) : ∀ {start : Int},
    (∀ (k : Nat) b, bs[k]? = some b → m.load8 (start + k) = .ok b) →
      m.loadFrom start bs.length = .ok bs := by
  induction bs with
  | nil => intro start _; rfl
  | cons b bs ih =>
    intro start h
    have hfirst : m.load8 start = .ok b := by simpa using h 0 b rfl
    have hrest := @ih (start + 1) fun k c hc => by
      rw [show start + 1 + (k : Int) = start + ((k + 1 : Nat) : Int) by omega]
      exact h (k + 1) c hc
    simp only [List.length_cons, loadFrom, hfirst, hrest, ok_bind, pure_eq_ok]

/-! ## Why a store is refused -/

theorem missing_of_serving (hn : m.capacity = .ok n) {a : Int} {e : MemoryFault}
    (h : m.serving a = .error e) : Missing a e := by
  obtain ⟨s, hs, _⟩ := capacity_eq_ok.mp hn
  rw [serving_eq, hs] at h
  dsimp only at h
  split at h
  · cases h
    exact .inr ⟨_, rfl⟩
  · split at h
    · cases h
      exact .inl rfl
    · split at h
      · cases h
        exact .inl rfl
      · cases h

theorem store8_refusal (hn : m.capacity = .ok n) {a : Int} (v : Int) (h : m.writable a = false) :
    ∃ e, Refusal a e ∧ store8 a v m = .error e m := by
  obtain ⟨e, hwhy, he⟩ := store8_of_not_writable v h
  exact ⟨e, hwhy.imp (missing_of_serving hn) id, he⟩

theorem checkWritable_eq_error (hn : m.capacity = .ok n) {len : Nat} {e : MemoryFault} :
    ∀ {start : Int}, m.checkWritable start len = .error e →
      ∃ a, start ≤ a ∧ a < start + len ∧ Refusal a e := by
  induction len with
  | zero => intro start h; cases h
  | succ len ih =>
    intro start h
    unfold checkWritable at h
    cases hs : m.serving start with
    | error e' =>
      rw [hs] at h
      cases h
      exact ⟨start, by omega, by omega, .inl (missing_of_serving hn hs)⟩
    | ok p =>
      obtain ⟨id, b⟩ := p
      rw [hs] at h
      simp only [ok_bind] at h
      cases hf : b.isFont with
      | true =>
        rw [hf] at h
        cases h
        exact ⟨start, by omega, by omega, .inr rfl⟩
      | false =>
        rw [hf] at h
        obtain ⟨a, lo, hi, hr⟩ := ih h
        exact ⟨a, by omega, by omega, hr⟩

/-! ## Blocks of bytes -/

theorem checkWritable_iff {start : Int} {len : Nat} : m.checkWritable start len = .ok () ↔
    ∀ a, start ≤ a → a < start + len → m.writable a = true := by
  rw [checkWritable_eq_ok]
  constructor
  · intro h a lo hi
    have hk := h (a - start).toNat (by omega)
    rw [show start + ((a - start).toNat : Int) = a by omega] at hk
    exact writable_eq_true.mpr hk
  · intro h k hk
    exact writable_eq_true.mp (h (start + k) (by omega) (by omega))

theorem checkRange_eq_error (hn : m.capacity = .ok n) {start : Int} {len : Nat} {e : MemoryFault}
    (h : m.checkRange start len = .error e) : e = .blockOutside start len n := by
  obtain ⟨s, hs, rfl⟩ := capacity_eq_ok.mp hn
  unfold checkRange allocated at h
  rw [hs] at h
  simp only [ok_bind, throw_eq_error, if_neg (show ¬ (len : Int) < 0 by omega)] at h
  split at h
  · cases h
    rfl
  · cases h

theorem loadBlock_of_storeBlock (hm : m.Covered) {start : Int} {data : List Int}
    (h : storeBlock start data m = .ok () t) :
    t.loadBlock start data.length = .ok (data.map byteOf) := by
  obtain ⟨hr, _⟩ := (storeBlock_eq_ok hm).mp ⟨t, h⟩
  have hrange : t.checkRange start data.length = .ok () := by
    rw [checkRange_eq_ok] at hr ⊢
    rwa [space_of_layout (layout_of_storeBlock h)]
  have hbytes (k : Nat) (b : UInt8) (hb : (data.map byteOf)[k]? = some b) :
      t.load8 (start + k) = .ok b := by
    rw [List.getElem?_map, Option.map_eq_some_iff] at hb
    obtain ⟨v, hv, rfl⟩ := hb
    have hk := (List.getElem?_eq_some_iff.mp hv).1
    rw [load8_storeBlock hm h, if_pos (by omega), show (start + k - start).toNat = k by omega,
      List.getD_eq_getElem?_getD, hv, Option.getD_some]
  have hread := loadFrom_of_load8 (data.map byteOf) hbytes
  rw [List.length_map] at hread
  simp only [loadBlock, hrange, ok_bind, Int.toNat_natCast, hread]

/-- A block of bytes is stored exactly if it lies in the space and every address of it takes bytes.
Then it is read as it was given, all other addresses read as before, and of the blocks only the
bytes that are served in the range are different. If it is refused nothing changes. -/
theorem storeBlock_all_or_nothing (hm : m.Built) (hn : m.capacity = .ok n) (start : Int)
    (data : List Int) :
    ((∃ t, storeBlock start data m = .ok () t) ↔ 0 ≤ start ∧ start + data.length ≤ n ∧
      ∀ a, start ≤ a → a < start + data.length → m.writable a = true) ∧
    (∀ t, storeBlock start data m = .ok () t → t.layout = m.layout ∧
      t.loadBlock start data.length = .ok (data.map byteOf) ∧
      (∀ a, ¬ (start ≤ a ∧ a < start + data.length) → t.load8 a = m.load8 a) ∧
      ∀ id a, ¬ (start ≤ a ∧ a < start + data.length ∧ m.Serves id a) →
        t.held id a = m.held id a) ∧
    ∀ e t, storeBlock start data m = .error e t → t = m ∧
      (e = .blockOutside start data.length n ∨
        ∃ a, start ≤ a ∧ a < start + data.length ∧ Refusal a e) := by
  have hc := hm.covered
  refine ⟨?_, fun t h => ⟨layout_of_storeBlock h, loadBlock_of_storeBlock hc h, fun a ha => ?_,
    fun id a ha => ?_⟩, fun e t h => ?_⟩
  · rw [storeBlock_eq_ok hc, checkRange_iff hn, checkWritable_iff, and_assoc]
  · rw [load8_storeBlock hc h, if_neg ha]
  · exact held_storeFrom data hc (storeFrom_of_storeBlock h) ha
  · obtain ⟨rfl, hcheck⟩ := storeBlock_eq_error hc h
    exact ⟨rfl, hcheck.imp (checkRange_eq_error hn) (checkWritable_eq_error hn)⟩

theorem built_overlapping : (assemble 8 [0, 1, 2] overlapping).Built := by
  have hpool : overlapping.Built :=
    ((Built.empty.added .ram ⟨0, #[1, 2, 3, 4], by decide⟩).added .font
      ⟨2, #[0xF0, 0x90], by decide⟩).added .ram ⟨6, #[5, 6, 7], by decide⟩
  exact hpool.assemble 8 [0, 1, 2]

/-- Bytes below the font are stored, and what it covers stays; a block that runs into it is
refused. -/
theorem storeBlock_all_or_nothing_overlapping : (assemble 8 [0, 1, 2] overlapping).Built ∧
    (assemble 8 [0, 1, 2] overlapping).capacity = .ok 8 ∧
    (∃ t, storeBlock 0 [263, -1] (assemble 8 [0, 1, 2] overlapping) = .ok () t ∧
      t.loadBlock 0 2 = .ok [7, 255] ∧ t.load8 2 = .ok 0xF0 ∧ t.held 0 2 = some (.ok 3)) ∧
    ∃ e, storeBlock 1 [9, 9] (assemble 8 [0, 1, 2] overlapping) =
      .error e (assemble 8 [0, 1, 2] overlapping) := by
  have hm := built_overlapping
  have hn : (assemble 8 [0, 1, 2] overlapping).capacity = .ok 8 := rfl
  refine ⟨hm, hn, ?_, ?_⟩
  · obtain ⟨hiff, hstored, _⟩ := storeBlock_all_or_nothing hm hn 0 [263, -1]
    have hwritable : ∀ a : Int, 0 ≤ a → a < 0 + ([263, -1] : List Int).length →
        (assemble 8 [0, 1, 2] overlapping).writable a = true := by
      intro a lo hi
      obtain rfl | rfl : a = 0 ∨ a = 1 := by
        simp only [List.length_cons, List.length_nil] at hi
        omega
      · decide
      · decide
    obtain ⟨t, ht⟩ := hiff.mpr ⟨by decide, by decide, hwritable⟩
    obtain ⟨_, hread, hrest, hheld⟩ := hstored t ht
    have hshadowed : ¬ (0 ≤ (2 : Int) ∧ (2 : Int) < 0 + ([263, -1] : List Int).length ∧
        (assemble 8 [0, 1, 2] overlapping).Serves 0 2) := fun h => absurd h.2.1 (by decide)
    refine ⟨t, ht, hread, ?_, ?_⟩
    · rw [hrest 2 (by decide)]
      rfl
    · rw [hheld 0 2 hshadowed]
      rfl
  · obtain ⟨hiff, _, hrefused⟩ := storeBlock_all_or_nothing hm hn 1 [9, 9]
    cases h : storeBlock 1 [9, 9] (assemble 8 [0, 1, 2] overlapping) with
    | ok _ t => exact absurd ((hiff.mp ⟨t, h⟩).2.2 2 (by decide) (by decide)) (by decide)
    | error e t =>
      obtain ⟨rfl, _⟩ := hrefused e t h
      exact ⟨e, rfl⟩

end Bus

end Chip8
