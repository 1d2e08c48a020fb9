import Chip8.Proofs.Memory.AllOrNothing

/-! # Words that are stored

A word is stored high byte first, and nothing is checked in front. Where both addresses take bytes
the word is read as it was given, and where the first one takes none nothing changes. Where only the
second one takes none the store is refused with the high byte in place, so unless that byte was there
before the refusal leaves a changed memory. -/

namespace Chip8

/-- High byte and low byte make the number up to what sixteen bits hold. -/
theorem wordFrom_bytes (v : Int) : wordFrom (byteOf (v / 256)) (byteOf v) = (v % 65536).toNat := by
  rw [wordFrom, toNat_byteOf, toNat_byteOf]
  omega

theorem setIfInBounds_self {α : Type} {xs : Array α} {k : Nat} {x : α} (h : xs[k]? = some x) :
    xs.setIfInBounds k x = xs := by
  obtain ⟨hk, rfl⟩ := Array.getElem?_eq_some_iff.mp h
  rw [Array.setIfInBounds, dif_pos hk, Array.set_getElem_self]

theorem Region.put_self {r : Region} {k : Nat} {b : UInt8} (h : r.bytes[k]? = some b) :
    r.put k b = r := by
  simp only [put, setIfInBounds_self h]

namespace Bus

variable {m t : Bus} {n : Nat} {a v : Int}

theorem setBlock_self {id : Nat} {b : Block} (h : m.blocks[id]? = some b) :
    m.setBlock id b = m := by
  simp only [setBlock, setIfInBounds_self h]

/-- A store changes nothing exactly if the byte was there before. -/
theorem store8_eq_self (hm : m.Covered) (h : store8 a v m = .ok () t) :
    t = m ↔ m.load8 a = .ok (byteOf v) := by
  constructor
  · intro he
    have hread := load8_store8 hm h a
    rwa [if_pos rfl, he] at hread
  · intro hread
    obtain ⟨id, k, r, hs, lo, hi, rfl⟩ := store8_inv hm h
    change a ≤ r.start + r.bytes.size - 1 at hi
    have hk : (a - r.start).toNat < r.bytes.size := by omega
    rw [load8_of_serving hm hs, Except.ok.injEq] at hread
    have hget : r.bytes[(a - r.start).toNat]? = some (byteOf v) := by
      rw [Array.getElem?_eq_getElem hk, Array.getElem_eq_getD 0, hread]
    rw [Region.put_self hget]
    exact setBlock_self (getElem?_of_serving hs)

/-! ## The three ways of a word -/

theorem store16_of_writable (hm : m.Covered) (v : Int) (h : m.writable a = true)
    (h' : m.writable (a + 1) = true) : ∃ t, store16 a v m = .ok () t ∧
      t.load16 a = .ok (v % 65536).toNat := by
  obtain ⟨u, hu, hhigh⟩ := store8_of_writable hm (byteOf (v / 256)).toNat h
  have hcovered := hm.of_layout hhigh.layout
  rw [← writable_of_layout hhigh.layout] at h'
  obtain ⟨t, ht, _⟩ := store8_of_writable hcovered (byteOf v).toNat h'
  have hfirst : t.load8 a = .ok (byteOf (v / 256)) := by
    rw [load8_store8 hcovered ht, if_neg (by omega), load8_store8 hm hu, if_pos rfl, byteOf_toNat]
  have hsecond : t.load8 (a + 1) = .ok (byteOf v) := by
    rw [load8_store8 hcovered ht, if_pos rfl, byteOf_toNat]
  refine ⟨t, bind_eq_ok.mpr ⟨(), u, hu, ht⟩, ?_⟩
  simp only [load16, hfirst, hsecond, ok_bind, pure_eq_ok, wordFrom_bytes]

theorem store16_of_not_writable (hn : m.capacity = .ok n) (v : Int) (h : m.writable a = false) :
    ∃ e, Refusal a e ∧ store16 a v m = .error e m := by
  obtain ⟨e, hwhy, he⟩ := store8_refusal hn (byteOf (v / 256)).toNat h
  exact ⟨e, hwhy, bind_eq_error.mpr (.inl he)⟩

/-- The high byte is stored before the low byte is refused. -/
theorem store16_torn (hm : m.Covered) (hn : m.capacity = .ok n) (v : Int) (h : m.writable a = true)
    (h' : m.writable (a + 1) = false) : ∃ e t, Refusal (a + 1) e ∧ store16 a v m = .error e t ∧
      (∀ a', t.load8 a' = if a' = a then .ok (byteOf (v / 256)) else m.load8 a') ∧
      (t = m ↔ m.load8 a = .ok (byteOf (v / 256))) := by
  obtain ⟨t, ht, hhigh⟩ := store8_of_writable hm (byteOf (v / 256)).toNat h
  rw [← writable_of_layout hhigh.layout] at h'
  have hcapacity : t.capacity = .ok n := by
    rw [capacity_eq_ok] at hn ⊢
    rwa [space_of_layout hhigh.layout]
  obtain ⟨e, hwhy, he⟩ := store8_refusal hcapacity (byteOf v).toNat h'
  have hread := load8_store8 hm ht
  have hself := store8_eq_self hm ht
  rw [byteOf_toNat] at hself
  simp only [byteOf_toNat] at hread
  exact ⟨e, t, hwhy, bind_eq_error.mpr (.inr ⟨(), t, ht, he⟩), hread, hself⟩

/-- A word is stored as a whole or refused without a trace, unless its address takes bytes and the
next one does not: then the store is refused and leaves the high byte, which can be seen if another
byte was there. -/
theorem store16_whole_iff (hm : m.Built) (hn : m.capacity = .ok n) (a v : Int) :
    (((∃ t, store16 a v m = .ok () t ∧ t.load16 a = .ok (v % 65536).toNat) ∨
      ∃ e, (Refusal a e ∨ Refusal (a + 1) e) ∧ store16 a v m = .error e m) ↔
    (m.writable a = true → m.writable (a + 1) = false → m.load8 a = .ok (byteOf (v / 256)))) ∧
    (m.writable a = true → m.writable (a + 1) = false → ∃ e t, Refusal (a + 1) e ∧
      store16 a v m = .error e t ∧
      ∀ a', t.load8 a' = if a' = a then .ok (byteOf (v / 256)) else m.load8 a') := by
  have hc := hm.covered
  refine ⟨?_, fun h h' => ?_⟩
  · cases h : m.writable a with
    | false =>
      obtain ⟨e, hwhy, he⟩ := store16_of_not_writable hn v h
      refine iff_of_true (.inr ⟨e, .inl hwhy, he⟩) fun hw => ?_
      cases hw
    | true =>
      cases h' : m.writable (a + 1) with
      | true =>
        refine iff_of_true (.inl (store16_of_writable hc v h h')) fun _ hw => ?_
        cases hw
      | false =>
        obtain ⟨e, t, hwhy, he, _, hself⟩ := store16_torn hc hn v h h'
        constructor
        · intro hwhole _ _
          rcases hwhole with ⟨u, hu, _⟩ | ⟨e', _, he'⟩
          · cases he.symm.trans hu
          · cases he.symm.trans he'
            exact hself.mp rfl
        · intro hsame
          obtain rfl := hself.mpr (hsame rfl rfl)
          exact .inr ⟨e, .inr hwhy, he⟩
  · obtain ⟨e, t, hwhy, he, hread, _⟩ := store16_torn hc hn v h h'
    exact ⟨e, t, hwhy, he, hread⟩

/-- Below the font a word is stored. At its lower edge words are refused, one whose high byte was
there before without a trace and one whose high byte is another with the high byte in place. -/
theorem store16_whole_iff_overlapping : (assemble 8 [0, 1, 2] overlapping).Built ∧
    (assemble 8 [0, 1, 2] overlapping).capacity = .ok 8 ∧
    (∃ t, store16 0 (-2) (assemble 8 [0, 1, 2] overlapping) = .ok () t ∧
      t.load16 0 = .ok 65534) ∧
    (∃ e, store16 1 0x02CD (assemble 8 [0, 1, 2] overlapping) =
      .error e (assemble 8 [0, 1, 2] overlapping)) ∧
    ∃ e t, store16 1 0xABCD (assemble 8 [0, 1, 2] overlapping) = .error e t ∧
      t.load8 1 = .ok 0xAB := by
  have hm := built_overlapping
  have hn : (assemble 8 [0, 1, 2] overlapping).capacity = .ok 8 := rfl
  refine ⟨hm, hn, ?_, ?_, ?_⟩
  · have hnext : (assemble 8 [0, 1, 2] overlapping).writable (0 + 1) ≠ false := by decide
    have hwhole := (store16_whole_iff hm hn 0 (-2)).1.mpr fun _ h => absurd h hnext
    obtain h | ⟨e, _, h⟩ := hwhole
    · exact h
    · cases h
  · have hwhole := (store16_whole_iff hm hn 1 0x02CD).1.mpr fun _ _ => rfl
    obtain ⟨t, h, _⟩ | ⟨e, _, h⟩ := hwhole
    · cases h
    · exact ⟨e, h⟩
  · obtain ⟨e, t, _, h, hread⟩ := (store16_whole_iff hm hn 1 0xABCD).2 (by decide) (by decide)
    exact ⟨e, t, h, hread 1⟩

/-- Sixteen addresses of blank memory. -/
def blankRow : Bus where
  blocks := #[.region .ram ⟨0, Array.replicate 16 0, by decide⟩]

/-- Across the last address a word is refused, but its high byte is stored. -/
theorem store16_torn_blankRow : (assemble 16 [0] blankRow).Built ∧
    (∃ t, store16 15 0x1234 (assemble 16 [0] blankRow) = .error (.outsideSpace 16 16) t ∧
      (assemble 16 [0] blankRow).load8 15 = .ok 0 ∧ t.load8 15 = .ok 0x12) ∧
    ¬ ((∃ t, store16 15 0x1234 (assemble 16 [0] blankRow) = .ok () t ∧
        t.load16 15 = .ok 0x1234) ∨
      ∃ e, store16 15 0x1234 (assemble 16 [0] blankRow) = .error e (assemble 16 [0] blankRow)) := by
  have hpool : blankRow.Built := Built.empty.added .ram ⟨0, Array.replicate 16 0, by decide⟩
  have hbefore : (assemble 16 [0] blankRow).load8 15 = .ok 0 := rfl
  obtain ⟨t, ht, hafter⟩ : ∃ t, store16 15 0x1234 (assemble 16 [0] blankRow) =
      .error (.outsideSpace 16 16) t ∧ t.load8 15 = .ok 0x12 := ⟨_, rfl, rfl⟩
  refine ⟨hpool.assemble 16 [0], ⟨t, ht, hbefore, hafter⟩, ?_⟩
  rintro (⟨u, hu, _⟩ | ⟨e, he⟩)
  · cases ht.symm.trans hu
  · cases ht.symm.trans he
    cases hbefore.symm.trans hafter

end Bus

end Chip8
