import Chip8.Proofs.Memory.Map

/-! # Byte by byte

On a bus whose blocks hold the addresses that they serve, a store changes what is read at its
own address and nothing else. So a block store changes what is read in its range and nothing
else, and what is read as a block are the bytes that are read one by one. -/

namespace Chip8

theorem Region.getD_put (r : Region) {k : Nat} (hk : k < r.bytes.size) (b : UInt8) (j : Nat) :
    (r.put k b).bytes.getD j 0 = if j = k then b else r.bytes.getD j 0 := by
  rw [Region.put, Array.getD_eq_getD_getElem?, Array.getD_eq_getD_getElem?,
    Array.getElem?_setIfInBounds]
  by_cases h : k = j
  · subst h
    rw [if_pos rfl, if_pos hk, if_pos rfl, Option.getD_some]
  · rw [if_neg h, if_neg (Ne.symm h)]

theorem Block.store8_inv {b t : Block} {a v : Int} (lo : b.start ≤ a) (hi : a ≤ b.stop)
    (h : b.store8 a v = .ok t) :
    ∃ k r, b = .region k r ∧ t = .region k (r.put (a - r.start).toNat (byteOf v)) := by
  obtain ⟨k, r, rfl⟩ := b.exists_region
  refine ⟨k, r, rfl, ?_⟩
  have ho := Region.offset_eq_ok (r := r) (a := a) lo hi
  cases k with
  | font => cases h
  | ram | mainRam =>
    simp only [Block.store8, Region.store, ho, ok_bind, pure_eq_ok, Except.ok.injEq] at h
    exact h.symm

namespace Bus

theorem serving_setBlock {m : Bus} {id : Nat} {b : Block} (hb : m.blocks[id]? = some b)
    (t : Block) (a : Int) :
    (m.setBlock id t).serving a = (m.serving a).map fun p => if p.1 = id then (id, t) else p := by
  have hlt := (Array.getElem?_eq_some_iff.mp hb).1
  rw [serving_eq, serving_eq, show (m.setBlock id t).space = m.space from rfl]
  cases m.space with
  | none => rfl
  | some s =>
    dsimp only
    split
    · rfl
    · cases s.getD a.toNat none with
      | none => rfl
      | some k =>
        simp only [setBlock, Array.getElem?_setIfInBounds]
        by_cases hk : id = k
        · subst hk
          simp [hlt, Except.map]
        · simp only [if_neg hk]
          cases m.blocks[k]? with
          | none => rfl
          | some c => simp [Except.map, Ne.symm hk]

theorem load8_of_serving_error {m : Bus} {a : Int} {e : MemoryFault} (h : m.serving a = .error e) :
    m.load8 a = .error e := by
  rw [load8, h, error_bind]

variable {m t : Bus}

theorem store8_inv (hm : m.Covered) {a v : Int} (h : store8 a v m = .ok () t) :
    ∃ id k r, m.serving a = .ok (id, .region k r) ∧ r.start ≤ a ∧ a ≤ r.stop ∧
      t = m.setBlock id (.region k (r.put (a - r.start).toNat (byteOf v))) := by
  unfold store8 at h
  cases hs : m.serving a with
  | error e => rw [hs] at h; cases h
  | ok p =>
    obtain ⟨id, b⟩ := p
    obtain ⟨lo, hi⟩ := hm a id b hs
    rw [hs] at h
    cases hb : b.store8 a v with
    | error e => simp only [hb] at h; cases h
    | ok c =>
      simp only [hb] at h
      cases h
      obtain ⟨k, r, rfl, rfl⟩ := Block.store8_inv lo hi hb
      exact ⟨id, k, r, rfl, lo, hi, rfl⟩

theorem load8_store8 (hm : m.Covered) {a v : Int} (h : store8 a v m = .ok () t) (a' : Int) :
    t.load8 a' = if a' = a then .ok (byteOf v) else m.load8 a' := by
  have ht : t.Covered := hm.of_layout (layout_of_store8 h)
  obtain ⟨id, k, r, hs, lo, hi, rfl⟩ := store8_inv hm h
  have hserving := serving_setBlock (getElem?_of_serving hs)
    (.region k (r.put (a - r.start).toNat (byteOf v))) a'
  cases hs' : m.serving a' with
  | error e =>
    have hne : a' ≠ a := by
      intro he
      rw [he, hs] at hs'
      cases hs'
    rw [hs'] at hserving
    rw [if_neg hne, load8_of_serving_error hserving, load8_of_serving_error hs']
  | ok p =>
    obtain ⟨id', b'⟩ := p
    rw [hs'] at hserving
    by_cases hid : id' = id
    · -- the same block serves both addresses, at different places unless they are the same
      subst hid
      obtain rfl := Option.some.inj ((getElem?_of_serving hs').symm.trans (getElem?_of_serving hs))
      obtain ⟨lo', hi'⟩ := hm a' id' _ hs'
      change r.start ≤ a' at lo'
      change a' ≤ r.start + r.bytes.size - 1 at hi'
      change a ≤ r.start + r.bytes.size - 1 at hi
      simp only [Except.map, if_pos] at hserving
      rw [load8_of_serving ht hserving, load8_of_serving hm hs']
      change Except.ok ((r.put _ _).bytes.getD (a' - r.start).toNat 0) = _
      rw [Region.getD_put r (by omega)]
      by_cases he : a' = a
      · rw [if_pos he, if_pos (by rw [he])]
      · rw [if_neg he, if_neg (by omega)]
    · have hne : a' ≠ a := by
        intro he
        rw [he, hs] at hs'
        cases hs'
        exact hid rfl
      simp only [Except.map, if_neg hid] at hserving
      rw [if_neg hne, load8, load8, hserving, hs']

/-- The bytes of the range are those that were given, and all others are as before. -/
theorem load8_storeFrom (data : List Int) : ∀ {start : Int} {m : Bus}, m.Covered →
    storeFrom start data m = .ok () t → ∀ a, t.load8 a =
      if start ≤ a ∧ a < start + data.length then .ok (byteOf (data.getD (a - start).toNat 0))
      else m.load8 a := by
  induction data with
  | nil =>
    intro start m _ h a
    cases h
    rw [if_neg (by rw [List.length_nil]; omega)]
  | cons v vs ih =>
    intro start m hm h a
    obtain ⟨_, u, hu, h⟩ := bind_eq_ok.mp h
    have hu' : u.Covered := hm.of_layout (layout_of_store8 hu)
    rw [ih hu' h, load8_store8 hm hu, List.length_cons]
    by_cases h1 : start + 1 ≤ a ∧ a < start + 1 + vs.length
    · rw [if_pos h1, if_pos (by omega), show (a - start).toNat = (a - (start + 1)).toNat + 1 by omega,
        List.getD_cons_succ]
    · rw [if_neg h1]
      by_cases h2 : a = start
      · subst h2
        rw [if_pos rfl, if_pos (by omega), Int.sub_self, Int.toNat_zero, List.getD_cons_zero]
      · rw [if_neg h2, if_neg (by omega)]

/-- Behind its checks a block store is one store after another. -/
theorem storeFrom_of_storeBlock {start : Int} {data : List Int}
    (h : storeBlock start data m = .ok () t) : storeFrom start data m = .ok () t := by
  unfold storeBlock at h
  split at h
  · cases h
  · split at h
    · cases h
    · exact h

theorem load8_storeBlock (hm : m.Covered) {start : Int} {data : List Int}
    (h : storeBlock start data m = .ok () t) (a : Int) : t.load8 a =
      if start ≤ a ∧ a < start + data.length then .ok (byteOf (data.getD (a - start).toNat 0))
      else m.load8 a :=
  load8_storeFrom data hm (storeFrom_of_storeBlock h) a

/-- With the standard map a block store that goes through changes nothing outside its range,
and nothing in the font. -/
theorem Standard.changed_of_storeBlock (hm : m.Standard) {start : Int} {data : List Int}
    (hd : data ≠ []) (h : storeBlock start data m = .ok () t) {a : Int}
    (hne : t.load8 a ≠ m.load8 a) : 0x50 ≤ a ∧ start ≤ a ∧ a < start + data.length := by
  have hstart := (hm.storeBlock_eq_ok hd).mp ⟨t, h⟩
  rw [load8_storeBlock hm.covered h] at hne
  by_cases ha : start ≤ a ∧ a < start + data.length
  · exact ⟨by omega, ha⟩
  · exact absurd (if_neg ha) hne

/-! ## Blocks that are read -/

theorem load8_of_loadFrom {n : Nat} : ∀ {start : Int} {bs : List UInt8}, m.loadFrom start n = .ok bs →
    ∀ (k : Nat) (b : UInt8), bs[k]? = some b → m.load8 (start + k) = .ok b := by
  induction n with
  | zero =>
    intro start bs h k b hb
    cases h
    cases hb
  | succ n ih =>
    intro start bs h k b hb
    obtain ⟨c, hc, h⟩ := except_bind_eq_ok.mp h
    obtain ⟨cs, hcs, h⟩ := except_bind_eq_ok.mp h
    cases h
    cases k with
    | zero =>
      cases hb
      rw [Int.natCast_zero, Int.add_zero]
      exact hc
    | succ k =>
      rw [show start + ((k + 1 : Nat) : Int) = start + 1 + k by omega]
      exact ih hcs k b hb

theorem length_loadBlock {start : Int} {n : Nat} {bs : List UInt8}
    (h : m.loadBlock start n = .ok bs) : bs.length = n := by
  obtain ⟨_, _, h⟩ := except_bind_eq_ok.mp h
  exact length_loadFrom h

/-- A block that is read are the bytes of its range. -/
theorem getElem?_loadBlock {start : Int} {n : Nat} {bs : List UInt8}
    (h : m.loadBlock start n = .ok bs) (k : Nat) (b : UInt8) :
    bs[k]? = some b ↔ k < n ∧ m.load8 (start + k) = .ok b := by
  have hlen := length_loadBlock h
  obtain ⟨_, _, h⟩ := except_bind_eq_ok.mp h
  constructor
  · intro hb
    have hk := (List.getElem?_eq_some_iff.mp hb).1
    exact ⟨by omega, load8_of_loadFrom h k b hb⟩
  · intro hb
    obtain ⟨hk, hb⟩ := hb
    have hget : bs[k]? = some bs[k] := List.getElem?_eq_getElem (by omega)
    rw [hget]
    exact congrArg some (Except.ok.inj ((load8_of_loadFrom h k _ hget).symm.trans hb))

end Bus

end Chip8
