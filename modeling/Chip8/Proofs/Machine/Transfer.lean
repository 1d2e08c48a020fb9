import Chip8.Proofs.Machine.Bounds
import Chip8.Proofs.Machine.WriteSet

/-! # Registers in memory

`FX55` puts the registers `V0` to `Vx` into memory, byte by byte from the index on, and `FX65` takes
them from there. One undoes the other from the same index: what was put there comes back, and to put
back what was taken changes nothing. `FX33` puts the decimal digits of `Vx` there, so that `F265`
takes them into three registers. The laws are those of the routines. They ask nothing of the bytes
that are overwritten, which may be those of the program. -/

namespace Chip8

namespace Machine

def dumpWord (x : Nibble) : Nat :=
  Operands.word ⟨nibbleOf 0xF, x, nibbleOf 5, nibbleOf 5⟩

def restoreWord (x : Nibble) : Nat :=
  Operands.word ⟨nibbleOf 0xF, x, nibbleOf 6, nibbleOf 5⟩

def decimalWord (x : Nibble) : Nat :=
  Operands.word ⟨nibbleOf 0xF, x, nibbleOf 3, nibbleOf 3⟩

/-- The index behind a transfer of `V0` to `Vx`. -/
def indexBehind (m : Machine) (x : Nibble) : Int :=
  if m.advances then (m.cpu.i + (x.val + 1)) % 65536 else m.cpu.i

/-- The second machine is the first with `V0` to `Vx` put into memory. -/
structure Dumps (x : Nibble) (m t : Machine) : Prop where
  bytes : ∀ k ≤ x, t.bus.load8 (m.cpu.i + k.val) = .ok (m.cpu.v.get k)
  others : ∀ a, (∀ k ≤ x, a ≠ m.cpu.i + k.val) → t.bus.load8 a = m.bus.load8 a
  index : t.cpu.i = m.indexBehind x
  rest : t = { m with bus := t.bus, cpu := { m.cpu with i := t.cpu.i } }

/-- The second machine is the first with `V0` to `Vx` taken from memory. -/
structure Restores (x : Nibble) (m t : Machine) : Prop where
  bytes : ∀ k ≤ x, m.bus.load8 (m.cpu.i + k.val) = .ok (t.cpu.v.get k)
  others : ∀ k, x < k → t.cpu.v.get k = m.cpu.v.get k
  index : t.cpu.i = m.indexBehind x
  rest : t = { m with cpu := { m.cpu with v := t.cpu.v, i := t.cpu.i } }

/-- The second machine is the first with three digits, which spell `Vx`, put into memory. -/
structure Spells (x : Nibble) (hundreds tens ones : UInt8) (m t : Machine) : Prop where
  digits : hundreds.toNat ≤ 9 ∧ tens.toNat ≤ 9 ∧ ones.toNat ≤ 9
  value : 100 * hundreds.toNat + 10 * tens.toNat + ones.toNat = (m.cpu.v.get x).toNat
  bytes : t.bus.load8 m.cpu.i = .ok hundreds ∧ t.bus.load8 (m.cpu.i + 1) = .ok tens ∧
    t.bus.load8 (m.cpu.i + 2) = .ok ones
  others : ∀ a, a < m.cpu.i ∨ m.cpu.i + 2 < a → t.bus.load8 a = m.bus.load8 a
  rest : t = { m with bus := t.bus }

variable {m : Machine} {x : Nibble} (pc : Int)

theorem getD_registersTo (m : Machine) {x k : Nibble} (hk : k ≤ x) :
    ((m.registersTo x).map fun b => (b.toNat : Int)).getD k.val 0 = (m.cpu.v.get k).toNat := by
  have hlt : k.val < x.val + 1 := Nat.lt_succ_of_le hk
  have hget : (m.registersTo x)[k.val]? = some (m.cpu.v.get k) := by
    rw [registersTo, List.getElem?_take, if_pos hlt, Vector.getElem?_toList,
      Vector.getElem?_eq_getElem k.isLt]
    rfl
  rw [List.getD_eq_getElem?_getD, List.getElem?_map, hget]
  rfl

/-! ## One transfer -/

theorem run_dumps (hm : m.bus.Standard) (lo : 0x50 ≤ m.cpu.i) (hi : m.cpu.i + x.val ≤ 0xFFF) :
    ∃ t, Routine.storeRegisters.run pc (dumpWord x) m = .ok () t ∧ Dumps x m t := by
  have hx : (Operands.ofWord (dumpWord x)).x = x := by rw [dumpWord, Operands.ofWord_word]
  obtain ⟨hlen, hdata⟩ := m.length_map_registersTo x fun b => (b.toNat : Int)
  obtain ⟨b, hb⟩ := (hm.storeBlock_eq_ok hdata).mpr ⟨lo, by rw [hlen]; omega⟩
  have hload := Bus.load8_storeBlock hm.covered hb
  rw [hlen] at hload
  refine ⟨_, Routine.run_storeRegisters.mpr ⟨b, by rw [hx]; exact hb, advance_eq _ _⟩,
    ?_, ?_, ?_, ?_⟩
  · intro k hk
    have hle : k.val ≤ x.val := hk
    change b.load8 _ = _
    rw [hload, if_pos (by omega), show (m.cpu.i + k.val - m.cpu.i).toNat = k.val by omega,
      getD_registersTo m hk, byteOf_toNat]
  · intro a ha
    refine (hload a).trans (if_neg fun hin => ?_)
    have hlt : (a - m.cpu.i).toNat < 16 := by
      have := x.isLt
      omega
    exact ha ⟨(a - m.cpu.i).toNat, hlt⟩ (show (a - m.cpu.i).toNat ≤ x.val by omega)
      (show a = m.cpu.i + (a - m.cpu.i).toNat by omega)
  · rw [hx]
    rfl
  · rfl

theorem run_restores (hm : m.bus.Standard) (lo : 0 ≤ m.cpu.i) (hi : m.cpu.i + x.val ≤ 0xFFF) :
    ∃ t, Routine.loadRegisters.run pc (restoreWord x) m = .ok () t ∧ Restores x m t := by
  have hx : (Operands.ofWord (restoreWord x)).x = x := by rw [restoreWord, Operands.ofWord_word]
  obtain ⟨bs, hbs⟩ := (hm.loadBlock_eq_ok (n := x.val + 1)).mpr ⟨lo, by omega⟩
  have hlen := Bus.length_loadBlock hbs
  refine ⟨_, Routine.run_loadRegisters.mpr ⟨bs, by rw [hx]; exact hbs, advance_eq _ _⟩,
    ?_, ?_, ?_, ?_⟩
  · intro k hk
    have hle : k.val ≤ x.val := hk
    have hget : bs[k.val]? = some bs[k.val] := List.getElem?_eq_getElem (by omega)
    have hfilled : (fillRegisters 0 bs m.cpu.v).get k = bs[k.val] := by
      rw [Routine.get_fillRegisters_eq, if_pos (Nat.zero_le _), Nat.sub_zero,
        List.getD_eq_getElem?_getD, hget, Option.getD_some]
    change _ = Except.ok ((fillRegisters 0 bs m.cpu.v).get k)
    rw [hfilled]
    exact ((Bus.getElem?_loadBlock hbs k.val _).mp hget).2
  · intro k hk
    have hlt : x.val < k.val := hk
    exact Routine.get_fillRegisters (by omega)
  · rw [hx]
    rfl
  · rfl

/-- The digits are bytes, so they are stored as they are. -/
theorem exists_digits (b : UInt8) : ∃ hundreds tens ones : UInt8,
    decimalDigits b = [(hundreds.toNat : Int), (tens.toNat : Int), (ones.toNat : Int)] ∧
      (hundreds.toNat ≤ 9 ∧ tens.toNat ≤ 9 ∧ ones.toNat ≤ 9) ∧
      100 * hundreds.toNat + 10 * tens.toNat + ones.toNat = b.toNat := by
  have hb := b.toNat_lt
  have digit {n : Nat} (hn : n < 256) : (byteOf n).toNat = n := by
    rw [toNat_byteOf]
    omega
  refine ⟨byteOf (b.toNat / 100 : Nat), byteOf (b.toNat / 10 % 10 : Nat),
    byteOf (b.toNat % 10 : Nat), ?_, ?_, ?_⟩
  · rw [digit (by omega), digit (by omega), digit (by omega)]
    rfl
  · rw [digit (by omega), digit (by omega), digit (by omega)]
    omega
  · rw [digit (by omega), digit (by omega), digit (by omega)]
    omega

theorem run_spells (hm : m.bus.Standard) (lo : 0x50 ≤ m.cpu.i) (hi : m.cpu.i ≤ 0xFFD) :
    ∃ hundreds tens ones t, Routine.storeDecimal.run pc (decimalWord x) m = .ok () t ∧
      Spells x hundreds tens ones m t := by
  have hx : (Operands.ofWord (decimalWord x)).x = x := by rw [decimalWord, Operands.ofWord_word]
  obtain ⟨hundreds, tens, ones, hdata, hdigits, hvalue⟩ := exists_digits (m.cpu.v.get x)
  obtain ⟨b, hb⟩ : ∃ b, Bus.storeBlock m.cpu.i (decimalDigits (m.cpu.v.get x)) m.bus = .ok () b :=
    (hm.storeBlock_eq_ok (List.cons_ne_nil _ _)).mpr ⟨lo, show m.cpu.i + 3 ≤ 0x1000 by omega⟩
  have hload := Bus.load8_storeBlock hm.covered hb
  rw [hdata] at hload
  have stored {k : Nat} {d : UInt8} (hk : k < 3)
      (hd : [(hundreds.toNat : Int), (tens.toNat : Int), (ones.toNat : Int)].getD k 0 = d.toNat) :
      b.load8 (m.cpu.i + k) = .ok d := by
    rw [hload, if_pos ⟨by omega, show m.cpu.i + k < m.cpu.i + 3 by omega⟩,
      show (m.cpu.i + k - m.cpu.i).toNat = k by omega, hd, byteOf_toNat]
  have hfirst := stored (k := 0) (by decide) rfl
  rw [Int.natCast_zero, Int.add_zero] at hfirst
  refine ⟨hundreds, tens, ones, _, Routine.run_storeDecimal.mpr ⟨b, by rw [hx]; exact hb, rfl⟩,
    hdigits, hvalue, ⟨hfirst, stored (k := 1) (by decide) rfl, stored (k := 2) (by decide) rfl⟩,
    fun a ha => ?_, rfl⟩
  refine (hload a).trans (if_neg ?_)
  change ¬ (m.cpu.i ≤ a ∧ a < m.cpu.i + 3)
  omega

/-! ## One transfer behind the other -/

/-- From the same memory and the same index the registers come back. -/
theorem Dumps.restores {t u : Machine} (h : Dumps x m t) (ht : t.bus.Standard)
    (hbus : u.bus = t.bus) (hindex : u.cpu.i = m.cpu.i) (lo : 0 ≤ m.cpu.i)
    (hi : m.cpu.i + x.val ≤ 0xFFF) :
    ∃ s, Routine.loadRegisters.run pc (restoreWord x) u = .ok () s ∧ Restores x u s ∧
      ∀ k ≤ x, s.cpu.v.get k = m.cpu.v.get k := by
  obtain ⟨s, hs, hr⟩ := run_restores (m := u) (x := x) pc (hbus ▸ ht) (by omega) (by omega)
  refine ⟨s, hs, hr, fun k hk => ?_⟩
  have hsame := hr.bytes k hk
  rw [hbus, hindex, h.bytes k hk] at hsame
  exact (Except.ok.inj hsame).symm

/-- To put back what was taken, at the same index, changes no byte. -/
theorem Restores.dumps {s u : Machine} (h : Restores x m s) (hm : m.bus.Standard)
    (hbus : u.bus = m.bus) (hv : u.cpu.v = s.cpu.v) (hindex : u.cpu.i = m.cpu.i)
    (lo : 0x50 ≤ m.cpu.i) (hi : m.cpu.i + x.val ≤ 0xFFF) :
    ∃ t, Routine.storeRegisters.run pc (dumpWord x) u = .ok () t ∧ Dumps x u t ∧
      ∀ a, t.bus.load8 a = m.bus.load8 a := by
  obtain ⟨t, ht, hd⟩ := run_dumps (m := u) (x := x) pc (hbus ▸ hm) (by omega) (by omega)
  refine ⟨t, ht, hd, fun a => ?_⟩
  by_cases hin : ∃ k ≤ x, a = m.cpu.i + k.val
  · obtain ⟨k, hk, rfl⟩ := hin
    have hbyte := hd.bytes k hk
    rw [hindex, hv] at hbyte
    rw [hbyte, h.bytes k hk]
  · have hout : ∀ k ≤ x, a ≠ u.cpu.i + k.val := fun k hk he => hin ⟨k, hk, by rw [he, hindex]⟩
    rw [hd.others a hout, hbus]

/-- What was put into memory comes back, what was taken can be put back, and digits are taken as
they were put: from the same index, whatever else of the machine is different by then. -/
theorem transfers_round_trip (hm : m.Wired) (x : Nibble) (pc pc' : Int) (lo : 0x50 ≤ m.cpu.i) :
    (m.cpu.i + x.val ≤ 0xFFF →
      (∃ t, Routine.storeRegisters.run pc (dumpWord x) m = .ok () t ∧ Dumps x m t ∧
        ∀ u, u.bus = t.bus → u.cpu.i = m.cpu.i →
          ∃ s, Routine.loadRegisters.run pc' (restoreWord x) u = .ok () s ∧ Restores x u s ∧
            ∀ k ≤ x, s.cpu.v.get k = m.cpu.v.get k) ∧
      (∃ s, Routine.loadRegisters.run pc (restoreWord x) m = .ok () s ∧ Restores x m s ∧
        ∀ u, u.bus = s.bus → u.cpu.v = s.cpu.v → u.cpu.i = m.cpu.i →
          ∃ t, Routine.storeRegisters.run pc' (dumpWord x) u = .ok () t ∧ Dumps x u t ∧
            ∀ a, t.bus.load8 a = m.bus.load8 a)) ∧
    (m.cpu.i ≤ 0xFFD →
      ∃ hundreds tens ones t, Routine.storeDecimal.run pc (decimalWord x) m = .ok () t ∧
        Spells x hundreds tens ones m t ∧
        ∀ u, u.bus = t.bus → u.cpu.i = m.cpu.i →
          ∃ s, Routine.loadRegisters.run pc' (restoreWord 2) u = .ok () s ∧ Restores 2 u s ∧
            s.cpu.v.get 0 = hundreds ∧ s.cpu.v.get 1 = tens ∧ s.cpu.v.get 2 = ones) := by
  have hs := hm.standard
  refine ⟨fun hi => ⟨?_, ?_⟩, fun hi => ?_⟩
  · obtain ⟨t, ht, hd⟩ := run_dumps pc hs lo hi
    have hstandard := hs.of_layout (Routine.run_stored ht).layout
    exact ⟨t, ht, hd, fun u hbus hindex => hd.restores pc' hstandard hbus hindex (by omega) hi⟩
  · obtain ⟨s, hrun, hr⟩ := run_restores pc hs (by omega) hi
    have hbus : s.bus = m.bus := by rw [hr.rest]
    exact ⟨s, hrun, hr, fun u hu hv hindex => hr.dumps pc' hs (hu.trans hbus) hv hindex lo hi⟩
  · obtain ⟨hundreds, tens, ones, t, ht, hd⟩ := run_spells (x := x) pc hs lo hi
    have hstandard := hs.of_layout (Routine.run_stored ht).layout
    refine ⟨hundreds, tens, ones, t, ht, hd, fun u hbus hindex => ?_⟩
    obtain ⟨s, hrun, hr⟩ := run_restores (m := u) (x := 2) pc' (hbus ▸ hstandard) (by omega)
      (show u.cpu.i + 2 ≤ 0xFFF by omega)
    have taken {k : Nibble} {b : UInt8} (hk : k ≤ 2) (hb : t.bus.load8 (m.cpu.i + k.val) = .ok b) :
        s.cpu.v.get k = b := by
      have hbyte := hr.bytes k hk
      rw [hbus, hindex, hb] at hbyte
      exact (Except.ok.inj hbyte).symm
    obtain ⟨h0, h1, h2⟩ := hd.bytes
    rw [← Int.add_zero m.cpu.i] at h0
    exact ⟨s, hrun, hr, taken (by decide) h0, taken (by decide) h1, taken (by decide) h2⟩

/-- A machine with 205 in `V1` and the index where programs begin, which block transfers move. -/
def holding : Machine :=
  { bare with
    advances := true
    cpu := { v := setAt (Vector.replicate 16 0) (nibbleOf 1) 205, i := 0x200 } }

theorem transfers_round_trip_holding : holding.Wired ∧ 0x50 ≤ holding.cpu.i ∧
    (∃ t, Routine.storeRegisters.run 0x200 (dumpWord 1) holding = .ok () t ∧
      t.bus.load8 0x201 = .ok 205 ∧ t.cpu.i = 0x202) ∧
    ∃ t s, Routine.storeDecimal.run 0x200 (decimalWord 1) holding = .ok () t ∧
      Routine.loadRegisters.run 0x202 (restoreWord 2) t = .ok () s ∧
      s.cpu.v.get 0 = 2 ∧ s.cpu.v.get 1 = 0 ∧ s.cpu.v.get 2 = 5 := by
  have hm : holding.Wired := ⟨{}, bare, create_bare, rfl⟩
  obtain ⟨hblocks, hdigits⟩ := transfers_round_trip hm 1 0x200 0x202 (by decide)
  obtain ⟨⟨t, ht, hd, _⟩, _⟩ := hblocks (by decide)
  obtain ⟨hundreds, tens, ones, u, hu, hsp, hback⟩ := hdigits (by decide)
  have hindex : u.cpu.i = holding.cpu.i := by rw [hsp.rest]
  obtain ⟨s, hs, _, rfl, rfl, rfl⟩ := hback u rfl hindex
  refine ⟨hm, by decide, ⟨t, ht, hd.bytes 1 (by decide), hd.index⟩, u, s, hu, hs, ?_⟩
  have hvalue : _ = 205 := hsp.value
  obtain ⟨h0, h1, h2⟩ := hsp.digits
  exact ⟨UInt8.toNat_inj.mp (show _ = 2 by omega), UInt8.toNat_inj.mp (show _ = 0 by omega),
    UInt8.toNat_inj.mp (show _ = 5 by omega)⟩

end Machine

end Chip8
