/-! Unbounded integers cut to machine words. A byte, a 16-bit word and a nibble
are remainders, so negative numbers come out in two's complement. Registers, keys
and instruction groups stand in rows of sixteen, one place for each nibble. -/

namespace Chip8

def byteOf (v : Int) : UInt8 := UInt8.ofNat (v % 256).toNat

def wordOf (v : Int) : UInt16 := UInt16.ofNat (v % 65536).toNat

abbrev Nibble := Fin 16

def nibbleOf (v : Int) : Nibble := ⟨(v % 16).toNat, by omega⟩

theorem toNat_byteOf (v : Int) : (byteOf v).toNat = (v % 256).toNat := by
  have h : (v % 256).toNat < 256 := by omega
  simp [byteOf, Nat.mod_eq_of_lt h]

theorem toNat_wordOf (v : Int) : (wordOf v).toNat = (v % 65536).toNat := by
  have h : (v % 65536).toNat < 65536 := by omega
  simp [wordOf, Nat.mod_eq_of_lt h]

theorem byteOf_toNat (b : UInt8) : byteOf b.toNat = b := by
  have h := b.toNat_lt
  apply UInt8.toNat_inj.mp
  rw [toNat_byteOf]
  omega

theorem nibbleOf_val (d : Nibble) : nibbleOf d.val = d := by
  apply Fin.ext
  have h := d.isLt
  simp only [nibbleOf]
  omega

/-- A row of sixteen with one place changed; places are read with `Vector.get`. -/
def setAt {α : Type} (v : Vector α 16) (k : Nibble) (a : α) : Vector α 16 := v.set k.val a k.isLt

@[simp] theorem get_setAt {α : Type} (v : Vector α 16) (k j : Nibble) (a : α) :
    (setAt v k a).get j = if j = k then a else v.get j := by
  change (v.set k.val a k.isLt)[j.val] = _
  rw [Vector.getElem_set]
  by_cases h : j = k
  · rw [if_pos h, if_pos (by rw [h])]
  · rw [if_neg h, if_neg fun e => h (Fin.ext e.symm)]
    rfl

/-- The number spelled by two bytes, the first one the more significant. -/
def wordFrom (high low : UInt8) : Nat := high.toNat * 256 + low.toNat

theorem wordFrom_lt (high low : UInt8) : wordFrom high low < 65536 := by
  have hh := high.toNat_lt
  have hl := low.toNat_lt
  simp only [wordFrom]
  omega

end Chip8
