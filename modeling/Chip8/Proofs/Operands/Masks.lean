import Chip8.Proofs.Operands
import Mathlib.Data.Int.Bitwise
import Mathlib.Data.List.Induction

/-! # Fields cut out by masks

Integers have no width of their own, and a negative one has ones without end in front. A mask lets
through as many of their bits as it has itself, so what it cuts out is decided by a remainder, and
a shift is a product or a quotient. Fields that are cut out by masks and put together by shifts are
therefore the digits of a word to the base sixteen and the remainders of it, whatever its sign and
its size. -/

namespace Chip8

/-! ## Masks and shifts -/

/-- Of an integer no more bits count than the mask has. -/
theorem land_natCast {k m : Nat} (hm : m < 2 ^ k) (w : Int) :
    Int.land w m = ((w % (2 ^ k : Nat)).toNat &&& m : Nat) := by
  have hpos := Nat.two_pow_pos k
  cases w with
  | ofNat a =>
    have ha : ((a : Int) % (2 ^ k : Nat)).toNat = a % 2 ^ k := by
      rw [← Int.natCast_emod, Int.toNat_natCast]
    change ((a &&& m : Nat) : Int) = _
    rw [Int.ofNat_eq_natCast, ha, ← Nat.mod_eq_of_lt (Nat.and_lt_two_pow a hm),
      Nat.and_mod_two_pow, Nat.mod_eq_of_lt hm]
  | negSucc a =>
    -- the low bits of a negative number are those of its complement, turned around
    have ha : (Int.negSucc a % (2 ^ k : Nat)).toNat = 2 ^ k - (a % 2 ^ k + 1) := by
      have hlt := Nat.mod_lt a hpos
      rw [Int.negSucc_emod _ (Int.natCast_pos.mpr hpos)]
      omega
    change ((Nat.ldiff m a : Nat) : Int) = _
    rw [ha]
    congr 1
    apply Nat.eq_of_testBit_eq
    intro j
    rw [Nat.testBit_ldiff, Nat.testBit_and, Nat.testBit_two_pow_sub_succ (Nat.mod_lt a hpos),
      Nat.testBit_mod_two_pow]
    by_cases hj : j < k
    · simp [hj, Bool.and_comm]
    · have hout : m.testBit j = false :=
        Nat.testBit_lt_two_pow (hm.trans_le (Nat.pow_le_pow_right (by decide) (by omega)))
      simp [hout]

/-- A mask of ones only takes the remainder. -/
theorem land_ones (k : Nat) (w : Int) : Int.land w (2 ^ k - 1 : Nat) = w % (2 ^ k : Nat) := by
  have hpos := Nat.two_pow_pos k
  have hrest : 0 ≤ w % (2 ^ k : Nat) := Int.emod_nonneg w (by omega)
  rw [land_natCast (Nat.sub_one_lt (Nat.ne_of_gt hpos)), Nat.and_two_pow_sub_one_eq_mod,
    Int.natCast_emod, Int.toNat_of_nonneg hrest, Int.emod_emod_of_dvd w (Int.dvd_refl _)]

theorem land_nibble (w : Int) : Int.land w 0xF = w % 16 := land_ones 4 w

theorem land_byte (w : Int) : Int.land w 0xFF = w % 256 := land_ones 8 w

/-- The upper nibble of a byte, moved down. -/
theorem land_upper (w : Int) : Int.land w 0xF0 >>> (4 : Nat) = w / 16 % 16 := by
  have hmask : Int.land w (0xF0 : Nat) = _ := land_natCast (k := 8) (by decide) w
  have hdown (b : Nat) : (b &&& 0xF0) >>> 4 = b / 16 % 16 := by
    rw [Nat.shiftRight_and_distrib, Nat.shiftRight_eq_div_pow]
    exact Nat.and_two_pow_sub_one_eq_mod (b / 16) 4
  change Int.land w (0xF0 : Nat) >>> (4 : Nat) = _
  rw [hmask, Int.shiftRight_eq_div_pow, ← Int.natCast_ediv, ← Nat.shiftRight_eq_div_pow, hdown]
  omega

/-- A nibble goes into the place that a shift has made free. -/
theorem lor_shiftLeft (v : Nat) (d : Nibble) :
    Int.lor ((v : Int) <<< (4 : Nat)) d.val = (v * 16 + d.val : Nat) := by
  have hshift : (v : Int) <<< (4 : Nat) = (v <<< 4 : Nat) := rfl
  rw [hshift]
  change ((v <<< 4 ||| d.val : Nat) : Int) = _
  rw [← Nat.shiftLeft_add_eq_or_of_lt (i := 4) d.isLt, Nat.shiftLeft_eq]

/-! ## Fields as integers -/

/-- The fields of a word, none of them bounded by its type. -/
structure Fields where
  nibbles : List Int
  x : Int
  y : Int
  n : Int
  nn : Int
  nnn : Int
deriving DecidableEq

def Operands.fields (o : Operands) : Fields where
  nibbles := o.toList.map fun d => (d.val : Int)
  x := o.x.val
  y := o.y.val
  n := o.n.val
  nn := o.nn
  nnn := o.nnn

namespace Masked

/-- The nibbles of two integers, of which only the low bytes count. -/
def nibbles (high low : Int) : Int × Int × Int × Int :=
  (Int.land high 0xF0 >>> (4 : Nat), Int.land high 0xF,
    Int.land low 0xF0 >>> (4 : Nat), Int.land low 0xF)

def merge (ns : List Int) : Except JoinError Int :=
  if ns.length = 2 ∨ ns.length = 3 then
    .ok (ns.foldl (fun v n => Int.lor (v <<< (4 : Nat)) (Int.land n 0xF)) 0)
  else .error ⟨ns.length⟩

def fields (w : Int) : Except JoinError Fields := do
  let (lead, x, y, n) := nibbles (Int.land (w >>> (8 : Nat)) 0xFF) (Int.land w 0xFF)
  return { nibbles := [lead, x, y, n], x, y, n, nn := ← merge [y, n], nnn := ← merge [x, y, n] }

theorem nibbles_eq (high low : Int) : nibbles high low =
    (high / 16 % 16, high % 16, low / 16 % 16, low % 16) := by
  simp only [nibbles, land_upper, land_nibble]

theorem foldl_lor (ns : List Int) (v : Nat) :
    ns.foldl (fun v n => Int.lor (v <<< (4 : Nat)) (Int.land n 0xF)) (v : Int) =
      ((ns.map nibbleOf).foldl (fun v d => v * 16 + d.val) v : Nat) := by
  induction ns generalizing v with
  | nil => rfl
  | cons n ns ih =>
    have hstep : Int.lor ((v : Int) <<< (4 : Nat)) (Int.land n 0xF) =
        (v * 16 + (nibbleOf n).val : Nat) := by
      rw [land_nibble, ← val_nibbleOf, lor_shiftLeft]
    rw [List.foldl_cons, hstep, ih, List.map_cons, List.foldl_cons]

theorem merge_eq (ns : List Int) : merge ns = (mergeNibbles ns).map Int.ofNat := by
  unfold merge mergeNibbles
  split
  · exact congrArg Except.ok (foldl_lor ns 0)
  · rfl

theorem merge_val (ds : List Nibble) (h : ds.length = 2 ∨ ds.length = 3) :
    merge (ds.map fun d => (d.val : Int)) = .ok (joinNibbles ds : Int) := by
  have hback : (ds.map fun d => (d.val : Int)).map nibbleOf = ds := by
    rw [List.map_map]
    exact List.map_id'' nibbleOf_val ds
  rw [merge_eq, mergeNibbles, List.length_map, if_pos h, hback]
  rfl

theorem fields_eq (w : Int) : fields w = .ok (Operands.ofWord w).fields := by
  have hlead := Operands.val_lead w
  have hx := Operands.val_x w
  have hy := Operands.val_y w
  have hn := Operands.val_n w
  have hcut : nibbles (Int.land (w >>> (8 : Nat)) 0xFF) (Int.land w 0xFF) =
      (↑(Operands.ofWord w).lead.val, ↑(Operands.ofWord w).x.val, ↑(Operands.ofWord w).y.val,
        ↑(Operands.ofWord w).n.val) := by
    rw [nibbles_eq, land_byte, land_byte, Int.shiftRight_eq_div_pow, hlead, hx, hy, hn]
    simp only [Prod.mk.injEq]
    omega
  have hnn := merge_val [(Operands.ofWord w).y, (Operands.ofWord w).n] (.inl rfl)
  have hnnn := merge_val [(Operands.ofWord w).x, (Operands.ofWord w).y, (Operands.ofWord w).n]
    (.inr rfl)
  unfold fields
  rw [hcut]
  simp only [List.map_cons, List.map_nil] at hnn hnnn
  simp only [hnn, hnnn]
  rfl

end Masked

/-! ## Numbers that digits spell -/

/-- The value of digits to the base sixteen, the most significant first. -/
def spelled : List Int → Int
  | [] => 0
  | d :: ds => d * 16 ^ ds.length + spelled ds

theorem spelled_concat (ds : List Int) (d : Int) : spelled (ds ++ [d]) = spelled ds * 16 + d := by
  induction ds with
  | nil => simp [spelled]
  | cons e ds ih =>
    rw [List.cons_append, spelled, spelled, ih, List.length_append, List.length_singleton,
      Int.pow_succ, Int.add_mul, Int.mul_assoc, Int.add_assoc]

theorem natCast_joinNibbles (ns : List Nibble) :
    (joinNibbles ns : Int) = spelled (ns.map fun d => (d.val : Int)) := by
  induction ns using List.reverseRecOn with
  | nil => rfl
  | append_singleton ns d ih =>
    rw [List.map_append, List.map_singleton, spelled_concat, ← ih]
    simp [joinNibbles]

theorem spelled_nibbles (o : Operands) : spelled o.fields.nibbles = o.word := by
  simp only [Operands.fields, Operands.toList, List.map_cons, List.map_nil, spelled,
    List.length_cons, List.length_nil, Operands.word]
  omega

/-- What a word has for fields: its digits to the base sixteen, and remainders of it. -/
structure Fields.Exact (f : Fields) (w : Int) : Prop where
  four : f.nibbles.length = 4
  digits : ∀ d ∈ f.nibbles, 0 ≤ d ∧ d ≤ 15
  word : spelled f.nibbles = w % 65536
  x : f.nibbles[1]? = some f.x
  y : f.nibbles[2]? = some f.y
  n : f.nibbles[3]? = some f.n
  nn : f.nn = w % 256
  nnn : f.nnn = w % 4096

theorem exact_fields (w : Int) : (Operands.ofWord w).fields.Exact w where
  four := rfl
  digits d hd := by
    obtain ⟨k, _, rfl⟩ := List.mem_map.mp hd
    have := k.isLt
    omega
  word := by rw [spelled_nibbles, Operands.word_ofWord]
  x := rfl
  y := rfl
  n := rfl
  nn := Operands.nn_ofWord w
  nnn := Operands.nnn_ofWord w

theorem mergeNibbles_eq (ns : List Int) : (mergeNibbles ns).map Int.ofNat =
    if ns.length = 2 ∨ ns.length = 3 then .ok (spelled (ns.map (· % 16)))
    else .error ⟨ns.length⟩ := by
  unfold mergeNibbles
  split
  · refine congrArg Except.ok ((natCast_joinNibbles _).trans ?_)
    rw [List.map_map]
    exact congrArg spelled (List.map_congr_left fun a _ => val_nibbleOf a)
  · rfl

theorem nibbles_ofBytes (high low : Int) : (Operands.ofBytes high low).fields.nibbles =
    [high / 16 % 16, high % 16, low / 16 % 16, low % 16] := by
  rw [← val_nibbleOf, ← val_nibbleOf, ← val_nibbleOf, ← val_nibbleOf]
  rfl

theorem mergeNibbles_halves (v : Int) :
    (mergeNibbles [v / 16 % 16, v % 16]).map Int.ofNat = .ok (v % 256) := by
  rw [mergeNibbles_eq, if_pos (.inl rfl)]
  simp only [List.map_cons, List.map_nil, spelled, List.length_cons, List.length_nil,
    Except.ok.injEq]
  omega

/-- The fields of every integer are digits and remainders of it. Two integers are cut into nibbles
whose halves come to their low bytes, and two or three integers are merged into the number that
their low nibbles spell, but no other number of them. All of it is what masks and shifts on
integers without bounds come to. -/
theorem Operands.cut_and_merged_exactly :
    (∀ w : Int, (Operands.ofWord w).fields.Exact w ∧
      Masked.fields w = .ok (Operands.ofWord w).fields) ∧
    (∀ high low : Int,
      let ns := (Operands.ofBytes high low).fields.nibbles
      Masked.nibbles high low = (high / 16 % 16, high % 16, low / 16 % 16, low % 16) ∧
        ns = [high / 16 % 16, high % 16, low / 16 % 16, low % 16] ∧
        (mergeNibbles (ns.take 2)).map Int.ofNat = .ok (high % 256) ∧
        (mergeNibbles (ns.drop 2)).map Int.ofNat = .ok (low % 256)) ∧
    ∀ ns : List Int,
      (mergeNibbles ns).map Int.ofNat =
          (if ns.length = 2 ∨ ns.length = 3 then .ok (spelled (ns.map (· % 16)))
            else .error ⟨ns.length⟩) ∧
        Masked.merge ns = (mergeNibbles ns).map Int.ofNat := by
  refine ⟨fun w => ⟨exact_fields w, Masked.fields_eq w⟩, fun high low => ?_,
    fun ns => ⟨mergeNibbles_eq ns, Masked.merge_eq ns⟩⟩
  dsimp only
  rw [nibbles_ofBytes]
  exact ⟨Masked.nibbles_eq high low, rfl, mergeNibbles_halves high, mergeNibbles_halves low⟩

example : (mergeNibbles [-1, 0x123]).map Int.ofNat = .ok 0xF3 := by decide

end Chip8
