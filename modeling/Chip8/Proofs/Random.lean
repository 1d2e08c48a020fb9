import Chip8.Random
import Mathlib.Data.Finset.Card
import Mathlib.Order.Interval.Finset.Nat

/-! # The stream of random numbers

A draw moves the lanes along and mixes a byte with itself twice, each time moved up by some bits.
Mixing again gives the byte back, as the bits that were moved twice are moved out of the byte in the
end. So a draw can be undone, and no lanes come from two others. Lanes that are zero come from
themselves alone, so the seed never leads to them; the others are fewer than 2 ^ 32, so in the end
the seed comes back, and the stream with it. -/

namespace Chip8.Lanes

/-! ## Undoing a draw -/

/-- A byte mixed with itself, moved up by some bits. -/
def mix (k b : UInt8) : UInt8 := b ^^^ (b <<< k)

/-- What is mixed twice is mixed once with the bits moved twice as far. -/
theorem mix_mix (k b : UInt8) : mix k (mix k b) = b ^^^ (b <<< k <<< k) := by
  unfold mix
  rw [UInt8.shiftLeft_xor]
  calc b ^^^ b <<< k ^^^ (b <<< k ^^^ b <<< k <<< k)
      = b ^^^ (b <<< k ^^^ b <<< k) ^^^ b <<< k <<< k := by simp only [UInt8.xor_assoc]
    _ = b ^^^ b <<< k <<< k := by rw [UInt8.xor_self, UInt8.xor_zero]

theorem mix_mix_one (b : UInt8) : mix 1 (mix 1 b) = mix 2 b := by
  rw [mix_mix, ← UInt8.shiftLeft_add (by decide) (by decide) (by decide)]
  rfl

theorem mix_mix_two (b : UInt8) : mix 2 (mix 2 b) = mix 4 b := by
  rw [mix_mix, ← UInt8.shiftLeft_add (by decide) (by decide) (by decide)]
  rfl

/-- A byte has no more than eight bits. -/
theorem mix_mix_four (b : UInt8) : mix 4 (mix 4 b) = b := by
  have hout : b <<< (4 : UInt8) <<< (4 : UInt8) = 0 := by
    apply UInt8.toBitVec_inj.mp
    simp
  rw [mix_mix, hout, UInt8.xor_zero]

theorem next_eq (l : Lanes) :
    l.next = ⟨l.y, l.z, l.a, (l.a ^^^ (l.a >>> 1)) ^^^ mix 1 (mix 4 l.x)⟩ := by
  dsimp only [next, mix]
  ac_rfl

/-- The lanes before a draw. -/
def prev (l : Lanes) : Lanes :=
  ⟨mix 4 (mix 4 (mix 2 (mix 1 ((l.z ^^^ (l.z >>> 1)) ^^^ l.a)))), l.x, l.y, l.z⟩

theorem prev_next (l : Lanes) : l.next.prev = l := by
  rw [next_eq, prev]
  dsimp only
  rw [← UInt8.xor_assoc, UInt8.xor_self, UInt8.zero_xor, mix_mix_one, mix_mix_two, mix_mix_four,
    mix_mix_four]

theorem next_injective : Function.Injective next := Function.LeftInverse.injective prev_next

/-! ## Lanes as numbers -/

/-- Lanes of numbers that have no bound of their own. -/
structure Wide where
  x : Nat
  y : Nat
  z : Nat
  a : Nat
deriving DecidableEq

/-- A draw that cuts to a byte what it mixed with the oldest lane, and once more the number that it
draws. -/
def Wide.next (w : Wide) : Wide :=
  let t := (w.x ^^^ (w.x <<< 4)) &&& 0xFF
  ⟨w.y, w.z, w.a, (w.a ^^^ t ^^^ (w.a >>> 1) ^^^ (t <<< 1)) &&& 0xFF⟩

def wide (l : Lanes) : Wide := ⟨l.x.toNat, l.y.toNat, l.z.toNat, l.a.toNat⟩

theorem and_byte (n : Nat) : n &&& 0xFF = n % 2 ^ 8 := Nat.and_two_pow_sub_one_eq_mod n 8

theorem toNat_xor_shiftLeft (b : UInt8) :
    (b ^^^ (b <<< 4)).toNat = (b.toNat ^^^ (b.toNat <<< 4)) &&& 0xFF := by
  have hb : b.toNat % 2 ^ 8 = b.toNat := Nat.mod_eq_of_lt b.toNat_lt
  rw [UInt8.toNat_xor, UInt8.toNat_shiftLeft, and_byte, Nat.xor_mod_two_pow, hb]
  rfl

/-- Cut in these two places the numbers never grow past a byte. -/
theorem wide_next (l : Lanes) : l.next.wide = l.wide.next := by
  have ha : l.a.toNat % 2 ^ 8 = l.a.toNat := Nat.mod_eq_of_lt l.a.toNat_lt
  have hhalf : l.a.toNat >>> 1 % 2 ^ 8 = l.a.toNat >>> 1 :=
    Nat.mod_eq_of_lt ((Nat.shiftRight_le _ 1).trans_lt l.a.toNat_lt)
  have ht : (l.x ^^^ (l.x <<< 4)).toNat % 2 ^ 8 = (l.x ^^^ (l.x <<< 4)).toNat :=
    Nat.mod_eq_of_lt (UInt8.toNat_lt _)
  unfold wide next Wide.next
  dsimp only
  rw [← toNat_xor_shiftLeft, and_byte, Nat.xor_mod_two_pow, Nat.xor_mod_two_pow,
    Nat.xor_mod_two_pow, ha, ht, hhalf]
  simp only [UInt8.toNat_xor, UInt8.toNat_shiftLeft, UInt8.toNat_shiftRight]
  rfl

theorem wide_after (n : Nat) (l : Lanes) : (l.after n).wide = Wide.next^[n] l.wide := by
  induction n generalizing l with
  | zero => rfl
  | succ n ih =>
    change (l.next.after n).wide = Wide.next^[n] l.wide.next
    rw [ih, wide_next]

/-! ## The states from a state on -/

theorem after_add (n k : Nat) (l : Lanes) : l.after (n + k) = (l.after n).after k := by
  induction n generalizing l with
  | zero => rw [Nat.zero_add]; rfl
  | succ n ih => rw [Nat.succ_add]; exact ih l.next

theorem after_injective (n : Nat) : Function.Injective (after n) := by
  induction n with
  | zero => exact fun _ _ h => h
  | succ n ih => exact fun _ _ h => next_injective (ih h)

def zero : Lanes := ⟨0, 0, 0, 0⟩

/-- Zero comes from itself, so it comes from nothing else. -/
theorem after_ne_zero (n : Nat) {l : Lanes} (h : l ≠ zero) : l.after n ≠ zero := by
  have hzero : zero.after n = zero := by
    induction n with
    | zero => rfl
    | succ n ih => exact ih
  exact fun he => h (after_injective n (he.trans hzero.symm))

theorem exists_mem_ne_zero {l : Lanes} (h : l ≠ zero) : ∃ b ∈ l.toList, b ≠ 0 := by
  by_contra hnone
  refine h ?_
  have hall (b : UInt8) (hb : b ∈ l.toList) : b = 0 := by
    by_contra hne
    exact hnone ⟨b, hb, hne⟩
  obtain ⟨x, y, z, a⟩ := l
  simp only [toList, List.forall_mem_cons] at hall
  obtain ⟨rfl, rfl, rfl, rfl, _⟩ := hall
  rfl

/-- The number that the four bytes spell. -/
def number (l : Lanes) : Nat :=
  ((l.x.toNat * 256 + l.y.toNat) * 256 + l.z.toNat) * 256 + l.a.toNat

theorem number_lt (l : Lanes) : l.number < 2 ^ 32 := by
  have hx := l.x.toNat_lt
  have hy := l.y.toNat_lt
  have hz := l.z.toNat_lt
  have ha := l.a.toNat_lt
  unfold number
  omega

theorem number_injective : Function.Injective number := by
  rintro ⟨x, y, z, a⟩ ⟨x', y', z', a'⟩ h
  have hy := y.toNat_lt
  have hy' := y'.toNat_lt
  have hz := z.toNat_lt
  have hz' := z'.toNat_lt
  have ha := a.toNat_lt
  have ha' := a'.toNat_lt
  change ((x.toNat * 256 + y.toNat) * 256 + z.toNat) * 256 + a.toNat =
    ((x'.toNat * 256 + y'.toNat) * 256 + z'.toNat) * 256 + a'.toNat at h
  obtain rfl : a = a' := UInt8.toNat_inj.mp (by omega)
  obtain rfl : z = z' := UInt8.toNat_inj.mp (by omega)
  obtain rfl : y = y' := UInt8.toNat_inj.mp (by omega)
  obtain rfl : x = x' := UInt8.toNat_inj.mp (by omega)
  rfl

theorem number_pos {l : Lanes} (h : l ≠ zero) : 0 < l.number := by
  refine Nat.pos_of_ne_zero fun hn => h (number_injective ?_)
  exact hn.trans rfl

/-- Two of the first 2 ^ 32 states are the same, and from the second one the draws can be undone
until the first one is back at the start. -/
theorem exists_period {l : Lanes} (h : l ≠ zero) : ∃ p, 1 ≤ p ∧ p ≤ 2 ^ 32 - 1 ∧ l.after p = l := by
  have hcard : (Finset.Ico 1 (2 ^ 32)).card < (Finset.range (2 ^ 32)).card := by
    rw [Nat.card_Ico, Finset.card_range]
    omega
  have hmaps : Set.MapsTo (fun n => (l.after n).number) (Finset.range (2 ^ 32))
      (Finset.Ico 1 (2 ^ 32)) := by
    intro n _
    exact Finset.mem_coe.mpr (Finset.mem_Ico.mpr ⟨number_pos (after_ne_zero n h), number_lt _⟩)
  obtain ⟨i, hi, j, hj, hne, he⟩ := Finset.exists_ne_map_eq_of_card_lt_of_maps_to hcard hmaps
  have hsame := number_injective he
  have hi := Finset.mem_range.mp hi
  have hj := Finset.mem_range.mp hj
  -- whichever of them comes first
  have back {i j : Nat} (hij : i < j) (hj : j < 2 ^ 32) (he : l.after i = l.after j) :
      ∃ p, 1 ≤ p ∧ p ≤ 2 ^ 32 - 1 ∧ l.after p = l := by
    refine ⟨j - i, by omega, by omega, after_injective i ?_⟩
    rw [← after_add, Nat.sub_add_cancel (Nat.le_of_lt hij), he]
  obtain hij | hji := Nat.lt_or_gt_of_ne hne
  · exact back hij hj hsame
  · exact back hji hi hsame.symm

/-! ## The stream -/

theorem length_draw (n : Nat) (l : Lanes) : (l.draw n).1.length = n := by
  induction n generalizing l with
  | zero => rfl
  | succ n ih => exact congrArg (· + 1) (ih l.next)

theorem draw_add (n k : Nat) (l : Lanes) :
    (l.draw (n + k)).1 = (l.draw n).1 ++ ((l.after n).draw k).1 := by
  induction n generalizing l with
  | zero => rw [Nat.zero_add]; rfl
  | succ n ih =>
    rw [Nat.succ_add]
    exact congrArg (l.next.a :: ·) (ih l.next)

/-- The numbers of the stream in their order. -/
theorem getElem?_draw {n j : Nat} (h : j < n) (l : Lanes) :
    (l.draw n).1[j]? = some (l.after j).next.a := by
  induction n generalizing j l with
  | zero => exact absurd h (Nat.not_lt_zero j)
  | succ n ih =>
    change (l.next.a :: (l.next.draw n).1)[j]? = _
    cases j with
    | zero => rfl
    | succ j => exact ih (Nat.lt_of_succ_lt_succ h) l.next

/-- Behind four draws the lanes hold the numbers that were drawn. -/
theorem toList_after (n : Nat) (l : Lanes) :
    (l.after (n + 4)).toList = (l.draw (n + 4)).1.drop n := by
  rw [draw_add, List.drop_left' (length_draw n l), after_add]
  rfl

/-- No lanes come from two others. From the seed on they are bytes, if computed as numbers too, and
never all of them zero, and behind some number of draws below 2 ^ 32 the seed is back, with all that
came from it. Behind four draws and more the lanes are the four numbers that were drawn last, the
oldest first. -/
theorem stream_reversible_and_periodic :
    Function.Injective next ∧
    (∀ n, Wide.next^[n] seed.wide = (seed.after n).wide ∧
      (∀ b ∈ (seed.after n).toList, b.toNat ≤ 255) ∧ ∃ b ∈ (seed.after n).toList, b ≠ 0) ∧
    (∃ p, 1 ≤ p ∧ p ≤ 2 ^ 32 - 1 ∧ seed.after p = seed ∧
      (∀ n, seed.after (p + n) = seed.after n) ∧
      ∀ n, (seed.draw (p + n)).1 = (seed.draw p).1 ++ (seed.draw n).1) ∧
    ∀ n, (seed.after (n + 4)).toList = (seed.draw (n + 4)).1.drop n := by
  have hseed : seed ≠ zero := by decide
  obtain ⟨p, hlo, hhi, hp⟩ := exists_period hseed
  refine ⟨next_injective, fun n =>
      ⟨(wide_after n seed).symm, fun b _ => ?_, exists_mem_ne_zero (after_ne_zero n hseed)⟩,
    ⟨p, hlo, hhi, hp, fun n => ?_, fun n => ?_⟩, fun n => toList_after n seed⟩
  · have := b.toNat_lt
    omega
  · rw [after_add, hp]
  · rw [draw_add, hp]

end Chip8.Lanes
