import Chip8.Proofs.CallStack
import Chip8.Trace
import Mathlib.Data.List.DropRight

/-! # The ring as a list

A ring holds the last entries of all that went in, as many as there is room for. Until it
is full the oldest of them stands at its beginning; from then on each new entry goes to the
place of the oldest one, and the place behind it becomes the oldest. So at any time what is read
off the ring is the end of its history. -/

namespace Chip8

/-- The part of a list that starts at a place, read element by element. -/
theorem filterMap_range {α : Type} {xs : List α} {f : Nat → Option α} {d n : Nat}
    (hf : ∀ k < n, f k = xs[d + k]?) : (List.range n).filterMap f = (xs.drop d).take n := by
  induction n with
  | zero => simp
  | succ n ih =>
    have hlast := hf n (Nat.lt_succ_self n)
    rw [List.range_succ, List.filterMap_append, ih fun k hk => hf k (Nat.lt_succ_of_lt hk),
      List.take_add_one, List.getElem?_drop, ← hlast]
    cases h : f n <;> simp [h]

namespace Trace

variable {t : Trace} {es : List Entry}

/-- A place at most one round ahead on a ring of `n` places. -/
theorem turn {a k n : Nat} (ha : a < n) (hk : k ≤ n) :
    (a + k) % n = if a + k < n then a + k else a + k - n := by
  by_cases h : a + k < n
  · rw [if_pos h, Nat.mod_eq_of_lt h]
  · rw [if_neg h, Nat.mod_eq_sub_mod (by omega), Nat.mod_eq_of_lt (by omega)]

/-- The entries on the ring, the oldest first. -/
structure Holds (t : Trace) (es : List Entry) : Prop where
  size : t.size = es.length
  fits : es.length ≤ t.capacity
  start : es.length < t.capacity → t.oldest = 0
  inside : t.oldest < t.capacity
  entry : ∀ k < es.length, t.entry? k = es[k]?

theorem Holds.record_pushed (h : t.Holds es) (hroom : es.length < t.capacity) (e : Entry) :
    (t.record e).Holds (es ++ [e]) := by
  have hsize : t.ring.size = es.length := h.size
  have hrecord : t.record e = { t with ring := t.ring.push e } := if_pos (hsize ▸ hroom)
  have hstart := h.start hroom
  have hlen : (es ++ [e]).length = es.length + 1 := List.length_append
  rw [hrecord]
  refine ⟨?_, hlen ▸ hroom, fun _ => hstart, h.inside, fun k hk => ?_⟩
  · rw [hlen, ← hsize]
    exact Array.size_push e
  · change (t.ring.push e)[(t.oldest + k) % (t.ring.push e).size]? = _
    rw [Array.size_push, hstart, hsize, Nat.zero_add, Nat.mod_eq_of_lt (hlen ▸ hk),
      Array.getElem?_push, hsize]
    by_cases hlast : k = es.length
    · rw [if_pos hlast, hlast, List.getElem?_concat_length]
    · have hold := h.entry k (by omega)
      unfold entry? at hold
      rw [h.size, hstart, Nat.zero_add, Nat.mod_eq_of_lt (by omega)] at hold
      rw [if_neg hlast, List.getElem?_append_left (by omega), hold]

theorem Holds.record_full (h : t.Holds es) (hfull : es.length = t.capacity) (e : Entry) :
    (t.record e).Holds (es.drop 1 ++ [e]) := by
  have hsize : t.ring.size = es.length := h.size
  have hin : t.oldest < es.length := hfull ▸ h.inside
  have hrecord : t.record e = { t with
      ring := t.ring.setIfInBounds t.oldest e, oldest := (t.oldest + 1) % t.capacity } :=
    if_neg (by omega)
  have hlen : (es.drop 1 ++ [e]).length = es.length := by
    rw [List.length_append, List.length_drop, List.length_singleton]
    omega
  rw [hrecord]
  refine ⟨?_, Nat.le_of_eq (hlen.trans hfull), fun hlt => absurd (hlen.trans hfull) (Nat.ne_of_lt hlt),
    Nat.mod_lt _ (hfull ▸ Nat.zero_lt_of_lt hin), fun k hk => ?_⟩
  · rw [hlen, ← hsize]
    exact Array.size_setIfInBounds
  · change (t.ring.setIfInBounds t.oldest e)[((t.oldest + 1) % t.capacity + k) %
      (t.ring.setIfInBounds t.oldest e).size]? = _
    rw [hlen] at hk
    rw [Array.size_setIfInBounds, hsize, ← hfull, Nat.mod_add_mod, Nat.add_assoc, Nat.add_comm 1 k,
      Array.getElem?_setIfInBounds]
    have hplace := turn hin (show k + 1 ≤ es.length by omega)
    by_cases hlast : k + 1 = es.length
    · -- the last place is one round ahead: the one that was written
      have hk' : k = (es.drop 1).length := by rw [List.length_drop]; omega
      rw [if_neg (by omega)] at hplace
      rw [hplace, if_pos (by omega), if_pos (by omega), hk', List.getElem?_concat_length]
    · -- every other place holds what stood there, now one place nearer to the oldest
      have hold := h.entry (k + 1) (by omega)
      unfold entry? at hold
      rw [h.size] at hold
      have hother : t.oldest ≠ (t.oldest + (k + 1)) % es.length := by
        rw [hplace]
        split <;> omega
      rw [if_neg hother, hold, List.getElem?_append_left (by rw [List.length_drop]; omega),
        List.getElem?_drop, Nat.add_comm 1 k]

theorem Holds.record (h : t.Holds es) (e : Entry) :
    (t.record e).Holds ((es ++ [e]).drop (es.length + 1 - t.capacity)) := by
  have hfits := h.fits
  by_cases hroom : es.length < t.capacity
  · rw [show es.length + 1 - t.capacity = 0 by omega, List.drop_zero]
    exact h.record_pushed hroom e
  · have hin := h.inside
    rw [show es.length + 1 - t.capacity = 1 by omega, List.drop_append_of_le_length (by omega)]
    exact h.record_full (by omega) e

theorem capacity_record (t : Trace) (e : Entry) : (t.record e).capacity = t.capacity := by
  unfold Trace.record
  split <;> rfl

/-- How many of `n` entries are asked for. -/
def wanted (limit : Option Int) (n : Nat) : Nat :=
  match limit with
  | none => n
  | some k => min n k.toNat

theorem Holds.entries (h : t.Holds es) (limit : Option Int) :
    t.entries limit = es.drop (es.length - wanted limit es.length) := by
  have hle : wanted limit es.length ≤ es.length := by
    unfold wanted
    split <;> omega
  have hcount : t.entries limit = (List.range (wanted limit es.length)).filterMap
      fun k => t.entry? (es.length - wanted limit es.length + k) := by
    unfold Trace.entries wanted
    cases limit <;> simp only [h.size]
  rw [hcount, filterMap_range fun k _ => h.entry _ (by omega), List.take_of_length_le]
  rw [List.length_drop]
  omega

theorem Holds.last? (h : t.Holds es) : t.last? = es.getLast? := by
  unfold Trace.last?
  rw [h.size]
  cases es with
  | nil =>
    have hring : t.ring = #[] := Array.size_eq_zero_iff.mp h.size
    simp [hring, entry?]
  | cons e es => rw [h.entry _ (by rw [List.length_cons]; omega), List.getLast?_eq_getElem?]

/-! ## Histories -/

/-- The ring holds what went in last, as much as there is room for. -/
def Remembers (t : Trace) (history : List Entry) : Prop :=
  t.Holds (history.drop (history.length - t.capacity))

theorem remembers_empty {capacity : Nat} (h : 0 < capacity) : (empty capacity).Remembers [] := by
  unfold Remembers
  rw [List.drop_nil]
  exact ⟨rfl, Nat.zero_le _, fun _ => rfl, h, fun k hk => absurd hk (Nat.not_lt_zero k)⟩

theorem Remembers.record {history : List Entry} (h : t.Remembers history) (e : Entry) :
    (t.record e).Remembers (history ++ [e]) := by
  have hnext := Holds.record h e
  unfold Remembers
  rw [← List.drop_append_of_le_length (Nat.sub_le _ _), List.drop_drop, List.length_drop] at hnext
  rw [capacity_record, List.length_append, List.length_singleton]
  rwa [show history.length + 1 - t.capacity = history.length - t.capacity +
    (history.length - (history.length - t.capacity) + 1 - t.capacity) by omega]

theorem Remembers.size {history : List Entry} (h : t.Remembers history) :
    t.size = min history.length t.capacity := by
  have hs := Holds.size h
  rw [List.length_drop] at hs
  omega

theorem Remembers.entries {history : List Entry} (h : t.Remembers history) (limit : Option Int) :
    t.entries limit =
      history.drop (history.length - wanted limit (min history.length t.capacity)) := by
  have hlen : (history.drop (history.length - t.capacity)).length =
      min history.length t.capacity := by
    rw [List.length_drop]
    omega
  have hle : wanted limit (min history.length t.capacity) ≤ min history.length t.capacity := by
    unfold wanted
    split <;> omega
  rw [Holds.entries h limit, hlen, List.drop_drop]
  congr 1
  omega

theorem Remembers.last? {history : List Entry} (h : t.Remembers history) :
    t.last? = history.getLast? := by
  have hin := Holds.inside h
  rw [Holds.last? h, List.getLast?_drop]
  by_cases hnone : history.length ≤ history.length - t.capacity
  · have hnil : history = [] := List.length_eq_zero_iff.mp (by omega)
    rw [if_pos hnone, hnil, List.getLast?_nil]
  · rw [if_neg hnone]

/-! ## Runs of records -/

def recordAll (history : List Entry) (t : Trace) : Trace := history.foldl record t

theorem capacity_recordAll (history : List Entry) (t : Trace) :
    (recordAll history t).capacity = t.capacity := by
  induction history generalizing t with
  | nil => rfl
  | cons e history ih => exact (ih (t.record e)).trans (capacity_record t e)

theorem Remembers.recordAll (later : List Entry) : ∀ {t : Trace} {history : List Entry},
    t.Remembers history → (Trace.recordAll later t).Remembers (history ++ later) := by
  induction later with
  | nil =>
    intro t history h
    rwa [List.append_nil]
  | cons e later ih =>
    intro t history h
    have hrest := ih (h.record e)
    rwa [List.append_assoc, List.singleton_append] at hrest

/-- A category that is off prints nothing, and one that is on a line for each line. -/
theorem dump_eq (t : Trace) (c : Debug.Categories) (category : String) (limit : Option Int) :
    t.dump c category limit = if c.enabled (some category) then
      (t.lines limit).map (Debug.Categories.record category) else [] := by
  unfold dump Debug.Categories.log
  cases c.enabled (some category) with
  | false => simp
  | true => simp only [↓reduceIte, List.map_eq_flatMap]

/-- What is read off a ring with room for so many entries is the end of the history: the oldest of
the entries first, and as many as the ring holds and the limit allows. Each of them makes a line,
and a dump hands each line to the log, which prints it if the category is on. -/
structure EndsHistory (t : Trace) (capacity : Nat) (history : List Entry) : Prop where
  size : t.size = min history.length capacity
  last : t.last? = history.getLast?
  all : t.entries none = history.rtake (min history.length capacity)
  limited : ∀ limit : Int, t.entries (some limit) =
    history.rtake (min (min history.length capacity) (max limit 0).toNat)
  lines : ∀ limit, t.lines limit = (t.entries limit).map Entry.line
  logged : ∀ (c : Debug.Categories) category limit, t.dump c category limit =
    (t.entries limit).flatMap fun e => c.log category e.line
  printed : ∀ (c : Debug.Categories) category limit, t.dump c category limit =
    if c.enabled (some category) then
      (t.entries limit).map fun e => Debug.Categories.record category e.line else []

theorem Remembers.endsHistory {history : List Entry} (h : t.Remembers history) :
    t.EndsHistory t.capacity history where
  size := h.size
  last := h.last?
  all := h.entries none
  limited limit := by
    rw [h.entries (some limit), wanted, List.rtake, show (max limit 0).toNat = limit.toNat by omega]
  lines limit := rfl
  logged c category limit := by rw [dump, lines, List.flatMap_map]
  printed c category limit := by
    rw [dump_eq, lines, List.map_map]
    rfl

/-- At any time a ring of any size shows the end of its history, before it is full and as often as
it goes around. -/
theorem recordAll_endsHistory {asked : Int} (h : 1 ≤ asked) (history : List Entry) :
    (∀ room : Room, asked ≤ Limit.items → room.holds asked.toNat →
      ofCapacity asked room = .ok (empty asked.toNat)) ∧
    (recordAll history (empty asked.toNat)).EndsHistory asked.toNat history := by
  refine ⟨fun room hitems hroom => ?_, ?_⟩
  · rw [ofCapacity, CapacityError.check_of_holds h hitems hroom]
    rfl
  · have hpos : 0 < asked.toNat := by omega
    have hends := ((remembers_empty hpos).recordAll history).endsHistory
    rwa [capacity_recordAll, List.nil_append] at hends

/-- A step at this address. -/
def stepAt (pc : Int) : Entry := .ofNumbers pc 0 0 0 0 [] none "" ""

/-- A ring of two has gone around once and a half when it has taken five entries. -/
theorem recordAll_endsHistory_two : 1 ≤ (2 : Int) ∧
    let t := recordAll ([0, 2, 4, 6, 8].map stepAt) (empty 2)
    t.size = 2 ∧ t.last? = some (stepAt 8) ∧ t.entries none = [stepAt 6, stepAt 8] ∧
      t.entries (some 1) = [stepAt 8] ∧ t.entries (some (-1)) = [] := by
  have h : 1 ≤ (2 : Int) := by decide
  have hends := (recordAll_endsHistory h ([0, 2, 4, 6, 8].map stepAt)).2
  exact ⟨h, hends.size, hends.last, hends.all, hends.limited 1, hends.limited (-1)⟩

end Trace

end Chip8
