import Chip8.Proofs.Memory.Layout

/-! # Registering blocks

A block that is registered takes over its range if all of it lies in the space, and is
refused otherwise, which changes nothing. So of the blocks that were accepted the last one
around an address serves it, and on a bus that is put together in this way every region
holds the addresses that it serves. -/

namespace Chip8.Bus

theorem getElem?_claim (id : Nat) (n : Nat) : ∀ (start : Nat) (s : Array (Option Nat)) (a : Nat),
    (claim id start n s)[a]? =
      if start ≤ a ∧ a < start + n ∧ a < s.size then some (some id) else s[a]? := by
  induction n with
  | zero =>
    intro start s a
    rw [if_neg (by omega)]
    rfl
  | succ n ih =>
    intro start s a
    rw [claim, ih, Array.size_setIfInBounds, Array.getElem?_setIfInBounds]
    by_cases h1 : start + 1 ≤ a ∧ a < start + 1 + n ∧ a < s.size
    · rw [if_pos h1, if_pos ⟨by omega, by omega, h1.2.2⟩]
    · rw [if_neg h1]
      by_cases h2 : start = a
      · subst h2
        by_cases h3 : start < s.size
        · rw [if_pos rfl, if_pos h3, if_pos ⟨by omega, by omega, h3⟩]
        · rw [if_pos rfl, if_neg h3, if_neg (by omega), Array.getElem?_eq_none (by omega)]
      · rw [if_neg h2, if_neg (by omega)]

theorem size_claim (id : Nat) (n : Nat) : ∀ (start : Nat) (s : Array (Option Nat)),
    (claim id start n s).size = s.size := by
  induction n with
  | zero => intro start s; rfl
  | succ n ih => intro start s; rw [claim, ih, Array.size_setIfInBounds]

theorem register_eq_ok {m : Bus} {id start n : Nat} {b : Block} {s : Array (Option Nat)}
    (hs : m.space = some s) (hb : m.blocks[id]? = some b) (hstart : b.start = start)
    (hstop : b.stop = start + n - 1) (hn : 0 < n) (hi : start + n ≤ s.size) :
    register id m = .ok () { m with
      space := some (claim id start n s)
      registry := (b.kind, id) :: m.registry } := by
  have hle : ¬ b.stop < b.start := by omega
  have hout : ¬ (b.start < 0 ∨ (s.size : Int) ≤ b.stop) := by omega
  have hcount : (b.stop - b.start + 1).toNat = n := by omega
  simp only [register, allocated, hs, hb, if_neg hle, if_neg hout, hcount]
  rw [hstart, Int.toNat_natCast]

theorem register_eq_error {m t : Bus} {id : Nat} {e : MemoryFault}
    (h : register id m = .error e t) : t = m := by
  unfold register at h
  split at h
  · cases h; rfl
  · split at h
    · cases h
    · dsimp only at h
      split at h
      · cases h; rfl
      · split at h
        · cases h; rfl
        · cases h

/-- The block lies around the address. -/
def covers (m : Bus) (a : Int) (id : Nat) : Bool :=
  match m.blocks[id]? with
  | some b => decide (b.start ≤ a ∧ a ≤ b.stop)
  | none => false

/-- What is accepted has all of its range in the space and takes it over. -/
theorem register_inv {m t : Bus} {id : Nat} (h : register id m = .ok () t) :
    (m.blocks[id]? = none ∧ t = m) ∨ ∃ s b, m.space = some s ∧ m.blocks[id]? = some b ∧
      0 ≤ b.start ∧ b.start ≤ b.stop ∧ b.stop < s.size ∧ t = { m with
        space := some (claim id b.start.toNat (b.stop - b.start + 1).toNat s)
        registry := (b.kind, id) :: m.registry } := by
  unfold register allocated at h
  cases hs : m.space with
  | none => rw [hs] at h; cases h
  | some s =>
    rw [hs] at h
    cases hb : m.blocks[id]? with
    | none =>
      simp only [hb] at h
      cases h
      exact .inl ⟨rfl, rfl⟩
    | some b =>
      simp only [hb] at h
      split at h
      · cases h
      · split at h
        · cases h
        · cases h
          exact .inr ⟨s, b, rfl, rfl, by omega, by omega, by omega, rfl⟩

/-- A block that is accepted serves its range, and all other addresses are served as before. -/
theorem serving_register {m t : Bus} {id : Nat} (h : register id m = .ok () t) :
    t.blocks = m.blocks ∧ ∀ a, t.serving a =
      match m.blocks[id]? with
      | some b => if b.start ≤ a ∧ a ≤ b.stop then .ok (id, b) else m.serving a
      | none => m.serving a := by
  obtain ⟨hb, rfl⟩ | ⟨s, b, hs, hb, lo, hle, hi, rfl⟩ := register_inv h
  · exact ⟨rfl, fun a => by rw [hb]⟩
  · refine ⟨rfl, fun a => ?_⟩
    rw [serving_eq, serving_eq, hs, hb]
    dsimp only
    rw [size_claim, Array.getD_eq_getD_getElem?, getElem?_claim]
    by_cases hout : a < 0 ∨ (s.size : Int) ≤ a
    · rw [if_pos hout, if_pos hout, if_neg (by omega)]
    · rw [if_neg hout, if_neg hout]
      by_cases ha : b.start ≤ a ∧ a ≤ b.stop
      · rw [if_pos (by omega), if_pos ha]
        simp only [Option.getD_some, hb]
      · rw [if_neg (by omega), if_neg ha, Array.getD_eq_getD_getElem?]

/-! ## Runs of registrations -/

/-- Blocks are registered one after another, whether or not they are accepted. -/
def registerAll (ids : List Nat) (m : Bus) : Bus :=
  ids.foldl (fun m id => leftBy (register id) m) m

/-- The blocks that are accepted, in the order of registration. -/
def accepted : List Nat → Bus → List Nat
  | [], _ => []
  | id :: ids, m => match register id m with
    | .ok _ t => id :: accepted ids t
    | .error _ t => accepted ids t

/-- The last of the accepted blocks around an address. -/
def lastAround (ids : List Nat) (m : Bus) (a : Int) : Option Nat :=
  (accepted ids m).reverse.find? (m.covers a)

theorem covers_of_blocks {m t : Bus} (h : t.blocks = m.blocks) : t.covers = m.covers := by
  funext a id
  unfold covers
  rw [h]

theorem covers_eq_true {m : Bus} {a : Int} {id : Nat} : m.covers a id = true ↔
    ∃ b, m.blocks[id]? = some b ∧ b.start ≤ a ∧ a ≤ b.stop := by
  unfold covers
  cases m.blocks[id]? with
  | none => simp
  | some b => simp

theorem lastAround_of_ok {m t : Bus} {id : Nat} {ids : List Nat} {a : Int}
    (h : register id m = .ok () t) : lastAround (id :: ids) m a =
      (lastAround ids t a).or (if m.covers a id then some id else none) := by
  have hacc : accepted (id :: ids) m = id :: accepted ids t := by simp only [accepted, h]
  unfold lastAround
  rw [hacc, List.reverse_cons, List.find?_append, covers_of_blocks (serving_register h).1]
  rw [List.find?_singleton]

theorem lastAround_of_error {m t : Bus} {id : Nat} {ids : List Nat} {a : Int} {e : MemoryFault}
    (h : register id m = .error e t) : lastAround (id :: ids) m a = lastAround ids t a := by
  have hacc : accepted (id :: ids) m = accepted ids t := by simp only [accepted, h]
  unfold lastAround
  rw [hacc, register_eq_error h]

theorem serving_of_lastAround_none {ids : List Nat} {a : Int} : ∀ {m : Bus},
    lastAround ids m a = none → (registerAll ids m).serving a = m.serving a := by
  induction ids with
  | nil => intro m _; rfl
  | cons id ids ih =>
    intro m h
    change (registerAll ids (leftBy (register id) m)).serving a = m.serving a
    cases hreg : register id m with
    | error e t =>
      rw [lastAround_of_error hreg] at h
      rw [leftBy_of_error hreg, ih h, register_eq_error hreg]
    | ok _ t =>
      rw [lastAround_of_ok hreg, Option.or_eq_none_iff] at h
      obtain ⟨hlater, hnow⟩ := h
      have hn : ¬ m.covers a id = true := fun hc => by
        rw [if_pos hc] at hnow
        cases hnow
      rw [leftBy_of_ok hreg, ih hlater, (serving_register hreg).2]
      cases hb : m.blocks[id]? with
      | none => rfl
      | some b => exact if_neg fun ha => hn (covers_eq_true.mpr ⟨b, hb, ha⟩)

/-- The last accepted block around an address serves it. -/
theorem serving_of_lastAround {ids : List Nat} {a : Int} {id : Nat} : ∀ {m : Bus},
    lastAround ids m a = some id →
      ∃ b, m.blocks[id]? = some b ∧ b.start ≤ a ∧ a ≤ b.stop ∧
        (registerAll ids m).serving a = .ok (id, b) := by
  induction ids with
  | nil => intro m h; cases h
  | cons k ids ih =>
    intro m h
    change ∃ b, _ ∧ _ ∧ _ ∧ (registerAll ids (leftBy (register k) m)).serving a = _
    cases hreg : register k m with
    | error e t =>
      obtain rfl := register_eq_error hreg
      rw [lastAround_of_error hreg] at h
      rw [leftBy_of_error hreg]
      exact ih h
    | ok _ t =>
      obtain ⟨hblocks, hserving⟩ := serving_register hreg
      rw [leftBy_of_ok hreg, ← hblocks]
      rw [lastAround_of_ok hreg, Option.or_eq_some_iff] at h
      obtain hlater | ⟨hlater, hnow⟩ := h
      · exact ih hlater
      · -- no later block lies around the address, so this one still serves it
        obtain ⟨hc, rfl⟩ : m.covers a k = true ∧ k = id := by simpa using hnow
        obtain ⟨b, hb, ha⟩ := covers_eq_true.mp hc
        refine ⟨b, by rw [hblocks]; exact hb, ha.1, ha.2, ?_⟩
        rw [serving_of_lastAround_none hlater, hserving, hb]
        exact if_pos ha

/-! ## A bus from its blocks -/

/-- A space of its own, in which blocks are registered. -/
def assemble (capacity : Int) (ids : List Nat) (m : Bus) : Bus :=
  registerAll ids (leftBy (allocate capacity) m)

/-- The last of the blocks that were accepted around an address. -/
def server? (capacity : Int) (ids : List Nat) (m : Bus) (a : Int) : Option Nat :=
  lastAround ids (leftBy (allocate capacity) m) a

theorem allocate_eq {capacity : Int} (h : 0 < capacity ∧ capacity ≤ 65536) (m : Bus) :
    leftBy (allocate capacity) m = { m with space := some (Array.replicate capacity.toNat none) } := by
  unfold leftBy allocate
  rw [if_pos h]

/-- The fault says that there is nothing at the address. -/
def Missing (a : Int) (e : MemoryFault) : Prop :=
  e = .unmapped a ∨ ∃ capacity, e = .outsideSpace a capacity

/-- No address of a new space is served. -/
theorem serving_allocate {capacity : Int} (h : 0 < capacity ∧ capacity ≤ 65536) (m : Bus) (a : Int) :
    ∃ e, Missing a e ∧ (leftBy (allocate capacity) m).serving a = .error e := by
  rw [allocate_eq h, serving_eq]
  dsimp only
  split
  · exact ⟨_, .inr ⟨_, rfl⟩, rfl⟩
  · have hnone : (Array.replicate capacity.toNat (none : Option Nat)).getD a.toNat none = none := by
      rw [Array.getD_eq_getD_getElem?, Array.getElem?_replicate]
      split <;> rfl
    rw [hnone]
    exact ⟨_, .inl rfl, rfl⟩

variable {capacity : Int} {ids : List Nat} {m : Bus} {a : Int}

theorem serving_of_server (hc : 0 < capacity ∧ capacity ≤ 65536) {id : Nat}
    (h : server? capacity ids m a = some id) :
    ∃ b, m.blocks[id]? = some b ∧ b.start ≤ a ∧ a ≤ b.stop ∧
      (assemble capacity ids m).serving a = .ok (id, b) := by
  have hblocks : (leftBy (allocate capacity) m).blocks = m.blocks := by rw [allocate_eq hc]
  rw [← hblocks]
  exact serving_of_lastAround h

theorem serving_of_server_none (hc : 0 < capacity ∧ capacity ≤ 65536)
    (h : server? capacity ids m a = none) :
    ∃ e, Missing a e ∧ (assemble capacity ids m).serving a = .error e := by
  obtain ⟨e, hmissing, he⟩ := serving_allocate hc m a
  exact ⟨e, hmissing, (serving_of_lastAround_none h).trans he⟩

/-- Blocks hold the addresses that they serve, however they overlap. -/
theorem covered_assemble (hc : 0 < capacity ∧ capacity ≤ 65536) :
    (assemble capacity ids m).Covered := by
  intro a id b hs
  cases hsrv : server? capacity ids m a with
  | none =>
    obtain ⟨e, _, he⟩ := serving_of_server_none hc hsrv
    cases he.symm.trans hs
  | some id' =>
    obtain ⟨b', hb, lo, hi, hs'⟩ := serving_of_server hc hsrv
    cases hs'.symm.trans hs
    exact ⟨lo, hi⟩

end Chip8.Bus
