import Chip8.Proofs.CallStack
import Chip8.Proofs.Outcome

/-! # A stack in a row of cells

A stack can be kept in a row of cells with a count of those that matter. A push writes the next
cell, and a return leaves its address behind in the cell that it gives up, so behind the count the
cells hold what they held before. Nothing of that is seen: cells, stacks and plain lists answer
every run of operations alike. -/

namespace Chip8

/-- The cells of a stack, of which the first `depth` count. -/
structure Slots where
  cells : Array UInt16
  depth : Nat
  depth_le : depth ≤ cells.size

namespace Slots

def fresh (capacity : Nat) : Slots := ⟨Array.replicate capacity 0, 0, Nat.zero_le _⟩

def push (address : Int) : EStateM StackFault Slots Unit := fun s =>
  if h : s.depth < s.cells.size then
    .ok () { cells := s.cells.set s.depth (wordOf address) h
             depth := s.depth + 1
             depth_le := by rw [Array.size_set]; exact h }
  else .error (.overflow address s.cells.size) s

/-- The address stays in its cell. -/
def pop : EStateM StackFault Slots UInt16 := fun s =>
  if h : 0 < s.depth then
    have hlt : s.depth - 1 < s.cells.size := Nat.sub_one_lt_of_le h s.depth_le
    .ok s.cells[s.depth - 1]
      { s with depth := s.depth - 1, depth_le := Nat.le_of_lt hlt }
  else .error .underflow s

def clear (s : Slots) : Slots := fresh s.cells.size

/-- The addresses that count. -/
def shown (s : Slots) : CallStack where
  capacity := s.cells.size
  addresses := s.cells.extract 0 s.depth
  size_le := by rw [Array.size_extract]; omega

/-- The first stack is what the cells show. -/
abbrev Shows (s : Slots) (t : CallStack) : Prop := s.shown = t

variable (s : Slots)

theorem depth_shown : s.shown.depth = s.depth := by
  have := s.depth_le
  simp [shown, CallStack.depth]
  omega

theorem shown_fresh (capacity : Nat) : (fresh capacity).shown = .empty capacity := by
  simp [shown, fresh, CallStack.empty]

theorem shown_clear : s.clear.shown = s.shown.clear := shown_fresh s.cells.size

theorem push_of_error {s t : Slots} {a : Int} {e : StackFault} (h : push a s = .error e t) :
    t = s := by
  unfold push at h
  split at h <;> cases h
  rfl

theorem pop_of_error {s t : Slots} {e : StackFault} (h : pop s = .error e t) : t = s := by
  unfold pop at h
  split at h <;> cases h
  rfl

/-- A push writes the first cell that does not count, whatever is in it. -/
theorem push_inStep (address : Int) :
    InStep Shows (push address s) (CallStack.push address s.shown) := by
  have hdepth : s.shown.addresses.size = s.depth := s.depth_shown
  unfold push CallStack.push
  by_cases h : s.depth < s.cells.size
  · have hcells : (s.cells.set s.depth (wordOf address) h).extract 0 (s.depth + 1) =
        (s.cells.extract 0 s.depth).push (wordOf address) := by
      rw [Array.extract_succ_right (Nat.zero_lt_succ _) (by rwa [Array.size_set]),
        Array.getElem_set_self, Array.extract_set, dif_neg (Nat.not_lt_zero _),
        dif_neg (by omega)]
    rw [dif_pos h, dif_pos (hdepth ▸ h)]
    refine .ok ?_
    simp only [Shows, shown, Array.size_set, hcells]
  · rw [dif_neg h, dif_neg (hdepth ▸ h)]
    exact .error rfl

/-- A return reads the last cell that counts. -/
theorem pop_inStep : InStep Shows (pop s) (CallStack.pop s.shown) := by
  unfold pop
  by_cases h : 0 < s.depth
  · have hlt : s.depth - 1 < s.cells.size := Nat.sub_one_lt_of_le h s.depth_le
    -- what counts ends with the address that is taken off, whatever the cells hold behind it
    have hcells : s.cells.extract 0 s.depth =
        (s.cells.extract 0 (s.depth - 1)).push s.cells[s.depth - 1] := by
      rw [← Array.extract_succ_right (Nat.zero_lt_succ _) hlt, Nat.sub_add_cancel h]
    rw [dif_pos h]
    unfold CallStack.pop
    split
    · rename_i hnone
      change (s.cells.extract 0 s.depth).back? = none at hnone
      rw [hcells, Array.back?_push] at hnone
      cases hnone
    · rename_i hsome
      change (s.cells.extract 0 s.depth).back? = some _ at hsome
      rw [hcells, Array.back?_push] at hsome
      cases hsome
      refine .ok ?_
      simp only [Shows, shown, hcells, Array.pop_push]
  · rw [dif_neg h, CallStack.pop_of_empty (by rw [depth_shown]; omega)]
    exact .error rfl

end Slots

/-! ## Operations -/

namespace CallStack

inductive Operation
  | push (address : Int)
  | pop
  | peek
  | clear

inductive Answer
  | done
  | address (a : Int)
  /-- What is on top, if anything is. -/
  | top (a : Option Int)
deriving DecidableEq

/-- A way to keep a stack: what can be done with it, and what can be seen of it. -/
structure Keeping (σ : Type) where
  push : Int → EStateM StackFault σ Unit
  pop : EStateM StackFault σ Int
  peek? : σ → Option Int
  clear : σ → σ
  /-- The oldest first. -/
  numbers : σ → List Int
  depth : σ → Nat

namespace Keeping

variable {σ τ : Type}

def perform (k : Keeping σ) : Operation → EStateM StackFault σ Answer
  | .push a => do
    k.push a
    return .done
  | .pop => return .address (← k.pop)
  | .peek => return .top (k.peek? (← get))
  | .clear => do
    modify k.clear
    return .done

/-- What a run of operations shows: the answer or the fault of each of them, and what can be seen
of the stack behind it. -/
def exchanges (k : Keeping σ) : List Operation → σ → List (Except StackFault Answer × List Int × Nat)
  | [], _ => []
  | op :: ops, s =>
    match k.perform op s with
    | .ok a s => (.ok a, k.numbers s, k.depth s) :: k.exchanges ops s
    | .error e s => (.error e, k.numbers s, k.depth s) :: k.exchanges ops s

/-- The state behind a run of operations, each of them carried out or refused. -/
def performAll (k : Keeping σ) (ops : List Operation) (s : σ) : σ :=
  ops.foldl (fun s op => leftBy (k.perform op) s) s

/-- Two ways of keeping a stack that do and show the same. -/
structure Alike (R : σ → τ → Prop) (k : Keeping σ) (k' : Keeping τ) : Prop where
  push : ∀ {s t}, R s t → ∀ a, InStep R (k.push a s) (k'.push a t)
  pop : ∀ {s t}, R s t → InStep R (k.pop s) (k'.pop t)
  peek : ∀ {s t}, R s t → k.peek? s = k'.peek? t
  clear : ∀ {s t}, R s t → R (k.clear s) (k'.clear t)
  numbers : ∀ {s t}, R s t → k.numbers s = k'.numbers t
  depth : ∀ {s t}, R s t → k.depth s = k'.depth t

variable {R : σ → τ → Prop} {k : Keeping σ} {k' : Keeping τ} {s : σ} {t : τ}

theorem Alike.perform (h : Alike R k k') (hr : R s t) (op : Operation) :
    InStep R (k.perform op s) (k'.perform op t) := by
  cases op with
  | push a => exact (h.push hr a).bind fun _ _ _ hr => .ok hr
  | pop => exact (h.pop hr).bind fun _ _ _ hr => .ok hr
  | peek =>
    have hpeek : k'.perform .peek t = .ok (.top (k.peek? s)) t := by
      rw [h.peek hr]
      rfl
    rw [hpeek]
    exact .ok hr
  | clear => exact .ok (h.clear hr)

theorem Alike.exchanges (h : Alike R k k') (ops : List Operation) : ∀ {s t}, R s t →
    k.exchanges ops s = k'.exchanges ops t := by
  induction ops with
  | nil => exact fun _ => rfl
  | cons op ops ih =>
    intro s t hr
    have hstep := h.perform hr op
    unfold Keeping.exchanges
    generalize k.perform op s = x at hstep ⊢
    generalize k'.perform op t = y at hstep ⊢
    cases hstep with
    | ok hr | error hr => simp only [h.numbers hr, h.depth hr, ih hr]

theorem Alike.performAll (h : Alike R k k') (ops : List Operation) : ∀ {s t}, R s t →
    R (k.performAll ops s) (k'.performAll ops t) := by
  induction ops with
  | nil => exact fun hr => hr
  | cons op ops ih => exact fun hr => ih (h.perform hr op).leftBy

/-- Where neither a push nor a pop that is refused changes anything, no operation does. -/
theorem eq_of_perform_error (hpush : ∀ a {s e t}, k.push a s = .error e t → t = s)
    (hpop : ∀ {s e t}, k.pop s = .error e t → t = s) (op : Operation) {s t : σ} {e : StackFault}
    (h : k.perform op s = .error e t) : t = s := by
  cases op with
  | push a => exact hpush a (bind_pure_eq_error.mp h)
  | pop => exact hpop (bind_pure_eq_error.mp h)
  | peek | clear => cases h

end Keeping

/-! ## Stacks as lists -/

def numberOf (a : UInt16) : Int := a.toNat

def keeping : Keeping CallStack where
  push := push
  pop := return numberOf (← pop)
  peek? s := s.peek?.map numberOf
  clear := clear
  numbers s := s.toList.map numberOf
  depth := depth

/-- A list that has room for so many numbers, the last of them on top. -/
def listKeeping (capacity : Nat) : Keeping (List Int) where
  push a l :=
    if l.length = capacity then .error (.overflow a capacity) l else .ok () (l ++ [a % 65536])
  pop l :=
    match l.getLast? with
    | none => .error .underflow l
    | some a => .ok a l.dropLast
  peek? := List.getLast?
  clear _ := []
  numbers := id
  depth := List.length

/-- Kept like this, and begun like this, a stack is a list that has room for so many numbers. What
is refused changes nothing. -/
structure Keeping.BoundedList {σ : Type} (k : Keeping σ) (capacity : Nat) (start : σ) : Prop where
  exchanges : ∀ ops, k.exchanges ops start = (listKeeping capacity).exchanges ops []
  depth : ∀ ops, k.depth (k.performAll ops start) ≤ capacity
  refused : ∀ op s e t, k.perform op s = .error e t → t = s

/-- The stack holds what the list holds, and has this capacity. -/
def Lists (capacity : Nat) (s : CallStack) (l : List Int) : Prop :=
  s.capacity = capacity ∧ s.toList.map numberOf = l

variable {s : CallStack} {l : List Int} {capacity : Nat}

theorem numberOf_wordOf (a : Int) : numberOf (wordOf a) = a % 65536 := by
  unfold numberOf
  rw [toNat_wordOf]
  omega

theorem Lists.length (h : Lists capacity s l) : l.length = s.depth := by
  rw [← h.2, List.length_map, length_toList]

theorem push_inStep (h : Lists capacity s l) (a : Int) :
    InStep (Lists capacity) (push a s) ((listKeeping capacity).push a l) := by
  have hlength := h.length
  obtain ⟨rfl, rfl⟩ := h
  dsimp only [listKeeping]
  rw [hlength]
  cases hpush : push a s with
  | ok u t =>
    obtain ⟨hroom, hlist, hcapacity⟩ := push_of_ok hpush
    rw [if_neg (Nat.ne_of_lt hroom)]
    refine .ok ⟨hcapacity, ?_⟩
    rw [hlist, List.map_append, List.map_singleton, numberOf_wordOf]
  | error e t =>
    obtain ⟨hfull, rfl, rfl⟩ := push_of_error hpush
    rw [if_pos hfull]
    exact .error ⟨rfl, rfl⟩

theorem pop_inStep (h : Lists capacity s l) :
    InStep (Lists capacity) (keeping.pop s) ((listKeeping capacity).pop l) := by
  have hlength := h.length
  obtain ⟨rfl, rfl⟩ := h
  dsimp only [listKeeping]
  cases hpop : pop s with
  | ok a t =>
    obtain ⟨hlist, hcapacity⟩ := pop_of_ok hpop
    have hkeeping : keeping.pop s = .ok (numberOf a) t := bind_eq_ok.mpr ⟨a, t, hpop, rfl⟩
    rw [hkeeping, hlist, List.map_append, List.map_singleton, List.getLast?_concat,
      List.dropLast_concat]
    exact .ok ⟨hcapacity, rfl⟩
  | error e t =>
    obtain ⟨hempty, rfl, rfl⟩ := pop_of_error hpop
    have hkeeping : keeping.pop t = .error .underflow t := bind_eq_error.mpr (.inl hpop)
    have hnil := List.length_eq_zero_iff.mp (hlength.trans hempty)
    rw [hkeeping, hnil]
    exact .error ⟨rfl, hnil⟩

theorem peek?_eq (s : CallStack) : s.peek? = s.toList.getLast? := (Array.getLast?_toList ..).symm

theorem keeping_alike (capacity : Nat) :
    Keeping.Alike (Lists capacity) keeping (listKeeping capacity) where
  push h a := push_inStep h a
  pop h := pop_inStep h
  peek {s l} h := by
    change s.peek?.map numberOf = l.getLast?
    rw [peek?_eq, ← h.2, List.getLast?_map]
  clear h := ⟨h.1, rfl⟩
  numbers h := h.2
  depth h := h.length.symm

theorem boundedList (capacity : Nat) : keeping.BoundedList capacity (.empty capacity) where
  exchanges ops := (keeping_alike capacity).exchanges ops ⟨rfl, rfl⟩
  depth ops := by
    have hlists : Lists capacity (keeping.performAll ops (.empty capacity)) _ :=
      (keeping_alike capacity).performAll ops ⟨rfl, rfl⟩
    have hle := depth_le (keeping.performAll ops (.empty capacity))
    rwa [hlists.1] at hle
  refused op s e t := Keeping.eq_of_perform_error (fun a s e t he => (push_of_error he).2.2)
    (fun he => (pop_of_error (bind_pure_eq_error.mp he)).2.2) op

end CallStack

/-! ## Cells as stacks -/

namespace Slots

open CallStack (Keeping numberOf)

/-- The last cell that counts. -/
def peek? (s : Slots) : Option UInt16 := if 0 < s.depth then s.cells[s.depth - 1]? else none

def keeping : Keeping Slots where
  push := push
  pop := return numberOf (← pop)
  peek? s := s.peek?.map numberOf
  clear := clear
  numbers s := (s.cells.toList.take s.depth).map numberOf
  depth := depth

theorem toList_shown (s : Slots) : s.shown.toList = s.cells.toList.take s.depth := by
  simp [shown, CallStack.toList]

theorem peek?_shown (s : Slots) : s.peek? = s.shown.peek? := by
  have hle := s.depth_le
  rw [CallStack.peek?_eq, toList_shown, List.getLast?_take, Array.getElem?_toList, peek?]
  by_cases h : 0 < s.depth
  · have hlt : s.depth - 1 < s.cells.size := by omega
    rw [if_pos h, if_neg (by omega), Array.getElem?_eq_getElem hlt]
    rfl
  · rw [if_neg h, if_pos (by omega)]

theorem keeping_alike : Keeping.Alike Shows keeping CallStack.keeping where
  push {s _} h a := h ▸ push_inStep s a
  pop {s _} h := h ▸ (pop_inStep s).bind fun _ _ _ h => .ok h
  peek {s _} h := h ▸ congrArg (Option.map numberOf) (peek?_shown s)
  clear {s _} h := h ▸ s.shown_clear
  numbers {s _} h := h ▸ congrArg (List.map numberOf) (toList_shown s).symm
  depth {s _} h := h ▸ s.depth_shown.symm

theorem boundedList (capacity : Nat) : keeping.BoundedList capacity (.fresh capacity) where
  exchanges ops := (keeping_alike.exchanges ops (shown_fresh capacity)).trans
    ((CallStack.boundedList capacity).exchanges ops)
  depth ops := by
    have hshows := keeping_alike.performAll ops (shown_fresh capacity)
    rw [keeping_alike.depth hshows]
    exact (CallStack.boundedList capacity).depth ops
  refused op s e t := Keeping.eq_of_perform_error (fun a => push_of_error)
    (fun he => pop_of_error (bind_pure_eq_error.mp he)) op

end Slots

namespace CallStack

/-- Every stack is a bounded list of numbers below 65536, and it makes no difference that the cells
keep what was taken off. -/
theorem answers_as_list {asked : Int} (h : 1 ≤ asked) :
    (∀ room : Room, asked ≤ Limit.items → room.holds asked.toNat →
      ofCapacity asked room = .ok (.empty asked.toNat)) ∧
    keeping.BoundedList asked.toNat (.empty asked.toNat) ∧
    Slots.keeping.BoundedList asked.toNat (.fresh asked.toNat) := by
  refine ⟨fun room hitems hroom => ?_, boundedList _, Slots.boundedList _⟩
  rw [ofCapacity, CapacityError.check_of_holds h hitems hroom]
  rfl

/-- Of two cells both are filled, with an address that is cut to a word. A third address is refused,
and behind a return the cell that it gave up is filled again. -/
theorem answers_as_list_two : 1 ≤ (2 : Int) ∧
    Slots.keeping.exchanges [.push (-2), .push 7, .push 8, .pop, .pop, .pop, .push 65537, .peek]
        (.fresh 2) =
      [(.ok .done, [65534], 1), (.ok .done, [65534, 7], 2),
        (.error (.overflow 8 2), [65534, 7], 2), (.ok (.address 7), [65534], 1),
        (.ok (.address 65534), [], 0), (.error .underflow, [], 0), (.ok .done, [1], 1),
        (.ok (.top (some 1)), [1], 1)] := by
  have h : 1 ≤ (2 : Int) := by decide
  exact ⟨h, (answers_as_list h).2.2.exchanges _⟩

end CallStack

end Chip8
