import Chip8.CallStack

/-! # The stack as a list

A push adds one address at the end of the list, a pop takes the last one off, and each
refuses on a full and on an empty stack. A refusal leaves the stack as it was. -/

namespace Chip8

/-- As far as there is room, every positive capacity that a list can have is granted. -/
theorem CapacityError.check_of_holds {room : Room} {capacity : Int} (h : 1 ≤ capacity)
    (hitems : capacity ≤ Limit.items) (hroom : room.holds capacity.toNat) :
    check room capacity = .ok capacity.toNat := by
  have hlist : ¬ (Limit.items < capacity.toNat ∧ capacity.toNat ≤ Limit.count) := by omega
  have hcount : ¬ Limit.count < capacity.toNat := by
    unfold Limit.items at hitems
    omega
  unfold check Room.checkItems Room.check
  rw [if_pos (by omega), if_neg hlist, if_neg hcount, if_pos hroom]

namespace CallStack

theorem depth_le (s : CallStack) : s.depth ≤ s.capacity := s.size_le

theorem length_toList (s : CallStack) : s.toList.length = s.depth := Array.length_toList

theorem push_of_ok {s t : CallStack} {a : Int} (h : push a s = .ok () t) :
    s.depth < s.capacity ∧ t.toList = s.toList ++ [wordOf a] ∧ t.capacity = s.capacity := by
  unfold push at h
  split at h
  · rename_i hlt
    cases h
    exact ⟨hlt, Array.toList_push, rfl⟩
  · cases h

theorem push_of_error {s t : CallStack} {a : Int} {e : StackFault} (h : push a s = .error e t) :
    s.depth = s.capacity ∧ e = .overflow a s.capacity ∧ t = s := by
  unfold push at h
  split at h
  · cases h
  · rename_i hge
    cases h
    exact ⟨Nat.le_antisymm s.depth_le (Nat.le_of_not_lt hge), rfl, rfl⟩

theorem pop_of_ok {s t : CallStack} {a : UInt16} (h : pop s = .ok a t) :
    s.toList = t.toList ++ [a] ∧ t.capacity = s.capacity := by
  unfold pop at h
  split at h
  · cases h
  · rename_i hb
    cases h
    obtain ⟨xs, hxs⟩ := Array.back?_eq_some_iff.mp hb
    refine ⟨?_, rfl⟩
    simp [toList, hxs]

theorem pop_of_empty {s : CallStack} (h : s.depth = 0) : pop s = .error .underflow s := by
  have hb : s.addresses.back? = none := by
    rw [Array.back?_eq_none_iff]
    exact Array.size_eq_zero_iff.mp h
  unfold pop
  split
  · rfl
  · rename_i he
    rw [hb] at he
    cases he

theorem push_of_full {s : CallStack} (a : Int) (h : s.depth = s.capacity) :
    push a s = .error (.overflow a s.capacity) s :=
  dif_neg (Nat.not_lt.mpr (Nat.le_of_eq h.symm))

theorem pop_of_error {s t : CallStack} {e : StackFault} (h : pop s = .error e t) :
    s.depth = 0 ∧ e = .underflow ∧ t = s := by
  unfold pop at h
  split at h
  · rename_i hb
    cases h
    exact ⟨by simpa [depth] using hb, rfl, rfl⟩
  · cases h

end CallStack

end Chip8
