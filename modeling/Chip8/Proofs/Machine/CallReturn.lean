import Chip8.Proofs.Machine.Bounds
import Chip8.Proofs.Machine.Event
import Chip8.Proofs.Machine.FaultDomain

/-! # Calls and returns

Only calls and returns that are carried out move the stack, a call by adding the address
behind it and a return by taking the last address off. So the address that a call adds
stays where it is, whatever goes on above it, until the stack is as deep again as before
the call, and it is a return that comes back to that depth and to that address. -/

namespace Chip8

namespace Event

open Machine
open InstructionTable (Decodes)

/-- The word that an event carried out, if it is a cycle that went through. -/
def executed (m : Machine) : Event → Option Nat
  | cycle => match Machine.cycle m with
    | .ok _ _ => (m.bus.load16 m.cpu.pc).toOption
    | .error _ _ => none
  | _ => none

/-- The word is 2NNN. -/
def isCall (w : Nat) : Bool := w / 4096 == 2

/-- The word is 00EE. -/
def isReturn (w : Nat) : Bool := w == 0x00EE

/-- How many words of a kind a run carries out. -/
def tally (kind : Nat → Bool) : Machine → List Event → Nat
  | _, [] => 0
  | m, e :: es => (if (e.executed m).any kind then 1 else 0) + tally kind (e.after m) es

/-! ## One event -/

/-- The standard map and the standard table. No event changes them. -/
structure Regular (m : Machine) : Prop where
  wired : m.Wired
  table : m.table = .standard

theorem executed_eq_some {m : Machine} {e : Event} {w : Nat} : e.executed m = some w ↔
    e = cycle ∧ m.bus.load16 m.cpu.pc = .ok w ∧ ∃ i t, Machine.cycle m = .ok i t := by
  cases e with
  | cycle =>
    unfold executed
    cases Machine.cycle m with
    | ok i t =>
      cases m.bus.load16 m.cpu.pc with
      | ok v => simp [Except.toOption]
      | error f => simp [Except.toOption]
    | error f t => simp
  | _ => simp [executed]

theorem executed_of_error {m t : Machine} {f : Fault} (h : Machine.cycle m = .error f t) :
    executed m cycle = none := by
  unfold executed
  rw [h]

theorem executed_of_ne_cycle {m : Machine} {e : Event} (h : e ≠ cycle) : e.executed m = none := by
  cases e with
  | cycle => exact absurd rfl h
  | _ => rfl

theorem tally_singleton (kind : Nat → Bool) (m : Machine) (e : Event) :
    tally kind m [e] = if (e.executed m).any kind then 1 else 0 := rfl

theorem tally_cons (kind : Nat → Bool) (m : Machine) (e : Event) (es : List Event) :
    tally kind m (e :: es) = tally kind m [e] + tally kind (e.after m) es := rfl

theorem tally_append (kind : Nat → Bool) (m : Machine) (es fs : List Event) :
    tally kind m (es ++ fs) = tally kind m es + tally kind (run m es) fs := by
  induction es generalizing m with
  | nil => exact (Nat.zero_add _).symm
  | cons e es ih =>
    rw [List.cons_append, tally_cons, ih, tally_cons kind m e es, Nat.add_assoc]
    rfl

theorem Regular.after {m : Machine} (h : Regular m) (e : Event) : Regular (e.after m) := by
  obtain ⟨o, m₀, hc, hm⟩ := h.wired
  have hl := (stored_after h.wired.standard.covered e).layout
  exact ⟨⟨o, m₀, hc, hl.trans hm⟩, (table_after m e).trans h.table⟩

/-- What an event does to the stack. -/
inductive StackStep (m : Machine) (e : Event) (t : Machine) : Prop
  | still (h : t.stack = m.stack) (hc : (e.executed m).any isCall = false)
      (hr : (e.executed m).any isReturn = false)
  | call {w : Nat} (h : e.executed m = some w) (hw : isCall w = true) (hr : isReturn w = false)
      (hs : t.stack.toList = m.stack.toList ++ [wordOf (m.cpu.pc + 2)])
  | back {a : UInt16} (he : e = cycle) (h : e.executed m = some 0x00EE)
      (hs : m.stack.toList = t.stack.toList ++ [a]) (hpc : t.cpu.pc = a.toNat)

theorem isCall_iff {w : Nat} {r : Routine} (hw : w < 65536) (hd : Decodes w r) :
    isCall w = true ↔ r = .call := by
  unfold isCall
  rw [beq_iff_eq, ← Routine.accepts_call hw]
  exact hd.accepts_iff (by decide)

theorem isReturn_iff {w : Nat} {r : Routine} (hw : w < 65536) (hd : Decodes w r) :
    isReturn w = true ↔ r = .returnFrom := by
  unfold isReturn
  rw [beq_iff_eq, ← Routine.accepts_returnFrom hw]
  exact hd.accepts_iff (by decide)

theorem stackStep_cycle {m t : Machine} {i : Instruction} (h : Regular m)
    (hc : Machine.cycle m = .ok i t) : StackStep m cycle t := by
  obtain ⟨w, r, u, hf, hrun, rfl⟩ := cycle_eq_ok.mp hc
  have hlt := Bus.load16_lt hf.word
  have hd := hf.decodes h.table
  have hex : executed m cycle = some w := executed_eq_some.mpr ⟨rfl, hf.word, i, _, hc⟩
  have hcall := isCall_iff hlt hd
  have hreturn := isReturn_iff hlt hd
  cases r with
  | returnFrom =>
    obtain ⟨a, s, hp, rfl⟩ := Routine.run_returnFrom.mp hrun
    have hw : w = 0x00EE := beq_iff_eq.mp (hreturn.mpr rfl)
    rw [hw] at hex
    exact .back rfl hex (CallStack.pop_of_ok hp).1 rfl
  | call =>
    obtain ⟨s, hp, rfl⟩ := Routine.run_call.mp hrun
    have hn : isReturn w = false := by
      rw [← Bool.not_eq_true, hreturn]
      decide
    refine .call hex (hcall.mpr rfl) hn ?_
    obtain ⟨lo, hi⟩ := h.wired.standard.load16_eq_ok.mp ⟨w, hf.word⟩
    rw [← pc_behind lo hi]
    exact (CallStack.push_of_ok hp).2.1
  | _ =>
    have hs : u.stack = m.behind.stack := Routine.run_same (p := .stack) hrun (by decide)
    have hn : isCall w = false ∧ isReturn w = false := by
      rw [← Bool.not_eq_true, ← Bool.not_eq_true, hcall, hreturn]
      decide
    refine .still hs ?_ ?_
    · rw [hex]
      exact hn.1
    · rw [hex]
      exact hn.2

theorem stackStep {m : Machine} {e : Event} (h : Regular m) (he : e ≠ reset) :
    StackStep m e (e.after m) := by
  by_cases hc : e = cycle
  · rw [hc]
    rcases after_cycle h.wired.standard.covered with ⟨i, t, hcyc, ht⟩ | ⟨⟨f, hcyc⟩, ht⟩
    · rw [ht]
      exact stackStep_cycle h hcyc
    · have hex := executed_of_error hcyc
      rw [ht]
      exact .still rfl (by rw [hex]; rfl) (by rw [hex]; rfl)
  · have hex : e.executed m = none := executed_of_ne_cycle hc
    refine .still ?_ (by rw [hex]; rfl) (by rw [hex]; rfl)
    rw [(after_aside m hc he).rest]

/-! ## Runs -/

/-- Over a run the stack grows by the calls and shrinks by the returns. -/
theorem depth_balance {es : List Event} (hes : reset ∉ es) : ∀ {m : Machine}, Regular m →
    (run m es).stack.depth + tally isReturn m es = m.stack.depth + tally isCall m es := by
  induction es with
  | nil => intro m _; rfl
  | cons e es ih =>
    intro m h
    have he : e ≠ reset := fun h => hes (h ▸ List.mem_cons_self)
    have hrest := ih (fun h => hes (List.mem_cons_of_mem e h)) (h.after e)
    change (run (e.after m) es).stack.depth + (_ + tally isReturn (e.after m) es) =
      m.stack.depth + (_ + tally isCall (e.after m) es)
    cases stackStep h he with
    | still hs hc hr =>
      rw [hs] at hrest
      rw [hc, hr]
      simp only [Bool.false_eq_true, if_false]
      omega
    | call hex hw hr hs =>
      have hd := congrArg List.length hs
      rw [CallStack.length_toList, List.length_append, CallStack.length_toList,
        List.length_singleton] at hd
      rw [hex, Option.any_some, Option.any_some, hw, hr]
      simp only [Bool.false_eq_true, if_false, if_true]
      omega
    | back _ hex hs _ =>
      have hd := congrArg List.length hs
      rw [List.length_append, CallStack.length_toList, CallStack.length_toList,
        List.length_singleton] at hd
      rw [hex, Option.any_some, Option.any_some, show isReturn 0x00EE = true from rfl,
        show isCall 0x00EE = false from rfl]
      simp only [Bool.false_eq_true, if_false, if_true]
      omega

/-- As long as the stack is deeper than `s`, the address above `s` stays in its place, and
it is a return to this address that brings the stack back to the depth of `s`. -/
theorem returns_to {s : List UInt16} {a : UInt16} {es : List Event} (hes : reset ∉ es) :
    ∀ {m : Machine}, Regular m → s ++ [a] <+: m.stack.toList →
      (∀ k < es.length, s.length + 1 ≤ (run m (es.take k)).stack.depth) →
      (run m es).stack.depth = s.length →
      ∃ body, es = body ++ [cycle] ∧ executed (run m body) cycle = some 0x00EE ∧
        (run m es).cpu.pc = a.toNat ∧ (run m es).stack.toList = s := by
  induction es with
  | nil =>
    intro m _ hpre _ hend
    have := hpre.length_le
    rw [List.length_append, List.length_singleton, CallStack.length_toList] at this
    change m.stack.depth = _ at hend
    omega
  | cons e es ih =>
    intro m h hpre hdeep hend
    have he : e ≠ reset := fun h => hes (h ▸ List.mem_cons_self)
    have hlen := hpre.length_le
    rw [List.length_append, List.length_singleton] at hlen
    by_cases hd : s.length + 1 ≤ (e.after m).stack.depth
    · -- still deeper than `s`: the address keeps its place, and the rest of the run follows
      have hpre' : s ++ [a] <+: (e.after m).stack.toList := by
        cases stackStep h he with
        | still hs _ _ => rw [hs]; exact hpre
        | call _ _ _ hs =>
          rw [hs]
          exact hpre.trans (List.prefix_append _ _)
        | back _ _ hs _ =>
          refine List.prefix_of_prefix_length_le hpre (by rw [hs]; exact List.prefix_append _ _) ?_
          rw [List.length_append, List.length_singleton, CallStack.length_toList]
          exact hd
      obtain ⟨body, rfl, hex, hpc, hstack⟩ := ih (fun h => hes (List.mem_cons_of_mem e h))
        (h.after e) hpre' (fun k hk => hdeep (k + 1) (Nat.succ_lt_succ hk)) hend
      exact ⟨e :: body, rfl, hex, hpc, hstack⟩
    · -- no longer deeper than `s`: the run ends here, with the return
      obtain rfl : es = [] := by
        cases es with
        | nil => rfl
        | cons f fs => exact absurd (hdeep 1 (by simp)) hd
      change (e.after m).stack.depth = s.length at hend
      rw [← CallStack.length_toList] at hend
      cases stackStep h he with
      | still hs _ _ =>
        rw [hs] at hend
        omega
      | call _ _ _ hs =>
        rw [hs, List.length_append] at hend
        omega
      | back hc hex hs hpc =>
        rw [hs] at hpre
        have heq := hpre.eq_of_length (by simp [hend])
        obtain ⟨hs', ha⟩ := List.append_inj' heq rfl
        cases ha
        exact ⟨[], by rw [hc]; rfl, by rw [← hc]; exact hex, hpc, hs'.symm⟩

theorem Regular.run {m : Machine} (h : Regular m) (es : List Event) : Regular (run m es) := by
  induction es generalizing m with
  | nil => exact h
  | cons e es ih => exact ih (h.after e)

theorem run_behind (m : Machine) (before within : List Event) :
    run m (before ++ cycle :: within) = run (cycle.after (run m before)) within := by
  rw [run_append, run_cons]

/-- Over every run without a reset the stack balances calls and returns. And where a call is
carried out, from then on the stack stays deeper than it was, and later it is as deep again:
the last event of all that is a return, and it restores the stack of the call and goes on
behind it. -/
theorem call_discipline {m : Machine} (h : Regular m) {es : List Event} (hes : reset ∉ es) :
    (run m es).stack.depth + tally isReturn m es = m.stack.depth + tally isCall m es ∧
    ∀ before within rest, es = before ++ cycle :: (within ++ rest) →
      ∀ w, executed (run m before) cycle = some w → w / 4096 = 2 →
        (∀ k < within.length, (run m before).stack.depth + 1 ≤
          (run m (before ++ cycle :: within.take k)).stack.depth) →
        (run m (before ++ cycle :: within)).stack.depth = (run m before).stack.depth →
        ∃ body, within = body ++ [cycle] ∧
          executed (run m (before ++ cycle :: body)) cycle = some 0x00EE ∧
          (run m (before ++ cycle :: within)).cpu.pc = (run m before).cpu.pc + 2 ∧
          (run m (before ++ cycle :: within)).stack.toList = (run m before).stack.toList := by
  refine ⟨depth_balance hes h, ?_⟩
  intro before within rest he w hex hw hdeep hend
  subst he
  have hc := h.run before
  have hwithin : reset ∉ within := fun hr => hes (by simp [hr])
  obtain ⟨_, hword, _⟩ := executed_eq_some.mp hex
  simp only [run_behind] at hdeep hend ⊢
  cases stackStep hc (e := cycle) (by decide) with
  | still _ hn _ =>
    rw [hex] at hn
    exact absurd hw (by simpa [isCall] using hn)
  | back _ hret _ _ =>
    rw [hex] at hret
    cases hret
    cases hw
  | call _ _ _ hs =>
    have hpc := hc.wired.standard.load16_eq_ok.mp ⟨w, hword⟩
    have hreturn : ((wordOf ((run m before).cpu.pc + 2)).toNat : Int) =
        (run m before).cpu.pc + 2 := by
      rw [toNat_wordOf]
      omega
    simp only [← CallStack.length_toList (run m before).stack] at hdeep hend
    have hback := returns_to hwithin (hc.after cycle) ⟨[], by rw [hs, List.append_nil]⟩ hdeep hend
    rw [hreturn] at hback
    exact hback

/-! A call of the subroutine at 0x060, which is nothing but a return. Two bytes of the font
are the call. -/

def subroutineBus : Bus := blankBus.setBlock 1 (.region .mainRam (blankRam.put 0x11 0xEE))

def caller : Machine := { bare with bus := subroutineBus, cpu := { pc := 5 } }

/-- In the subroutine. -/
def callee : Machine :=
  { caller with cpu := { pc := 0x60 }, stack := ⟨16, #[7], by decide⟩, cycles := 1 }

/-- Behind the call. -/
def returned : Machine := { caller with cpu := { pc := 7 }, stack := ⟨16, #[], by decide⟩, cycles := 2 }

theorem subroutineBus_layout : subroutineBus.layout = blankBus.layout :=
  layout_setRam rfl (Region.size_put blankRam 0x11 0xEE)

theorem caller_regular : Regular caller := ⟨⟨{}, bare, create_bare, subroutineBus_layout⟩, rfl⟩

theorem subroutineBus_call : subroutineBus.load16 (5 : Nat) = .ok 0x2060 := by
  have hs : subroutineBus.Standard := caller_regular.wired.standard
  have hfont : subroutineBus.blocks[0]? = some (.region .font fontRegion) := rfl
  have high := hs.load8_font (a := 5) hfont (by decide)
  have low := hs.load8_font (a := 6) hfont (by decide)
  rw [Bus.load16_of_load8 high low]
  rfl

theorem subroutineBus_return : subroutineBus.load16 (0x60 : Nat) = .ok 0x00EE := by
  have hs : subroutineBus.Standard := caller_regular.wired.standard
  have hram : subroutineBus.blocks[1]? = some (.region .mainRam (blankRam.put 0x11 0xEE)) := rfl
  have high := hs.load8_ram (a := 0x60) hram (by decide) (by decide)
  have low := hs.load8_ram (a := 0x61) hram (by decide) (by decide)
  rw [Bus.load16_of_load8 high low]
  simp [Region.put, blankRam, wordFrom]

theorem caller_cycle : executed caller cycle = some 0x2060 ∧ cycle.after caller = callee := by
  have hw : caller.bus.load16 caller.cpu.pc = .ok 0x2060 := subroutineBus_call
  have hd := InstructionTable.decodes_of_accepts (by decide)
    ((Routine.accepts_call (w := 0x2060) (by decide)).mpr rfl)
  obtain ⟨i, hf⟩ := finds_of_decodes caller_regular.table hw hd
  have hrun : Routine.call.run caller.cpu.pc 0x2060 caller.behind =
      .ok () { callee with cycles := 0 } := rfl
  have hc : Machine.cycle caller = .ok i callee := cycle_eq_ok.mpr ⟨_, _, _, hf, hrun, rfl⟩
  exact ⟨executed_eq_some.mpr ⟨rfl, hw, i, _, hc⟩, after_of_ok hc⟩

theorem callee_cycle : cycle.after callee = returned := by
  have hw : callee.bus.load16 callee.cpu.pc = .ok 0x00EE := subroutineBus_return
  have hd := InstructionTable.decodes_of_accepts (by decide)
    ((Routine.accepts_returnFrom (w := 0x00EE) (by decide)).mpr rfl)
  obtain ⟨i, hf⟩ := finds_of_decodes (m := callee) caller_regular.table hw hd
  have hrun : Routine.returnFrom.run callee.cpu.pc 0x00EE callee.behind =
      .ok () { returned with cycles := 1 } := rfl
  exact after_of_ok (cycle_eq_ok.mpr ⟨_, _, _, hf, hrun, rfl⟩)

theorem caller_discipline :
    Regular caller ∧ reset ∉ [cycle, cycle] ∧ executed caller cycle = some 0x2060 ∧
      (∀ k < [cycle].length,
        caller.stack.depth + 1 ≤ (run caller (cycle :: [cycle].take k)).stack.depth) ∧
      (run caller [cycle, cycle]).stack.depth = caller.stack.depth ∧
      ∃ body, [cycle] = body ++ [cycle] ∧
        executed (run caller (cycle :: body)) cycle = some 0x00EE ∧
        (run caller [cycle, cycle]).cpu.pc = caller.cpu.pc + 2 ∧
        (run caller [cycle, cycle]).stack.toList = caller.stack.toList := by
  obtain ⟨hcall, hcallee⟩ := caller_cycle
  have hdeep : ∀ k < [cycle].length,
      caller.stack.depth + 1 ≤ (run caller (cycle :: [cycle].take k)).stack.depth := by
    intro k hk
    obtain rfl : k = 0 := by simpa using hk
    rw [List.take_zero, run_cons, run_nil, hcallee]
    decide
  have hend : (run caller [cycle, cycle]).stack.depth = caller.stack.depth := by
    rw [run_cons, run_cons, run_nil, hcallee, callee_cycle]
    rfl
  have hreset : reset ∉ [cycle, cycle] := by decide
  have hlaw := (call_discipline caller_regular hreset).2 [] [cycle] [] rfl 0x2060
  simp only [List.nil_append, run_nil] at hlaw
  exact ⟨caller_regular, hreset, hcall, hdeep, hend, hlaw hcall trivial hdeep hend⟩

end Event

end Chip8
