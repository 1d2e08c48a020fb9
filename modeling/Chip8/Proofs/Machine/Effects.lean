import Chip8.Proofs.Machine.CallReturn
import Chip8.Proofs.Machine.Program
import Chip8.Proofs.Random

/-! # Random numbers and pictures over a run

A random number is taken by CXNN alone, the picture is drawn on by DXYN alone and cleared by
00E0 alone, and only where the instruction is carried out. A reset is no exception: the random
numbers go on from where they were, and the picture stays. So after a run the number of each of
these instructions can be read off what they leave behind. -/

namespace Chip8

namespace Display

/-- Text that goes to a terminal is no drawing and no clearing. -/
theorem counts_write (d : Display) (text : String) :
    (d.write text).drawCount = d.drawCount ∧ (d.write text).clearCount = d.clearCount := by
  have hdraws := congrArg drawCount (core_write d text)
  have hclears := congrArg clearCount (core_write d text)
  exact ⟨hdraws, hclears⟩

theorem counts_drawn (d : Display) (screen : FrameBuffer) :
    (d.drawn screen).drawCount = d.drawCount + 1 ∧ (d.drawn screen).clearCount = d.clearCount :=
  counts_write _ _

theorem counts_clear (d : Display) :
    d.clear.drawCount = d.drawCount ∧ d.clear.clearCount = d.clearCount + 1 := by
  unfold clear redraw
  exact ⟨(counts_write _ _).1.trans (counts_write _ _).1,
    (counts_write _ _).2.trans (counts_write _ _).2⟩

end Display

namespace Event

open Machine
open InstructionTable (Decodes)

/-- The word is CXNN. -/
def isRandom (w : Nat) : Bool := w / 4096 == 0xC

/-- The word is DXYN. -/
def isDraw (w : Nat) : Bool := w / 4096 == 0xD

/-- The word is 00E0. -/
def isClear (w : Nat) : Bool := w == 0x00E0

/-- From the one machine to the other so many random numbers were taken, and the picture was
drawn on and cleared so many times. -/
structure Spent (m t : Machine) (randoms draws clears : Nat) : Prop where
  random : ∀ l, m.random = .lanes l → t.random = .lanes (l.after randoms)
  draws : t.display.drawCount = m.display.drawCount + draws
  clears : t.display.clearCount = m.display.clearCount + clears

variable {m t u : Machine} {e : Event} {w : Nat} {kind : Nat → Bool}

theorem Spent.none (hr : t.random = m.random) (hd : t.display = m.display) : Spent m t 0 0 0 :=
  ⟨fun _ hl => hr.trans hl, by rw [hd]; rfl, by rw [hd]; rfl⟩

theorem Spent.trans {a b c a' b' c' : Nat} (h : Spent m t a b c) (h' : Spent t u a' b' c') :
    Spent m u (a + a') (b + b') (c + c') where
  random l hl := by rw [h'.random _ (h.random l hl), Lanes.after_add]
  draws := by rw [h'.draws, h.draws, Nat.add_assoc]
  clears := by rw [h'.clears, h.clears, Nat.add_assoc]

/-! ## One event -/

section Words

variable {r : Routine} (hw : w < 65536) (hd : Decodes w r)
include hw hd

theorem isRandom_iff : isRandom w = true ↔ r = .random := by
  have hl := Operands.val_lead w
  have ha : Routine.random.pattern.accepts w = true ↔ w / 4096 = 0xC := by
    simp only [Routine.pattern, Pattern.accepts_iff, PatternNibble.admits_ofNat,
      PatternNibble.admits_x, PatternNibble.admits_n, and_true]
    omega
  rw [isRandom, beq_iff_eq, ← ha]
  exact hd.accepts_iff (by decide)

theorem isDraw_iff : isDraw w = true ↔ r = .draw := by
  rw [isDraw, beq_iff_eq, ← Routine.accepts_draw hw]
  exact hd.accepts_iff (by decide)

theorem isClear_iff : isClear w = true ↔ r = .clearScreen := by
  have hl := Operands.val_lead w
  have hx := Operands.val_x w
  have hy := Operands.val_y w
  have hn := Operands.val_n w
  have ha : Routine.clearScreen.pattern.accepts w = true ↔ w = 0x00E0 := by
    simp only [Routine.pattern, Pattern.accepts_iff, PatternNibble.admits_ofNat]
    omega
  rw [isClear, beq_iff_eq, ← ha]
  exact hd.accepts_iff (by decide)

end Words

/-- Once for the routine that is asked for, and not at all for the others. -/
def once (r s : Routine) : Nat := if r = s then 1 else 0

theorem spent_run {r : Routine} {pc : Int} (h : r.run pc w m = .ok () t) :
    Spent m t (once r .random) (once r .draw) (once r .clearScreen) := by
  cases r with
  | random =>
    cases h
    exact ⟨fun l hl => by rw [hl]; rfl, rfl, rfl⟩
  | draw =>
    obtain ⟨rows, _, rfl⟩ := Routine.run_draw.mp h
    exact ⟨fun _ hl => hl, (Display.counts_drawn _ _).1, (Display.counts_drawn _ _).2⟩
  | clearScreen =>
    cases h
    exact ⟨fun _ hl => hl, (Display.counts_clear _).1, (Display.counts_clear _).2⟩
  | _ =>
    exact .none (Routine.run_same (p := .random) h (by decide))
      (Routine.run_same (p := .display) h (by decide))

/-- A word that is carried out counts once among the words of its routine. -/
theorem tally_of_executed {r s : Routine} (h : e.executed m = some w)
    (hkind : kind w = true ↔ r = s) : tally kind m [e] = once r s := by
  rw [tally_singleton, h, Option.any_some, once]
  simp only [hkind]

theorem tally_of_not_executed (h : e.executed m = none) : tally kind m [e] = 0 := by
  rw [tally_singleton, h]
  rfl

theorem spent_event (ht : m.table = .standard) (e : Event) : Spent m (e.after m)
    (tally isRandom m [e]) (tally isDraw m [e]) (tally isClear m [e]) := by
  by_cases hc : e = cycle
  · rw [hc]
    cases hcyc : Machine.cycle m with
    | ok i t =>
      obtain ⟨w, r, u, hf, hrun, rfl⟩ := cycle_eq_ok.mp hcyc
      have hlt := Bus.load16_lt hf.word
      have hd := hf.decodes ht
      have hex : executed m cycle = some w := executed_eq_some.mpr ⟨rfl, hf.word, i, _, hcyc⟩
      have hspent := spent_run hrun
      rw [after_of_ok hcyc, tally_of_executed hex (isRandom_iff hlt hd),
        tally_of_executed hex (isDraw_iff hlt hd), tally_of_executed hex (isClear_iff hlt hd)]
      exact ⟨hspent.random, hspent.draws, hspent.clears⟩
    | error f t =>
      have hex := executed_of_error hcyc
      rw [after_of_error hcyc, cycle_error_rest hcyc, tally_of_not_executed hex,
        tally_of_not_executed hex, tally_of_not_executed hex]
      exact .none rfl rfl
  · have hex : e.executed m = none := executed_of_ne_cycle hc
    rw [tally_of_not_executed hex, tally_of_not_executed hex, tally_of_not_executed hex]
    by_cases hr : e = reset
    · rw [hr]
      exact .none rfl rfl
    · rw [(after_aside m hc hr).rest]
      exact .none rfl rfl

/-- The instruction CXNN puts the next random number into `Vx`, but for the bits that are not
in `nn`. -/
theorem get_of_random {l : Lanes} (ht : m.table = .standard) (hl : m.random = .lanes l)
    (h : executed m cycle = some w) (hw : isRandom w = true) :
    (cycle.after m).cpu.v.get (Operands.ofWord w).x =
      l.next.a &&& byteOf (Operands.ofWord w).nn := by
  obtain ⟨_, hword, i, t, hc⟩ := executed_eq_some.mp h
  obtain ⟨w', r, u, hf, hrun, rfl⟩ := cycle_eq_ok.mp hc
  obtain rfl := Except.ok.inj (hf.word.symm.trans hword)
  obtain rfl := (isRandom_iff (Bus.load16_lt hf.word) (hf.decodes ht)).mp hw
  rw [after_of_ok hc]
  cases hrun
  change (setAt m.cpu.v _ (byteOf m.random.next.1 &&& _)).get _ = _
  rw [get_setAt, if_pos rfl, hl]
  exact congrArg (· &&& _) (byteOf_toNat _)

/-! ## Runs -/

theorem spent_of_run (ht : m.table = .standard) (es : List Event) : Spent m (run m es)
    (tally isRandom m es) (tally isDraw m es) (tally isClear m es) := by
  induction es generalizing m with
  | nil => exact .none rfl rfl
  | cons e es ih =>
    rw [run_cons, tally_cons, tally_cons isDraw, tally_cons isClear]
    exact (spent_event ht e).trans (ih ((table_after m e).trans ht))

/-- However a machine with a headless display is run, with resets or without, the random
numbers have come as far as CXNN was carried out, and the display counts the DXYN and the 00E0
that were. The number that a CXNN takes is the next one of the stream by the count of those
before it. A reset leaves the random numbers, the counters and the picture as they are. -/
theorem effects_counted {o : Options} {l : Lanes} {screen : FrameBuffer} (h : create o = .ok m)
    (hd : o.display = .headless screen) (hr : o.random = .lanes l) (es : List Event) :
    (run m es).random = .lanes (l.after (tally isRandom m es)) ∧
    (run m es).display.drawCount = tally isDraw m es ∧
    (run m es).display.clearCount = tally isClear m es ∧
    (∀ before after w, es = before ++ cycle :: after →
      executed (run m before) cycle = some w → isRandom w = true →
        ∃ v, (l.draw (tally isRandom m es)).1[tally isRandom m before]? = some v ∧
          (run m (before ++ [cycle])).cpu.v.get (Operands.ofWord w).x =
            v &&& byteOf (Operands.ofWord w).nn) ∧
    (∀ before after, es = before ++ reset :: after →
      (run m (before ++ [reset])).random = (run m before).random ∧
        (run m (before ++ [reset])).display = (run m before).display) := by
  obtain ⟨ht, _, _, hdisplay, hrandom⟩ := settings_of_create h
  have hspent (es : List Event) := spent_of_run ht es
  have hl : m.random = .lanes l := hrandom.trans hr
  have hzero : m.display.drawCount = 0 ∧ m.display.clearCount = 0 := by
    rw [hdisplay, hd]
    exact ⟨rfl, rfl⟩
  refine ⟨(hspent es).random l hl, ?_, ?_, ?_, ?_⟩
  · rw [(hspent es).draws, hzero.1, Nat.zero_add]
  · rw [(hspent es).clears, hzero.2, Nat.zero_add]
  · intro before after w hes hex hw
    -- this instruction counts as well, so its number is among those that were drawn
    have hone : tally isRandom (run m before) [cycle] = 1 := by
      rw [tally_singleton, hex, Option.any_some, hw]
      rfl
    refine ⟨_, Lanes.getElem?_draw ?_ l, ?_⟩
    · rw [hes, tally_append, tally_cons, hone]
      omega
    · rw [run_append]
      exact get_of_random ((table_run m before).trans ht) ((hspent before).random l hl) hex hw
  · intro before after _
    rw [run_append]
    exact ⟨rfl, rfl⟩

theorem effects_counted_once : ∃ m, create { rom := some [0xC3, 0x0F] } = .ok m ∧
    executed m cycle = some 0xC30F ∧ (run m [cycle]).cpu.v.get 3 = 1 ∧
    (run m [cycle, reset]).random = .lanes (Lanes.seed.after (tally isRandom m [cycle, reset])) ∧
    (run m [cycle, reset]).random = (run m [cycle]).random := by
  let o : Options := { rom := some [0xC3, 0x0F] }
  obtain ⟨m, h⟩ : ∃ m, create o = .ok m := exists_create rfl (by decide) (by decide)
  obtain ⟨ht, hcpu, _⟩ := settings_of_create h
  have hw : m.bus.load16 m.cpu.pc = .ok 0xC30F := by
    rw [hcpu]
    exact load16_program h rfl (k := 0) (by decide)
  have hd : Decodes (0xC30F : Nat) .random :=
    InstructionTable.decodes_of_accepts (by decide) (by decide)
  obtain ⟨i, hf⟩ := finds_of_decodes ht hw hd
  have hc := cycle_eq_ok.mpr ⟨_, _, _, hf, rfl, rfl⟩
  have hex : executed m cycle = some 0xC30F := executed_eq_some.mpr ⟨rfl, hw, i, _, hc⟩
  obtain ⟨hrandom, _, _, hstored, hreset⟩ := effects_counted h rfl rfl [cycle, reset]
  obtain ⟨v, hv, hget⟩ := hstored [] [reset] _ rfl hex rfl
  have hone : tally isRandom m [cycle, reset] = 1 := by
    rw [tally_cons, tally_singleton, hex]
    rfl
  rw [hone] at hv
  obtain rfl : 1 = v := Option.some.inj hv
  exact ⟨m, h, hex, hget, hrandom, (hreset [cycle] [] rfl).1⟩

end Event

end Chip8
