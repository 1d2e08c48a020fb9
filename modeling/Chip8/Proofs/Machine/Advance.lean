import Chip8.Proofs.Machine.CallReturn
import Chip8.Proofs.Machine.Program
import Chip8.Proofs.Pacer.Lockstep

/-! # Block transfers that advance the index

A machine may be set to move the index past the block when FX55 or FX65 was carried out. Nothing
else asks how it is set. So beside a machine that is not set to, it does the same up to the
first of these instructions, and behind it is different in the index alone. -/

namespace Chip8

namespace Machine

/-- The machine, set to move the index past blocks. -/
def advancing (m : Machine) : Machine := { m with advances := true }

/-- The machine with the index past a block of the registers up to `Vx`. -/
def pastBlock (x : Nibble) (m : Machine) : Machine :=
  { m with cpu := { m.cpu with i := (m.cpu.i + (x.val + 1)) % 65536 } }

/-- How it is set has no part in how a machine is switched on. -/
theorem create_advances (o : Options) (b : Bool) :
    create { o with advances := b } = (create o).map fun m => { m with advances := b } := by
  unfold create
  rw [memory_eq]
  simp only [ok_mapError, ok_bind]
  cases o.rom with
  | none => rfl
  | some data =>
    dsimp only
    cases Rom.load data o.romName blankBus <;> rfl

end Machine

namespace Routine

open Machine

variable {r : Routine} {pc : Int} {w : Nat} {m t : Machine} {f : Fault}

/-- The routine moves a block between registers and memory. -/
def Transfers (r : Routine) : Prop := r = storeRegisters ∨ r = loadRegisters

/-- When a routine refuses does not depend on the setting. -/
theorem refuses_advancing : r.Refuses pc w m.advancing f ↔ r.Refuses pc w m f := by
  cases r <;> exact Iff.rfl

theorem run_advancing (hr : ¬ r.Transfers) (h : r.run pc w m = .ok () t) :
    r.run pc w m.advancing = .ok () t.advancing := by
  cases r with
  | storeRegisters => exact absurd (.inl rfl) hr
  | loadRegisters => exact absurd (.inr rfl) hr
  | returnFrom =>
    obtain ⟨a, s, hp, rfl⟩ := run_returnFrom.mp h
    exact run_returnFrom.mpr ⟨a, s, hp, rfl⟩
  | call =>
    obtain ⟨s, hp, rfl⟩ := run_call.mp h
    exact run_call.mpr ⟨s, hp, rfl⟩
  | storeDecimal =>
    obtain ⟨b, hb, rfl⟩ := run_storeDecimal.mp h
    exact run_storeDecimal.mpr ⟨b, hb, rfl⟩
  | draw =>
    obtain ⟨rows, hrows, rfl⟩ := run_draw.mp h
    exact run_draw.mpr ⟨rows, hrows, rfl⟩
  | skipEqualImmediate | skipUnequalImmediate | skipEqual | skipUnequal | skipPressed
  | skipReleased =>
    cases (run_skip rfl).symm.trans h
    exact run_skip rfl
  | waitKey => cases h
  | _ =>
    cases h
    rfl

/-- The index moves last, so the block is the same. -/
theorem run_transfer (hr : r.Transfers) (hm : m.advances = false) (h : r.run pc w m = .ok () t) :
    r.run pc w m.advancing = .ok () (t.pastBlock (Operands.ofWord w).x).advancing := by
  rcases hr with rfl | rfl
  · obtain ⟨b, hb, hadv⟩ := run_storeRegisters.mp h
    rw [advance_eq, if_neg (by simp [hm])] at hadv
    cases hadv
    refine run_storeRegisters.mpr ⟨b, hb, ?_⟩
    rw [advance_eq]
    rfl
  · obtain ⟨bs, hb, hadv⟩ := run_loadRegisters.mp h
    rw [advance_eq, if_neg (by simp [hm])] at hadv
    cases hadv
    refine run_loadRegisters.mpr ⟨bs, hb, ?_⟩
    rw [advance_eq]
    rfl

end Routine

namespace Machine

variable {m t : Machine} {i : Instruction} {f : Fault}

theorem stops_advancing : m.advancing.Stops f ↔ m.Stops f := by
  constructor
  · intro h
    cases h with
    | word h => exact .word (m := m) h
    | illegal h hd => exact .illegal (m := m) h hd
    | noRoutine h hd hr => exact .noRoutine (m := m) h hd hr
    | refused h hr =>
      exact .refused (m := m) ⟨h.word, h.instruction, h.routine⟩
        (Routine.refuses_advancing (m := m.behind).mp hr)
  · intro h
    cases h with
    | word h => exact .word (m := m.advancing) h
    | illegal h hd => exact .illegal (m := m.advancing) h hd
    | noRoutine h hd hr => exact .noRoutine (m := m.advancing) h hd hr
    | refused h hr =>
      exact .refused (m := m.advancing) ⟨h.word, h.instruction, h.routine⟩
        (Routine.refuses_advancing (m := m.behind).mpr hr)

end Machine

namespace Event

open Machine
open InstructionTable (Decodes)

/-- The word is FX55 or FX65. -/
def isTransfer (w : Nat) : Bool := w / 4096 == 0xF && (w % 256 == 0x55 || w % 256 == 0x65)

/-- What an outcome answers. -/
def answer {α : Type} (f : α → Reply) : EStateM.Result Fault Machine α → Reply
  | .ok a _ => f a
  | .error e _ => .fault e

/-- What is answered to an event, or the fault or error in which it ends. -/
def reply (m : Machine) : Event → Reply
  | cycle => answer .instruction (Machine.cycle m)
  | writeRegister index value => answer (fun _ => .done) (Machine.writeRegister index value m)
  | store8 a v => answer (fun _ => .done) (onBus (Bus.store8 a v) m)
  | store16 a v => answer (fun _ => .done) (onBus (Bus.store16 a v) m)
  | storeBlock start data => answer (fun _ => .done) (onBus (Bus.storeBlock start data) m)
  | setKey key pressed =>
    match m.keypad.setIndex key pressed with
    | .ok (heard, _) => .key true heard
    | .error e => .noKey e
  | setNamedKey name pressed =>
    let (known, heard, _) := m.keypad.setNamed name pressed
    .key known heard
  | tick | reset | releaseKeys | addListener => .done

variable {m t : Machine} {e : Event} {es : List Event} {w : Nat}

/-! ## One event -/

theorem isTransfer_iff {r : Routine} (hw : w < 65536) (hd : Decodes w r) :
    isTransfer w = true ↔ r.Transfers := by
  have hstore : Routine.storeRegisters.pattern.accepts w = true ↔ _ :=
    Routine.accepts_miscellaneous hw 0x5 0x5 (by decide) (by decide)
  have hload : Routine.loadRegisters.pattern.accepts w = true ↔ _ :=
    Routine.accepts_miscellaneous hw 0x6 0x5 (by decide) (by decide)
  unfold Routine.Transfers
  rw [← hd.accepts_iff (by decide), ← hd.accepts_iff (by decide), hstore, hload, isTransfer]
  simp only [Bool.and_eq_true, Bool.or_eq_true, beq_iff_eq]
  omega

/-- A cycle of the machine that is set to advance, beside that of the other one. -/
inductive SideBySide (m : Machine) : Prop
  | fault {f : Fault} (h : Machine.cycle m = .error f m)
      (ha : Machine.cycle m.advancing = .error f m.advancing)
  | plain {i : Instruction} {t : Machine} {w : Nat} (h : Machine.cycle m = .ok i t)
      (hex : executed m cycle = some w) (hw : isTransfer w = false)
      (ha : Machine.cycle m.advancing = .ok i t.advancing)
  | transfer {i : Instruction} {t : Machine} {w : Nat} (h : Machine.cycle m = .ok i t)
      (hex : executed m cycle = some w) (hw : isTransfer w = true)
      (ha : Machine.cycle m.advancing = .ok i (t.pastBlock (Operands.ofWord w).x).advancing)

theorem sideBySide (hm : Regular m) (hadv : m.advances = false) : SideBySide m := by
  have hcovered := hm.wired.standard.covered
  cases hc : Machine.cycle m with
  | error f t =>
    obtain ⟨hs, rfl⟩ := (cycle_eq_error hcovered).mp hc
    exact .fault hc ((cycle_eq_error (m := t.advancing) hcovered).mpr ⟨stops_advancing.mpr hs, rfl⟩)
  | ok i t =>
    obtain ⟨w, r, u, hf, hrun, rfl⟩ := cycle_eq_ok.mp hc
    have hkind := isTransfer_iff (Bus.load16_lt hf.word) (hf.decodes hm.table)
    have hex : executed m cycle = some w := executed_eq_some.mpr ⟨rfl, hf.word, i, _, hc⟩
    have hfa : m.advancing.Finds w i r := ⟨hf.word, hf.instruction, hf.routine⟩
    by_cases ht : r.Transfers
    · have hrun' := Routine.run_transfer (m := m.behind) ht hadv hrun
      exact .transfer hc hex (hkind.mpr ht) (cycle_eq_ok.mpr ⟨w, r, _, hfa, hrun', rfl⟩)
    · have hrun' := Routine.run_advancing (m := m.behind) ht hrun
      exact .plain hc hex (by rwa [← Bool.not_eq_true, hkind])
        (cycle_eq_ok.mpr ⟨w, r, _, hfa, hrun', rfl⟩)

theorem onBus_advancing {α : Type} (f : α → Reply) (act : EStateM MemoryFault Bus α)
    (m : Machine) : answer f (onBus act m.advancing) = answer f (onBus act m) ∧
      leftBy (onBus act) m.advancing = (leftBy (onBus act) m).advancing := by
  unfold leftBy onBus
  rw [show m.advancing.bus = m.bus from rfl]
  cases act m.bus with
  | ok a b => exact ⟨rfl, rfl⟩
  | error e b => exact ⟨rfl, rfl⟩

theorem writeRegister_advancing (index value : Int) (m : Machine) :
    answer (fun _ => .done) (Machine.writeRegister index value m.advancing) =
        answer (fun _ => .done) (Machine.writeRegister index value m) ∧
      leftBy (Machine.writeRegister index value) m.advancing =
        (leftBy (Machine.writeRegister index value) m).advancing := by
  unfold leftBy Machine.writeRegister
  by_cases hi : 0 ≤ index ∧ index < 16
  · rw [if_pos hi]
    exact ⟨rfl, rfl⟩
  · rw [if_neg hi]
    exact ⟨rfl, rfl⟩

theorem setKey_advancing (key : Int) (pressed : Bool) (m : Machine) :
    reply m.advancing (.setKey key pressed) = reply m (.setKey key pressed) ∧
      (setKey key pressed).after m.advancing = ((setKey key pressed).after m).advancing := by
  refine ⟨rfl, ?_⟩
  change (match m.keypad.setIndex key pressed with
    | .ok (_, keypad) => { m.advancing with keypad }
    | .error _ => m.advancing) = advancing (match m.keypad.setIndex key pressed with
    | .ok (_, keypad) => { m with keypad }
    | .error _ => m)
  cases m.keypad.setIndex key pressed <;> rfl

/-- Apart from cycles no event asks how the machine is set. -/
theorem aside_advancing (he : e ≠ cycle) (m : Machine) :
    reply m.advancing e = reply m e ∧ e.after m.advancing = (e.after m).advancing := by
  cases e with
  | cycle => exact absurd rfl he
  | writeRegister index value => exact writeRegister_advancing index value m
  | store8 a v => exact onBus_advancing _ (Bus.store8 a v) m
  | store16 a v => exact onBus_advancing _ (Bus.store16 a v) m
  | storeBlock start data => exact onBus_advancing _ (Bus.storeBlock start data) m
  | setKey key pressed => exact setKey_advancing key pressed m
  | tick | reset | setNamedKey | releaseKeys | addListener => exact ⟨rfl, rfl⟩

theorem executed_advancing (hm : Regular m) (hadv : m.advances = false) (e : Event) :
    e.executed m.advancing = e.executed m := by
  cases e with
  | cycle =>
    unfold executed
    cases sideBySide hm hadv with
    | fault h ha => rw [h, ha]
    | plain h _ _ ha => rw [h, ha]; rfl
    | transfer h _ _ ha => rw [h, ha]; rfl
  | _ => rfl

theorem reply_advancing (hm : Regular m) (hadv : m.advances = false) (e : Event) :
    reply m.advancing e = reply m e := by
  by_cases he : e = cycle
  · rw [he]
    unfold reply
    cases sideBySide hm hadv with
    | fault h ha => rw [h, ha]; rfl
    | plain h _ _ ha => rw [h, ha]; rfl
    | transfer h _ _ ha => rw [h, ha]; rfl
  · exact (aside_advancing he m).1

/-- Where no block is transferred the machines stay the same. -/
theorem after_advancing (hm : Regular m) (hadv : m.advances = false)
    (hn : tally isTransfer m [e] = 0) : e.after m.advancing = (e.after m).advancing := by
  by_cases he : e = cycle
  · subst he
    cases sideBySide hm hadv with
    | fault h ha => rw [after_of_error h, after_of_error ha]
    | plain h _ _ ha => rw [after_of_ok h, after_of_ok ha]
    | transfer _ hex hw _ =>
      rw [tally_singleton, hex, Option.any_some, if_pos hw] at hn
      cases hn
  · exact (aside_advancing he m).2

/-- Behind a block transfer only the index is different. -/
theorem transfer_advancing (hm : Regular m) (hadv : m.advances = false)
    (hex : executed m cycle = some w) (hw : isTransfer w = true) :
    cycle.after m.advancing =
      ((cycle.after m).pastBlock (Operands.ofWord w).x).advancing := by
  cases sideBySide hm hadv with
  | fault h _ =>
    obtain ⟨_, _, i, t, hc⟩ := executed_eq_some.mp hex
    cases h.symm.trans hc
  | plain _ hex' hw' _ =>
    obtain rfl := Option.some.inj (hex.symm.trans hex')
    rw [hw] at hw'
    cases hw'
  | transfer h hex' _ ha =>
    obtain rfl := Option.some.inj (hex.symm.trans hex')
    rw [after_of_ok h, after_of_ok ha]

/-! ## Runs -/

theorem advances_run (m : Machine) (es : List Event) : (run m es).advances = m.advances := by
  induction es generalizing m with
  | nil => rfl
  | cons e es ih => exact (ih (e.after m)).trans (settings_after m e).2

/-- The two machines come to their first block transfer with the same event, and up to there
they are the same. -/
theorem run_advancing (hm : Regular m) (hadv : m.advances = false) (es : List Event) :
    (tally isTransfer m.advancing es = 0 ↔ tally isTransfer m es = 0) ∧
      (tally isTransfer m es = 0 → run m.advancing es = (run m es).advancing) := by
  induction es generalizing m with
  | nil => exact ⟨Iff.rfl, fun _ => rfl⟩
  | cons e es ih =>
    have hnow : tally isTransfer m.advancing [e] = tally isTransfer m [e] := by
      rw [tally_singleton, tally_singleton, executed_advancing hm hadv]
    rw [tally_cons, tally_cons isTransfer m, hnow, run_cons, run_cons]
    -- behind a first transfer there is nothing to show, and both have counted it
    by_cases hn : tally isTransfer m [e] = 0
    · rw [hn, after_advancing hm hadv hn, Nat.zero_add, Nat.zero_add]
      exact ih (hm.after e) ((settings_after m e).2.trans hadv)
    · exact ⟨by omega, fun h => by omega⟩

/-- A machine that is set to move the index past blocks is switched on as one that is not, and
does the same with every program and in every run up to the first block transfer: every event
has the same reply, and but for the setting the machines are the same. The transfer is carried
out by both or by neither, and behind it only the index is different, which now points behind
the block. -/
theorem advance_only_behind_transfers (o : Options) :
    create { o with advances := true } =
        (create { o with advances := false }).map advancing ∧
      ∀ m, create { o with advances := false } = .ok m → ∀ es : List Event,
        (tally isTransfer m.advancing es = 0 ↔ tally isTransfer m es = 0) ∧
        (tally isTransfer m es = 0 →
          run m.advancing es = (run m es).advancing ∧
          (∀ before e after, es = before ++ e :: after →
            reply (run m.advancing before) e = reply (run m before) e) ∧
          executed (run m.advancing es) cycle = executed (run m es) cycle ∧
          reply (run m.advancing es) cycle = reply (run m es) cycle ∧
          ∀ w, isTransfer w = true → executed (run m es) cycle = some w →
            run m.advancing (es ++ [cycle]) =
              ((run m (es ++ [cycle])).pastBlock (Operands.ofWord w).x).advancing) := by
  refine ⟨create_advances { o with advances := false } true, fun m h es => ?_⟩
  obtain ⟨ht, _, hadv, _⟩ := settings_of_create h
  have hregular : Regular m := ⟨⟨_, m, h, rfl⟩, ht⟩
  have hm (es : List Event) : Regular (run m es) ∧ (run m es).advances = false :=
    ⟨hregular.run es, (advances_run m es).trans hadv⟩
  have hsame (es : List Event) := run_advancing hregular hadv es
  refine ⟨(hsame es).1, fun hn => ⟨(hsame es).2 hn, ?_, ?_, ?_, ?_⟩⟩
  · intro before e after hes
    rw [hes, tally_append] at hn
    rw [(hsame before).2 (by omega)]
    exact reply_advancing (hm before).1 (hm before).2 e
  · rw [(hsame es).2 hn]
    exact executed_advancing (hm es).1 (hm es).2 cycle
  · rw [(hsame es).2 hn]
    exact reply_advancing (hm es).1 (hm es).2 cycle
  · intro w hw hex
    rw [run_append, run_append, (hsame es).2 hn]
    exact transfer_advancing (hm es).1 (hm es).2 hex hw

theorem advance_only_behind_load : ∃ m, create { rom := some [0xF1, 0x65] } = .ok m ∧
    tally isTransfer m [tick] = 0 ∧ executed (run m [tick]) cycle = some 0xF165 ∧
    (run m [tick, cycle]).cpu.i = 0 ∧ (run m.advancing [tick, cycle]).cpu.i = 2 := by
  let o : Options := { rom := some [0xF1, 0x65] }
  obtain ⟨m, h⟩ : ∃ m, create o = .ok m := exists_create rfl (by decide) (by decide)
  obtain ⟨ht, hcpu, hadv, _⟩ := settings_of_create h
  have hw : m.tick.bus.load16 m.tick.cpu.pc = .ok 0xF165 := by
    change m.bus.load16 m.cpu.pc = _
    rw [hcpu]
    exact load16_program h rfl (k := 0) (by decide)
  have hd : Decodes (0xF165 : Nat) .loadRegisters :=
    InstructionTable.decodes_of_accepts (by decide) (by decide)
  obtain ⟨i, hf⟩ := finds_of_decodes (m := m.tick) ht hw hd
  obtain ⟨bs, hb⟩ : ∃ bs, m.bus.loadBlock m.cpu.i 2 = .ok bs := by
    refine ((create_standard h).loadBlock_eq_ok (n := 2)).mpr ?_
    rw [hcpu]
    decide
  have hrun : Routine.loadRegisters.run m.tick.cpu.pc 0xF165 m.tick.behind = .ok () _ :=
    Routine.run_loadRegisters.mpr ⟨bs, hb, advance_eq _ _⟩
  have hc := cycle_eq_ok.mpr ⟨_, _, _, hf, hrun, rfl⟩
  have hex : executed m.tick cycle = some 0xF165 := executed_eq_some.mpr ⟨rfl, hw, i, _, hc⟩
  have hi : (run m [tick, cycle]).cpu.i = 0 := by
    rw [run_cons, run_cons, run_nil, show tick.after m = m.tick from rfl, after_of_ok hc]
    change (if m.advances then _ else m.cpu.i) = 0
    rw [hadv, hcpu]
    rfl
  have hlaw := ((advance_only_behind_transfers o).2 m h [tick]).2 rfl
  have hbehind := hlaw.2.2.2.2 0xF165 rfl hex
  refine ⟨m, h, rfl, hex, hi, ?_⟩
  change (run m.advancing ([tick] ++ [cycle])).cpu.i = 2
  rw [hbehind]
  change ((run m [tick, cycle]).cpu.i + ((Operands.ofWord 0xF165).x.val + 1)) % 65536 = 2
  rw [hi]
  decide

end Event

end Chip8
