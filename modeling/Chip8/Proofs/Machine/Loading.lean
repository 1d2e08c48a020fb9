import Chip8.Proofs.Machine.Program
import Chip8.Proofs.Memory.AllOrNothing

/-! # Loading a program

Whether an image is one at all is a matter of its length alone. Whether memory takes it is a matter
of the addresses that it goes to, each of which has to take bytes. An image that is refused for
either reason leaves no byte behind, and one that is loaded changes no byte but its own. -/

namespace Chip8

namespace Bus

variable {m : Bus} {n : Nat}

/-- Nothing serves the address, or a font does. -/
def Barred (m : Bus) (a : Int) : Prop :=
  (∃ e, Missing a e ∧ m.serving a = .error e) ∨ ∃ id b, m.serving a = .ok (id, b) ∧ b.isFont = true

theorem writable_eq_false_iff (hn : m.capacity = .ok n) {a : Int} :
    m.writable a = false ↔ m.Barred a := by
  unfold writable Barred
  cases hs : m.serving a with
  | error e => simp [missing_of_serving hn hs]
  | ok p =>
    obtain ⟨id, b⟩ := p
    rw [Bool.not_eq_false']
    constructor
    · intro hf
      exact .inr ⟨id, b, rfl, hf⟩
    · rintro (⟨e, _, he⟩ | ⟨_, _, he, hf⟩)
      · cases he
      · cases he
        exact hf

/-- A block that is not empty is stored unless one of its addresses takes no bytes. -/
theorem storeBlock_ok_or_error (hm : m.Covered) (hn : m.capacity = .ok n) (start : Int)
    {data : List Int} (hd : data ≠ []) :
    (∃ t, storeBlock start data m = .ok () t ∧
      ∀ a, start ≤ a → a < start + data.length → ¬ m.Barred a) ∨
    ∃ e, storeBlock start data m = .error e m ∧
      (e = .blockOutside start data.length n ∨
        ∃ a, start ≤ a ∧ a < start + data.length ∧ Refusal a e) ∧
      ∃ a, start ≤ a ∧ a < start + data.length ∧ m.Barred a := by
  have hlen : 0 < data.length := List.length_pos_iff.mpr hd
  cases h : storeBlock start data m with
  | ok _ t =>
    obtain ⟨_, hw⟩ := (storeBlock_eq_ok hm).mp ⟨t, h⟩
    refine .inl ⟨t, rfl, fun a lo hi hbarred => ?_⟩
    cases (checkWritable_iff.mp hw a lo hi).symm.trans ((writable_eq_false_iff hn).mpr hbarred)
  | error e t =>
    obtain ⟨rfl, hwhy⟩ := storeBlock_eq_error hm h
    refine .inr ⟨e, rfl, hwhy.imp (checkRange_eq_error hn) (checkWritable_eq_error hn), ?_⟩
    by_cases hbarred : ∃ a, start ≤ a ∧ a < start + data.length ∧ t.Barred a
    · exact hbarred
    · have hw : t.checkWritable start data.length = .ok () := by
        refine checkWritable_iff.mpr fun a lo hi => ?_
        rw [← Bool.not_eq_false, writable_eq_false_iff hn]
        exact fun ha => hbarred ⟨a, lo, hi, ha⟩
      obtain ⟨u, hu⟩ := (storeBlock_eq_ok hm).mpr ⟨checkRange_of_writable hlen hw, hw⟩
      cases hu.symm.trans h

end Bus

namespace Rom

open Bus (Built Barred Refusal)

variable {data : List UInt8} {name : String} {m t : Bus} {n : Nat}

theorem map_byteOf_stored (data : List UInt8) : (stored data).map byteOf = data := by
  simp [stored, Function.comp_def, byteOf_toNat]

/-- Each way in which loading ends, and when it ends that way. -/
structure Loads (data : List UInt8) (name : String) (m : Bus) (n : Nat) : Prop where
  noImage : ∀ e t, load data name m = .error (.image e) t ↔
    t = m ∧ (e = .empty ∧ data = [] ∨ e = .tooLarge data.length ∧ 0xE00 < data.length)
  noRoom : data ≠ [] → data.length ≤ 0xE00 → ((∃ f t, load data name m = .error (.memory f) t) ↔
    ∃ a, 0x200 ≤ a ∧ a < 0x200 + (data.length : Int) ∧ m.Barred a)
  fault : ∀ f t, load data name m = .error (.memory f) t →
    t = m ∧ (f = .blockOutside 0x200 data.length n ∨
      ∃ a, 0x200 ≤ a ∧ a < 0x200 + (data.length : Int) ∧ Refusal a f)
  loaded : ∀ rom t, load data name m = .ok rom t →
    rom.data = data ∧ rom.stop = 0x200 + data.length - 1 ∧
      t.loadBlock 0x200 data.length = .ok data ∧
      ∀ a, ¬ (0x200 ≤ a ∧ a < 0x200 + (data.length : Int)) → t.load8 a = m.load8 a

theorem loads (hm : m.Built) (hn : m.capacity = .ok n) (data : List UInt8) (name : String) :
    Loads data name m n := by
  have hc := hm.covered
  refine
    { noImage := fun e t => by rw [load_eq_image_error, validate_eq_error]; rfl
      noRoom := fun hd hlen => ?_
      fault := fun f t h => ?_
      loaded := fun rom t h => ?_ }
  · have hways := Bus.storeBlock_ok_or_error hc hn loadAddress (stored_ne_nil hd)
    rw [length_stored] at hways
    rcases hways with ⟨t, hstore, hfree⟩ | ⟨f, hstore, _, hbarred⟩
    · constructor
      · rintro ⟨f, u, h⟩
        cases hstore.symm.trans (load_eq_memory_error.mp h).2.2
      · rintro ⟨a, lo, hi, hbarred⟩
        exact absurd hbarred (hfree a lo hi)
    · exact iff_of_true ⟨f, m, load_eq_memory_error.mpr ⟨hd, hlen, hstore⟩⟩ hbarred
  · obtain ⟨hd, _, hstore⟩ := load_eq_memory_error.mp h
    have hways := Bus.storeBlock_ok_or_error hc hn loadAddress (stored_ne_nil hd)
    rw [length_stored] at hways
    rcases hways with ⟨u, hu, _⟩ | ⟨f', hf, hwhy, _⟩
    · cases hu.symm.trans hstore
    · cases hf.symm.trans hstore
      exact ⟨rfl, hwhy⟩
  · obtain ⟨_, _, hstore, rfl⟩ := load_eq_ok.mp h
    have hread := Bus.loadBlock_of_storeBlock hc hstore
    rw [length_stored, map_byteOf_stored] at hread
    refine ⟨rfl, rfl, hread, fun a ha => ?_⟩
    rw [Bus.load8_storeBlock hc hstore, length_stored]
    exact if_neg ha

end Rom

namespace Machine

variable {o : Options} {m : Machine} {data : List UInt8}

/-- Memory as it is when a machine is switched on: the font, the program, and zeros. -/
def firstByte (data : List UInt8) (a : Nat) : UInt8 :=
  if a < 0x50 then Glyph.font.getD a 0
  else if 0x200 ≤ a ∧ a < 0x200 + data.length then data.getD (a - 0x200) 0
  else 0

theorem load8_blankBus {a : Nat} (lo : 0x50 ≤ a) (hi : a < 0x1000) : blankBus.load8 a = .ok 0 := by
  have hram : blankBus.blocks[1]? = some (.region .mainRam blankRam) := rfl
  rw [blankBus_standard.load8_ram hram lo hi]
  simp only [blankRam, Array.getD_eq_getD_getElem?, Array.getElem?_replicate]
  rw [if_pos (by omega), Option.getD_some]

/-- A machine is switched on with every image that is neither empty nor too long. -/
theorem create_iff (hrom : o.rom = some data) :
    (∃ m, create o = .ok m) ↔ data ≠ [] ∧ data.length ≤ 0xE00 := by
  constructor
  · intro h
    obtain ⟨m, h⟩ := h
    rw [create_eq_load hrom] at h
    cases hl : Rom.load data o.romName blankBus with
    | error e b =>
      rw [hl] at h
      cases h
    | ok rom b =>
      obtain ⟨hd, hlen, _⟩ := Rom.load_eq_ok.mp hl
      exact ⟨hd, hlen⟩
  · intro h
    exact exists_create hrom h.1 h.2

theorem load8_create (h : create o = .ok m) (hrom : o.rom = some data) {a : Nat}
    (ha : a < 0x1000) : m.bus.load8 a = .ok (firstByte data a) := by
  unfold firstByte
  by_cases hfont : a < 0x50
  · rw [if_pos hfont, (create_fonted h).load8 hfont]
  · rw [if_neg hfont]
    by_cases hin : 0x200 ≤ a ∧ a < 0x200 + data.length
    · have hbyte := load8_program h hrom (show a - 0x200 < data.length by omega)
      rw [show 0x200 + (a - 0x200) = a by omega] at hbyte
      rw [if_pos hin, hbyte]
    · have hout : ¬ (((Rom.loadAddress : Nat) : Int) ≤ a ∧
          (a : Int) < (Rom.loadAddress : Nat) + ((Rom.stored data).length : Int)) := by
        rw [Rom.length_stored]
        unfold Rom.loadAddress
        omega
      rw [if_neg hin, Bus.load8_storeBlock blankBus_standard.covered (storeBlock_of_create h hrom),
        if_neg hout, load8_blankBus (by omega) ha]

end Machine

/-- Whatever memory there is, an image is loaded exactly and alone or not at all, and why it is not
loaded is told by its length and by the addresses that it goes to. So the memory of every machine
that is switched on with a program holds the font, the program and nothing else. -/
theorem Rom.load_exact_or_nothing (data : List UInt8) :
    (∀ m n name, m.Built → m.capacity = .ok n → Loads data name m n) ∧
    ∀ o : Machine.Options, o.rom = some data →
      ((∃ m, Machine.create o = .ok m) ↔ data ≠ [] ∧ data.length ≤ 0xE00) ∧
      ∀ m, Machine.create o = .ok m →
        ∀ a < 0x1000, m.bus.load8 (a : Nat) = .ok (Machine.firstByte data a) :=
  ⟨fun _ _ name hm hn => loads hm hn data name,
    fun _ hrom => ⟨Machine.create_iff hrom, fun _ h _ ha => Machine.load8_create h hrom ha⟩⟩

/-- A space of eight addresses has no room for a program of two bytes, and an image without bytes
is none. A machine that is switched on with the two bytes has them between blank memory. -/
theorem Rom.load_exact_or_nothing_twoBytes :
    (Bus.assemble 8 [0, 1, 2] Bus.overlapping).Built ∧
    (Bus.assemble 8 [0, 1, 2] Bus.overlapping).capacity = .ok 8 ∧
    load [] "" (Bus.assemble 8 [0, 1, 2] Bus.overlapping) =
      .error (.image .empty) (Bus.assemble 8 [0, 1, 2] Bus.overlapping) ∧
    (∃ f, load [0x12, 0x34] "" (Bus.assemble 8 [0, 1, 2] Bus.overlapping) =
      .error (.memory f) (Bus.assemble 8 [0, 1, 2] Bus.overlapping)) ∧
    ∃ m, Machine.create { rom := some [0x12, 0x34] } = .ok m ∧ m.bus.load8 (0x4F : Nat) = .ok 0x80 ∧
      m.bus.load8 (0x201 : Nat) = .ok 0x34 ∧ m.bus.load8 (0x202 : Nat) = .ok 0 := by
  have hm := Bus.built_overlapping
  have hn : (Bus.assemble 8 [0, 1, 2] Bus.overlapping).capacity = .ok 8 := rfl
  refine ⟨hm, hn, ?_, ?_, ?_⟩
  · have hloads := (load_exact_or_nothing []).1 _ _ "" hm hn
    exact (hloads.noImage _ _).mpr ⟨rfl, .inl ⟨rfl, rfl⟩⟩
  · have hloads := (load_exact_or_nothing [0x12, 0x34]).1 _ _ "" hm hn
    have hbarred : (Bus.assemble 8 [0, 1, 2] Bus.overlapping).Barred 0x200 :=
      .inl ⟨_, .inr ⟨8, rfl⟩, rfl⟩
    obtain ⟨f, t, h⟩ :=
      (hloads.noRoom (by decide) (by decide)).mpr ⟨0x200, by decide, by decide, hbarred⟩
    obtain ⟨rfl, _⟩ := hloads.fault f t h
    exact ⟨f, h⟩
  · obtain ⟨hiff, hbytes⟩ :=
      (load_exact_or_nothing [0x12, 0x34]).2 { rom := some [0x12, 0x34] } rfl
    obtain ⟨m, h⟩ := hiff.mpr ⟨by decide, by decide⟩
    exact ⟨m, h, hbytes m h 0x4F (by decide), hbytes m h 0x201 (by decide),
      hbytes m h 0x202 (by decide)⟩

end Chip8
