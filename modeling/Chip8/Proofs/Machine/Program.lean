import Chip8.Proofs.Machine.Boot
import Chip8.Proofs.Memory.Store

/-! # A program in memory

A machine that is switched on with an image holds its bytes one after another where programs
begin. Every image that is not empty and not too long is accepted. -/

namespace Chip8

namespace Rom

variable {data : List UInt8} {name : String} {m t : Bus}

/-- An image as it is stored. -/
def stored (data : List UInt8) : List Int := data.map fun b => (b.toNat : Int)

theorem length_stored (data : List UInt8) : (stored data).length = data.length :=
  List.length_map ..

theorem stored_ne_nil (hd : data ≠ []) : stored data ≠ [] := by
  rwa [stored, Ne, List.map_eq_nil_iff]

theorem validate_eq_ok : validate data = .ok () ↔ data ≠ [] ∧ data.length ≤ maxSize := by
  unfold validate
  by_cases hempty : data = []
  · simp [hempty]
  · by_cases hlarge : maxSize < data.length
    · simp [hempty, hlarge]
    · simp [hempty, hlarge, Nat.le_of_not_lt hlarge]

theorem validate_eq_error {e : RomError} : validate data = .error e ↔
    e = .empty ∧ data = [] ∨ e = .tooLarge data.length ∧ maxSize < data.length := by
  unfold validate
  by_cases hempty : data = []
  · simp [hempty, eq_comm]
  · by_cases hlarge : maxSize < data.length
    · simp [hempty, hlarge]
      exact eq_comm
    · simp [hempty, hlarge]

theorem load_of_invalid {e : RomError} (h : validate data = .error e) :
    load data name m = .error (.image e) m := by
  simp only [load, h]

theorem load_of_valid (h : validate data = .ok ()) : load data name m =
    match Bus.storeBlock loadAddress (stored data) m with
    | .error f m => .error (.memory f) m
    | .ok () m => .ok ⟨data, name, loadAddress⟩ m := by
  simp only [load, h]
  rfl

theorem load_eq_ok {rom : Rom} : load data name m = .ok rom t ↔
    data ≠ [] ∧ data.length ≤ maxSize ∧ Bus.storeBlock loadAddress (stored data) m = .ok () t ∧
      rom = ⟨data, name, loadAddress⟩ := by
  rw [← and_assoc, ← validate_eq_ok]
  cases hv : validate data with
  | error e => simp [load_of_invalid hv]
  | ok _ =>
    rw [load_of_valid hv]
    cases Bus.storeBlock loadAddress (stored data) m with
    | error f u => simp
    | ok _ u => simp [and_comm, eq_comm]

theorem load_eq_image_error {e : RomError} : load data name m = .error (.image e) t ↔
    t = m ∧ validate data = .error e := by
  cases hv : validate data with
  | error e' => simp [load_of_invalid hv, and_comm, eq_comm]
  | ok _ =>
    rw [load_of_valid hv]
    cases Bus.storeBlock loadAddress (stored data) m <;> simp

theorem load_eq_memory_error {f : MemoryFault} : load data name m = .error (.memory f) t ↔
    data ≠ [] ∧ data.length ≤ maxSize ∧ Bus.storeBlock loadAddress (stored data) m = .error f t := by
  rw [← and_assoc, ← validate_eq_ok]
  cases hv : validate data with
  | error e => simp [load_of_invalid hv]
  | ok _ =>
    rw [load_of_valid hv]
    cases Bus.storeBlock loadAddress (stored data) m <;> simp

end Rom

namespace Machine

variable {o : Options} {m : Machine} {data : List UInt8}

/-- Registers and table come as they always do, the other settings as they are given. -/
theorem settings_of_create (h : create o = .ok m) :
    m.table = .standard ∧ m.cpu = {} ∧ m.advances = o.advances ∧ m.display = o.display ∧
      m.random = o.random := by
  obtain ⟨_, _, _, rfl⟩ := create_eq_ok h
  exact ⟨rfl, rfl, rfl, rfl, rfl⟩

theorem create_eq_load (hrom : o.rom = some data) : create o =
    match Rom.load data o.romName blankBus with
    | .error e _ => .error e
    | .ok rom bus => .ok { bus, font := 0, ram := 1, advances := o.advances, display := o.display,
                           random := o.random, rom := some rom } := by
  unfold create
  rw [memory_eq, hrom]
  rfl

/-- The image is what was stored, and nothing else was. -/
theorem storeBlock_of_create (h : create o = .ok m) (hrom : o.rom = some data) :
    Bus.storeBlock Rom.loadAddress (Rom.stored data) blankBus = .ok () m.bus := by
  rw [create_eq_load hrom] at h
  cases hl : Rom.load data o.romName blankBus with
  | error e b =>
    rw [hl] at h
    cases h
  | ok rom b =>
    rw [hl] at h
    cases h
    exact (Rom.load_eq_ok.mp hl).2.2.1

theorem exists_create (hrom : o.rom = some data) (hd : data ≠ [])
    (hlen : data.length ≤ Rom.maxSize) : ∃ m, create o = .ok m := by
  have hroom : ((Rom.loadAddress : Nat) : Int) + (Rom.stored data).length ≤ 0x1000 := by
    rw [Rom.length_stored]
    unfold Rom.maxSize at hlen
    unfold Rom.loadAddress at hlen ⊢
    omega
  obtain ⟨b, hb⟩ := (blankBus_standard.storeBlock_eq_ok (Rom.stored_ne_nil hd)).mpr ⟨by decide, hroom⟩
  rw [create_eq_load hrom, Rom.load_eq_ok.mpr ⟨hd, hlen, hb, rfl⟩]
  exact ⟨_, rfl⟩

theorem load8_program (h : create o = .ok m) (hrom : o.rom = some data) {k : Nat}
    (hk : k < data.length) : m.bus.load8 (0x200 + k : Nat) = .ok (data.getD k 0) := by
  have hin : ((Rom.loadAddress : Nat) : Int) ≤ (0x200 + k : Nat) ∧
      ((0x200 + k : Nat) : Int) < (Rom.loadAddress : Nat) + ((Rom.stored data).length : Int) := by
    rw [Rom.length_stored]
    unfold Rom.loadAddress
    omega
  have hplace : (((0x200 + k : Nat) : Int) - (Rom.loadAddress : Nat)).toNat = k := by
    unfold Rom.loadAddress
    omega
  rw [Bus.load8_storeBlock blankBus_standard.covered (storeBlock_of_create h hrom), if_pos hin,
    hplace]
  simp [Rom.stored, List.getD_eq_getElem?_getD, List.getElem?_eq_getElem hk, byteOf_toNat]

/-- Two bytes of the image are the word at their address. -/
theorem load16_program (h : create o = .ok m) (hrom : o.rom = some data) {k : Nat}
    (hk : k + 1 < data.length) :
    m.bus.load16 (0x200 + k : Nat) = .ok (wordFrom (data.getD k 0) (data.getD (k + 1) 0)) :=
  Bus.load16_of_load8 (load8_program h hrom (by omega)) (load8_program h hrom hk)

end Machine

end Chip8
