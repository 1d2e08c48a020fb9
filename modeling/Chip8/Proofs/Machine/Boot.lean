import Chip8.Proofs.Memory.Map
import Chip8.Proofs.Memory.Registration

/-! # The machine as it is switched on

Every machine that can be created has the standard memory map and the font in its place.
The map, without what memory holds, is what the laws of the processor rest on. -/

namespace Chip8

namespace Machine

/-- The font as a region at the bottom of memory. -/
def fontRegion : Region := ⟨0, Glyph.font.toArray, by decide⟩

/-- Main memory above the font, with nothing in it. -/
def blankRam : Region := ⟨0x50, Array.replicate 0xFB0 0, by simp⟩

/-- Memory before a program is loaded. -/
def blankBus : Bus where
  blocks := #[.region .font fontRegion, .region .mainRam blankRam]
  space := some (Bus.claim 1 0x50 0xFB0 (Bus.claim 0 0 0x50 (Array.replicate 0x1000 none)))
  registry := [(.region .mainRam, 1), (.region .font, 0)]

theorem memory_eq : memory = .ok (blankBus, 0, 1) := by
  have hfont : Region.ofBytes 0 Glyph.font.toArray = .ok fontRegion := rfl
  have hram : Region.blank (fontRegion.stop + 1) ((spaceSize : Int) - (fontRegion.stop + 1)) =
      .ok blankRam := by
    rw [show fontRegion.stop + 1 = 0x50 from rfl, show (spaceSize : Int) - 0x50 = 0xFB0 from rfl]
    simp [Region.blank, Room.check, Limit.count, Room.holds, Region.ofBytes, blankRam]
  let pool : Bus := { blocks := #[.region .font fontRegion, .region .mainRam blankRam] }
  have hfirst : Bus.register 0 { pool with space := some (Array.replicate 0x1000 none) } =
      .ok () { pool with
        space := some (Bus.claim 0 0 0x50 (Array.replicate 0x1000 none))
        registry := [(.region .font, 0)] } :=
    Bus.register_eq_ok (b := .region .font fontRegion) rfl rfl rfl rfl (by decide)
      (by rw [Array.size_replicate]; decide)
  have hstop : blankRam.stop = (0x50 : Nat) + (0xFB0 : Nat) - 1 := by
    simp [blankRam, Region.stop]
  have hsecond : Bus.register 1 { pool with
        space := some (Bus.claim 0 0 0x50 (Array.replicate 0x1000 none))
        registry := [(.region .font, 0)] } = .ok () blankBus :=
    Bus.register_eq_ok (b := .region .mainRam blankRam) rfl rfl rfl hstop (by decide)
      (Nat.le_of_eq (by rw [Bus.size_claim, Array.size_replicate]))
  have hsetup : (do Bus.allocate spaceSize; Bus.register 0; Bus.register 1 : Bus.Action Unit) pool =
      .ok () blankBus :=
    bind_eq_ok.mpr ⟨(), _, rfl, bind_eq_ok.mpr ⟨(), _, hfirst, hsecond⟩⟩
  simp only [memory, hfont, hram, ok_bind, Bus.addBlock]
  split
  · rename_i hs
    cases hsetup.symm.trans hs
    rfl
  · rename_i hs
    cases hsetup.symm.trans hs

theorem blankBus_standard : blankBus.Standard := by
  refine ⟨?_, ?_⟩
  · simp [Bus.layout, blankBus, Block.extent, Block.kind, Block.start, Block.stop, Region.stop,
      fontRegion, blankRam, Glyph.length_font]
  · refine ⟨_, rfl, by rw [Bus.size_claim, Bus.size_claim, Array.size_replicate], fun a ha => ?_⟩
    rw [Bus.getElem?_claim, Bus.size_claim, Bus.getElem?_claim, Array.size_replicate]
    by_cases hf : a < 0x50
    · rw [if_neg (by omega), if_pos ⟨by omega, by omega, ha⟩, if_pos hf]
    · rw [if_pos ⟨by omega, by omega, ha⟩, if_neg hf]

/-- What loading an image does to memory are stores. -/
theorem stored_load {data : List UInt8} {name : String} {m t : Bus} {rom : Rom}
    (h : Rom.load data name m = .ok rom t) : Bus.Stored m t := by
  unfold Rom.load at h
  split at h
  · cases h
  · split at h
    · cases h
    · rename_i hs
      cases h
      exact leftBy_of_ok hs ▸ Bus.stored_storeBlock m _ _

/-- What is switched on is what was asked for, with memory in which nothing but a program
was stored. -/
theorem create_eq_ok {o : Options} {m : Machine} (h : create o = .ok m) :
    ∃ bus rom, Bus.Stored blankBus bus ∧
      m = { bus, font := 0, ram := 1, advances := o.advances, display := o.display,
            random := o.random, rom } := by
  unfold create at h
  rw [memory_eq] at h
  obtain ⟨_, hmem, h⟩ := except_bind_eq_ok.mp h
  cases hmem
  cases hr : o.rom with
  | none =>
    rw [hr] at h
    cases h
    exact ⟨blankBus, none, Bus.Stored.refl _, rfl⟩
  | some data =>
    rw [hr] at h
    cases hl : Rom.load data o.romName blankBus with
    | error e bus =>
      simp only [hl] at h
      cases h
    | ok rom bus =>
      simp only [hl] at h
      cases h
      exact ⟨bus, some rom, stored_load hl, rfl⟩

theorem stored_create {o : Options} {m : Machine} (h : create o = .ok m) :
    Bus.Stored blankBus m.bus := by
  obtain ⟨bus, rom, hs, rfl⟩ := create_eq_ok h
  exact hs

theorem create_standard {o : Options} {m : Machine} (h : create o = .ok m) : m.bus.Standard :=
  blankBus_standard.of_layout (stored_create h).layout

/-- The memory of the machine is laid out as that of a machine that was switched on. What
it holds, and all the rest of the machine, may be anything. -/
def Wired (m : Machine) : Prop := ∃ o m₀, create o = .ok m₀ ∧ m.bus.layout = m₀.bus.layout

theorem Wired.standard {m : Machine} (h : m.Wired) : m.bus.Standard := by
  obtain ⟨o, m₀, hc, hl⟩ := h
  exact (create_standard hc).of_layout hl

/-- A machine without a program and with everything as it comes. -/
def bare : Machine := { bus := blankBus, font := 0, ram := 1, display := .headless .standard }

theorem create_bare : create {} = .ok bare := by
  unfold create
  rw [memory_eq]
  rfl

end Machine

/-! ## The font -/

namespace Bus

/-- The standard map with the built-in font at the bottom. -/
structure Fonted (m : Bus) : Prop where
  standard : m.Standard
  font : m.blocks[0]? = some (.region .font Machine.fontRegion)

theorem Fonted.of_stored {m t : Bus} (h : m.Fonted) (hs : Stored m t) : t.Fonted :=
  ⟨h.standard.of_layout hs.layout, hs.fonts 0 _ h.font⟩

theorem blankBus_fonted : Machine.blankBus.Fonted := ⟨Machine.blankBus_standard, rfl⟩

theorem Fonted.load8 {m : Bus} (h : m.Fonted) {a : Nat} (ha : a < 0x50) :
    m.load8 a = .ok (Glyph.font.getD a 0) := by
  rw [h.standard.load8_font h.font ha]
  simp [Machine.fontRegion]

theorem Fonted.loadFrom {m : Bus} (h : m.Fonted) {n : Nat} :
    ∀ {a : Nat}, a + n ≤ 0x50 → m.loadFrom a n = .ok ((Glyph.font.drop a).take n) := by
  induction n with
  | zero => intro a _; simp [Bus.loadFrom]
  | succ n ih =>
    intro a ha
    have hlt : a < Glyph.font.length := by rw [Glyph.length_font]; omega
    have hnext := ih (a := a + 1) (by omega)
    rw [Int.natCast_add] at hnext
    rw [List.drop_eq_getElem_cons hlt, List.take_succ_cons]
    simp only [Bus.loadFrom, h.load8 (show a < 0x50 by omega), ok_bind, pure_eq_ok]
    rw [show (a : Int) + 1 = a + ((1 : Nat) : Int) from rfl, hnext]
    simp [List.getElem?_eq_getElem hlt]

/-- The five bytes at the address of a glyph are its rows. -/
theorem Fonted.loadBlock_glyph {m : Bus} (h : m.Fonted) (digit : Int) :
    m.loadBlock (Glyph.address digit) 5 = .ok (Glyph.rows digit) := by
  have hd := (nibbleOf digit).isLt
  have ha : Glyph.address digit + 5 ≤ 0x50 := by unfold Glyph.address; omega
  have hc : m.checkRange (Glyph.address digit) (5 : Nat) = .ok () :=
    h.standard.checkRange_eq_ok.mpr ⟨by omega, by omega⟩
  unfold Bus.loadBlock
  rw [show (5 : Int) = (5 : Nat) from rfl, hc]
  exact h.loadFrom ha

end Bus

namespace Machine

theorem create_fonted {o : Options} {m : Machine} (h : create o = .ok m) : m.bus.Fonted :=
  Bus.blankBus_fonted.of_stored (stored_create h)

/-! ## A program of one word -/

/-- Other bytes in main memory leave the map as it is. -/
theorem layout_setRam {r : Region} (hstart : r.start = blankRam.start)
    (hsize : r.bytes.size = blankRam.bytes.size) :
    (blankBus.setBlock 1 (.region .mainRam r)).layout = blankBus.layout := by
  refine Bus.layout_setBlock (b := .region .mainRam blankRam) rfl ?_
  simp only [Block.extent, Block.kind, Block.start, Block.stop, Region.stop, hstart, hsize]

/-- Main memory with a word where programs begin. -/
def wordRam (high low : UInt8) : Region := (blankRam.put 0x1B0 high).put 0x1B1 low

def wordBus (high low : UInt8) : Bus := blankBus.setBlock 1 (.region .mainRam (wordRam high low))

theorem wordBus_layout (high low : UInt8) : (wordBus high low).layout = blankBus.layout :=
  layout_setRam rfl (by rw [wordRam, Region.size_put, Region.size_put])

theorem wordBus_standard (high low : UInt8) : (wordBus high low).Standard :=
  blankBus_standard.of_layout (wordBus_layout high low)

theorem load8_wordBus (high low : UInt8) {a : Nat} (lo : 0x50 ≤ a) (hi : a < 0x1000) :
    (wordBus high low).load8 a =
      .ok (if a = 0x200 then high else if a = 0x201 then low else 0) := by
  have hram : (wordBus high low).blocks[1]? = some (.region .mainRam (wordRam high low)) := rfl
  rw [(wordBus_standard high low).load8_ram hram lo hi]
  simp only [wordRam, Region.put, blankRam, Array.getD_eq_getD_getElem?,
    Array.getElem?_setIfInBounds, Array.size_setIfInBounds, Array.size_replicate,
    Array.getElem?_replicate]
  by_cases h0 : a = 0x200
  · simp [h0]
  · by_cases h1 : a = 0x201
    · simp [h1]
    · rw [if_neg (by omega), if_neg (by omega), if_pos (by omega), if_neg h0, if_neg h1]
      rfl

theorem load16_wordBus (high low : UInt8) :
    (wordBus high low).load16 0x200 = .ok (wordFrom high low) := by
  have hhigh := load8_wordBus high low (a := 0x200) (by decide) (by decide)
  have hlow := load8_wordBus high low (a := 0x201) (by decide) (by decide)
  exact Bus.load16_of_load8 hhigh hlow

end Machine

end Chip8
