import Chip8.Proofs.Memory.Built

/-! # Images that are laid over a region

A region takes an image as a whole if the image lies in it, and leaves it otherwise. A font refuses
every byte and every word that is stored, but an image it takes like any other region. So a font
keeps its glyphs over a run of operations as long as no image lies in it, and no longer. -/

namespace Chip8

namespace Region

/-- The image begins in the region and does not run over its end. -/
def Takes (r : Region) (a : Int) (image : List UInt8) : Prop :=
  r.start ≤ a ∧ a ≤ r.stop ∧ a + image.length ≤ r.stop + 1

instance (r : Region) (a : Int) (image : List UInt8) : Decidable (r.Takes a image) :=
  inferInstanceAs (Decidable (_ ∧ _ ∧ _))

/-- Why an image is not taken: it begins elsewhere, or it is too long. -/
def imageFault (r : Region) (a : Int) (image : List UInt8) : MemoryFault :=
  if r.start ≤ a ∧ a ≤ r.stop then .imageOverrun image.length a r.stop
  else .outsideRegion a r.start r.stop

theorem offset_eq_error {r : Region} {a : Int} (h : ¬ (r.start ≤ a ∧ a ≤ r.stop)) :
    r.offset a = .error (.outsideRegion a r.start r.stop) := by
  unfold stop at h
  unfold offset
  exact if_neg (by omega)

theorem loadImage_of_takes {r : Region} {a : Int} {image : List UInt8} (h : r.Takes a image) :
    r.loadImage a image = .ok (r.overlay (a - r.start).toNat image) := by
  obtain ⟨lo, hi, hfit⟩ := h
  have hroom : ¬ r.bytes.size < (a - r.start).toNat + image.length := by
    unfold stop at hfit
    omega
  simp only [loadImage, offset_eq_ok lo hi, ok_bind, if_neg hroom, pure_eq_ok]

theorem loadImage_of_not_takes {r : Region} {a : Int} {image : List UInt8}
    (h : ¬ r.Takes a image) : r.loadImage a image = .error (r.imageFault a image) := by
  unfold imageFault
  by_cases ha : r.start ≤ a ∧ a ≤ r.stop
  · have hroom : r.bytes.size < (a - r.start).toNat + image.length := by
      unfold Takes stop at h
      unfold stop at ha
      omega
    simp only [loadImage, offset_eq_ok ha.1 ha.2, ok_bind, if_pos hroom, throw_eq_error,
      error_bind, if_pos ha]
  · simp only [loadImage, offset_eq_error ha, error_bind, if_neg ha]

/-- The bytes of the image stand in its range, and the old ones everywhere else. -/
theorem getD_overlay (image : List UInt8) : ∀ {r : Region} {k : Nat},
    k + image.length ≤ r.bytes.size → ∀ j, (r.overlay k image).bytes.getD j 0 =
      if k ≤ j ∧ j < k + image.length then image.getD (j - k) 0 else r.bytes.getD j 0 := by
  induction image with
  | nil =>
    intro r k _ j
    rw [if_neg (by rw [List.length_nil]; omega)]
    rfl
  | cons b bs ih =>
    intro r k hk j
    rw [List.length_cons] at hk ⊢
    have hput : k + 1 + bs.length ≤ (r.put k b).bytes.size := by
      rw [size_put]
      omega
    rw [overlay, ih hput, getD_put r (by omega)]
    by_cases hin : k + 1 ≤ j ∧ j < k + 1 + bs.length
    · rw [if_pos hin, if_pos (by omega), show j - k = j - (k + 1) + 1 by omega, List.getD_cons_succ]
    · rw [if_neg hin]
      by_cases hj : j = k
      · rw [if_pos hj, if_pos (by omega), hj, Nat.sub_self, List.getD_cons_zero]
      · rw [if_neg hj, if_neg (by omega)]

end Region

/-! ## Fonts -/

namespace Block

/-- What can be done with a block itself, past the address map. -/
inductive Operation
  | load8 (address : Int)
  | load16 (address : Int)
  | write (w : Write)

/-- Reads a number, which changes nothing. -/
def ask (read : Block → Except MemoryFault Int) : EStateM MemoryFault Block (Option Int) := fun b =>
  match read b with
  | .ok v => .ok (some v) b
  | .error e => .error e b

def perform : Operation → EStateM MemoryFault Block (Option Int)
  | .load8 a => ask (·.load8 a)
  | .load16 a => ask fun b => (b.load16 a).map Int.ofNat
  | .write w => do
    write w
    return none

/-- The block behind a run of operations, each of them carried out or refused. -/
def performAll (ops : List Operation) (b : Block) : Block :=
  ops.foldl (fun b op => leftBy (perform op) b) b

/-- It would change a byte somewhere, if it was carried out: an image may be empty. -/
def Write.hasBytes : Write → Bool
  | .loadImage _ image => !image.isEmpty
  | _ => true

/-- What a font takes: images that lie in it. -/
def Write.Fits (r : Region) : Write → Prop
  | .loadImage a image => r.Takes a image
  | _ => False

def fontFault (r : Region) : Write → MemoryFault
  | .store8 a _ | .store16 a _ => .readOnly a
  | .loadImage a image => r.imageFault a image

variable {r : Region} {w : Write}

theorem leftBy_ask (read : Block → Except MemoryFault Int) (b : Block) :
    leftBy (ask read) b = b := by
  unfold leftBy ask
  cases read b <;> rfl

theorem perform_write_of_ok {b t : Block} (h : write w b = .ok () t) :
    perform (.write w) b = .ok none t :=
  bind_eq_ok.mpr ⟨(), t, h, rfl⟩

theorem perform_write_of_error {b t : Block} {e : MemoryFault} (h : write w b = .error e t) :
    perform (.write w) b = .error e t :=
  bind_eq_error.mpr (.inl h)

/-- Whatever kind of region it is, an image is taken as a whole or not at all. -/
theorem write_of_takes {k : RegionKind} {a : Int} {image : List UInt8} (h : r.Takes a image) :
    write (.loadImage a image) (region k r) =
      .ok () (region k (r.overlay (a - r.start).toNat image)) := by
  have hr := Region.loadImage_of_takes h
  simp only [write, attempt, loadImage, hr, ok_bind, pure_eq_ok]

theorem write_of_not_takes {k : RegionKind} {a : Int} {image : List UInt8}
    (h : ¬ r.Takes a image) :
    write (.loadImage a image) (region k r) = .error (r.imageFault a image) (region k r) := by
  have hr := Region.loadImage_of_not_takes h
  simp only [write, attempt, loadImage, hr, error_bind]

theorem write_font_of_not_fits (h : ¬ w.Fits r) :
    write w (region .font r) = .error (fontFault r w) (region .font r) := by
  cases w with
  | store8 a v => rfl
  | store16 a v => rfl
  | loadImage a image => exact write_of_not_takes h

theorem write_font_of_takes {a : Int} {image : List UInt8} (h : r.Takes a image) :
    write (.loadImage a image) (region .font r) =
      .ok () (region .font (r.overlay (a - r.start).toNat image)) := write_of_takes h

/-- An operation that puts no bytes into the font leaves it as it is. -/
theorem leftBy_perform_font {op : Operation}
    (h : ∀ w, op = .write w → w.hasBytes = true → ¬ w.Fits r) :
    leftBy (perform op) (region .font r) = region .font r := by
  cases op with
  | load8 a => exact leftBy_ask _ _
  | load16 a => exact leftBy_ask _ _
  | write w =>
    by_cases hf : w.Fits r
    · -- only an empty image is left
      have hw : w.hasBytes ≠ true := fun hb => h w rfl hb hf
      cases w with
      | store8 a v | store16 a v => cases hf
      | loadImage a image =>
        have hempty : image = [] := by simpa [Write.hasBytes] using hw
        subst hempty
        exact leftBy_of_ok (perform_write_of_ok (write_font_of_takes hf))
    · exact leftBy_of_error (perform_write_of_error (write_font_of_not_fits hf))

theorem performAll_font (ops : List Operation)
    (h : ∀ w, .write w ∈ ops → w.hasBytes = true → ¬ w.Fits r) :
    performAll ops (region .font r) = region .font r := by
  induction ops with
  | nil => rfl
  | cons op ops ih =>
    have hfirst : leftBy (perform op) (region .font r) = region .font r :=
      leftBy_perform_font fun w he => h w (he ▸ List.mem_cons_self)
    have hrest := ih fun w hw => h w (List.mem_cons_of_mem op hw)
    unfold performAll at hrest ⊢
    rw [List.foldl_cons, hfirst, hrest]

/-- Over the run the font is what it was, and everything that has bytes to write is refused. -/
structure Firm (r : Region) (ops : List Operation) : Prop where
  contents : ∀ n, performAll (ops.take n) (region .font r) = region .font r
  refused : ∀ (n : Nat) w, ops[n]? = some (.write w) → w.hasBytes = true →
    perform (.write w) (performAll (ops.take n) (region .font r)) =
      .error (fontFault r w) (performAll (ops.take n) (region .font r))

/-- A font is read-only over a run exactly if no image of the run lies in it. An image that does is
taken, and its bytes stand where the glyphs stood. -/
theorem firm_iff (r : Region) (ops : List Operation) :
    (Firm r ops ↔ ∀ w, .write w ∈ ops → w.hasBytes = true → ¬ w.Fits r) ∧
    ∀ a image, r.Takes a image → ∃ t, t.start = r.start ∧ t.bytes.size = r.bytes.size ∧
      perform (.write (.loadImage a image)) (region .font r) = .ok none (region .font t) ∧
      ∀ j, t.bytes.getD j 0 = if r.start + j < a ∨ a + image.length ≤ r.start + j
        then r.bytes.getD j 0 else image.getD (r.start + j - a).toNat 0 := by
  refine ⟨⟨fun h w hw hb hf => ?_, fun h => ?_⟩, fun a image ht => ?_⟩
  · obtain ⟨n, hn⟩ := List.mem_iff_getElem?.mp hw
    have hrefused := h.refused n w hn hb
    rw [h.contents n] at hrefused
    cases w with
    | store8 a v | store16 a v => cases hf
    | loadImage a image =>
      cases hrefused.symm.trans (perform_write_of_ok (write_font_of_takes hf))
  · have hcontents (n : Nat) : performAll (ops.take n) (region .font r) = region .font r :=
      performAll_font (ops.take n) fun w hw => h w (List.mem_of_mem_take hw)
    refine ⟨hcontents, fun n w hn hb => ?_⟩
    rw [hcontents n]
    exact perform_write_of_error (write_font_of_not_fits (h w (List.mem_of_getElem? hn) hb))
  · have hfit : (a - r.start).toNat + image.length ≤ r.bytes.size := by
      obtain ⟨lo, hi, hend⟩ := ht
      unfold Region.stop at hend
      omega
    refine ⟨_, Region.start_overlay image r _, Region.size_overlay image r _,
      perform_write_of_ok (write_font_of_takes ht), fun j => ?_⟩
    rw [Region.getD_overlay image hfit]
    have hlo := ht.1
    by_cases hout : r.start + j < a ∨ a + image.length ≤ r.start + j
    · rw [if_pos hout, if_neg (by omega)]
    · rw [if_neg hout, if_pos (by omega), show j - (a - r.start).toNat = (r.start + j - a).toNat by
        omega]

/-- Two rows of a glyph at address 0x10. -/
def twoRows : Region := ⟨0x10, #[0xF0, 0x90], Nat.two_pos⟩

/-- Stores, an image that runs over the end and an empty one leave a font as it is. An image over
the second row changes that row. -/
theorem firm_iff_twoRows :
    Firm twoRows [.write (.store16 0x10 7), .write (.loadImage 0x11 [1, 2]), .load16 0x10,
      .write (.loadImage 0x10 [])] ∧
    ∃ t, perform (.write (.loadImage 0x11 [1])) (region .font twoRows) = .ok none (region .font t) ∧
      t.bytes.getD 0 0 = 0xF0 ∧ t.bytes.getD 1 0 = 1 := by
  refine ⟨(firm_iff twoRows _).1.mpr fun w hw hb hf => ?_, ?_⟩
  · simp only [List.mem_cons, Operation.write.injEq, List.not_mem_nil, or_false, reduceCtorEq,
      false_or] at hw
    obtain rfl | rfl | rfl := hw
    · exact hf
    · exact absurd hf (show ¬ twoRows.Takes 0x11 [1, 2] by decide)
    · cases hb
  · obtain ⟨t, _, _, hwrite, hbytes⟩ := (firm_iff twoRows []).2 0x11 [1] (by decide)
    exact ⟨t, hwrite, hbytes 0, hbytes 1⟩

/-- An image of one byte is taken by a font of two, which then holds another byte. -/
theorem firm_not_under_image :
    (∃ t, perform (.write (.loadImage 0x10 [0])) (region .font twoRows) = .ok none t ∧
      (region .font twoRows).cells = [0xF0, 0x90] ∧ t.cells = [0, 0x90]) ∧
    ¬ Firm twoRows [.write (.loadImage 0x10 [0])] := by
  refine ⟨⟨_, rfl, rfl, rfl⟩, fun h => ?_⟩
  cases h.refused 0 _ rfl rfl

end Block

end Chip8
