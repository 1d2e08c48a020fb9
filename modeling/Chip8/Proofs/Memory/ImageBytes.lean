import Chip8.Proofs.Memory.Image

/-! # An image byte by byte

A region that takes single bytes can be filled with an image in two ways: the image is laid over it
as a whole, or its bytes are stored one after another. Where the image lies in the region both come
to the same, which is also what comes of it when the bytes in its range are cut out and the image is
put in their place; as it is as long as its range, the region keeps its length. An image that lies
elsewhere is refused before anything is written. -/

namespace Chip8

/-- Others in place of the elements from one place up to another one, however many there are. -/
def splice {α : Type} (lo hi : Nat) (ys xs : List α) : List α :=
  xs.take lo ++ ys ++ xs.drop (max lo hi)

/-- One element after the other comes to the same as all of them at once. -/
theorem splice_cons {α : Type} {xs : List α} {k : Nat} (hk : k < xs.length) (y : α)
    (ys : List α) : splice (k + 1) (k + 1 + ys.length) ys (xs.set k y) =
      splice k (k + (y :: ys).length) (y :: ys) xs := by
  have htake : (xs.set k y).take (k + 1) = xs.take k ++ [y] := by
    rw [List.take_add_one, List.take_set_of_le (Nat.le_refl k), List.getElem?_set_self hk]
    rfl
  have hdrop : (xs.set k y).drop (k + 1 + ys.length) = xs.drop (k + 1 + ys.length) :=
    List.drop_set_of_lt (by omega)
  have hlen : k + (y :: ys).length = k + 1 + ys.length := by
    rw [List.length_cons]
    omega
  rw [splice, splice, hlen, Nat.max_eq_right (by omega), Nat.max_eq_right (by omega), htake, hdrop]
  simp only [List.append_assoc, List.singleton_append]

namespace Region

theorem toList_overlay (image : List UInt8) : ∀ {r : Region} {k : Nat},
    k + image.length ≤ r.bytes.size →
      (r.overlay k image).bytes.toList = splice k (k + image.length) image r.bytes.toList := by
  induction image with
  | nil =>
    intro r k _
    simp [splice, overlay]
  | cons b bs ih =>
    intro r k hk
    rw [List.length_cons] at hk
    have hput : k + 1 + bs.length ≤ (r.put k b).bytes.size := by
      rw [size_put]
      omega
    have hlt : k < r.bytes.toList.length := by
      rw [Array.length_toList]
      omega
    rw [overlay, ih hput, ← splice_cons hlt]
    simp only [put, Array.toList_setIfInBounds]

end Region

namespace Block

/-- Stores bytes one after another, each of them by itself. -/
def storeAll (a : Int) : List UInt8 → EStateM MemoryFault Block Unit
  | [] => pure ()
  | b :: bs => do
    write (.store8 a b.toNat)
    storeAll (a + 1) bs

variable {k : RegionKind} {r : Region} {a : Int}

theorem write_store8 (hk : k ≠ .font) (lo : r.start ≤ a) (hi : a ≤ r.stop) (b : UInt8) :
    write (.store8 a b.toNat) (region k r) = .ok () (region k (r.put (a - r.start).toNat b)) := by
  have hstore : r.store a b.toNat = .ok (r.put (a - r.start).toNat b) := by
    rw [Region.store, Region.offset_eq_ok lo hi, ok_bind, byteOf_toNat]
    rfl
  cases k with
  | font => exact absurd rfl hk
  | ram | mainRam => simp only [write, attempt, store8, hstore, ok_bind, pure_eq_ok]

/-- Every byte goes to its place, as no store moves the region. -/
theorem storeAll_eq_ok (hk : k ≠ .font) (image : List UInt8) : ∀ {r : Region} {a : Int},
    r.start ≤ a → a + image.length ≤ r.stop + 1 →
      storeAll a image (region k r) = .ok () (region k (r.overlay (a - r.start).toNat image)) := by
  induction image with
  | nil => exact fun _ _ => rfl
  | cons b bs ih =>
    intro r a lo hfit
    rw [List.length_cons] at hfit
    have hfirst := write_store8 (a := a) hk lo (by omega) b
    have hstop : (r.put (a - r.start).toNat b).stop = r.stop := by
      rw [Region.stop, Region.stop, Region.size_put]
      rfl
    have hrest := ih (r := r.put (a - r.start).toNat b) (a := a + 1)
      (show (r.start : Int) ≤ a + 1 by omega) (by rw [hstop]; omega)
    refine bind_eq_ok.mpr ⟨(), _, hfirst, hrest.trans ?_⟩
    rw [Region.overlay]
    congr 3
    change (a + 1 - r.start).toNat = (a - r.start).toNat + 1
    omega

/-- The block that is left is a region of the same range. -/
theorem leftBy_loadImage (k : RegionKind) (r : Region) (a : Int) (image : List UInt8) :
    ∃ t, leftBy (write (.loadImage a image)) (region k r) = region k t ∧ t.start = r.start ∧
      t.bytes.size = r.bytes.size := by
  by_cases h : r.Takes a image
  · exact ⟨_, leftBy_of_ok (write_of_takes h), Region.start_overlay image r _,
      Region.size_overlay image r _⟩
  · exact ⟨r, leftBy_of_error (write_of_not_takes h), rfl, rfl⟩

/-- What comes of an image that is laid over a region. -/
structure Bytewise (k : RegionKind) (r : Region) (a : Int) (image : List UInt8) : Prop where
  taken : r.start ≤ a → a < r.start + r.bytes.size → a + image.length ≤ r.start + r.bytes.size →
    ∃ t, write (.loadImage a image) (region k r) = .ok () t ∧
      storeAll a image (region k r) = .ok () t ∧
      t.cells = (splice (a - r.start).toNat ((a - r.start).toNat + image.length) image
        r.bytes.toList).map fun b => (b.toNat : Int)
  refused : ¬ (r.start ≤ a ∧ a < r.start + r.bytes.size ∧
      a + image.length ≤ r.start + r.bytes.size) →
    write (.loadImage a image) (region k r) = .error (r.imageFault a image) (region k r)
  length : (leftBy (write (.loadImage a image)) (region k r)).cells.length = r.bytes.size
  defined : ∀ a' : Int, r.start ≤ a' → a' < r.start + r.bytes.size →
    ∃ b, (leftBy (write (.loadImage a image)) (region k r)).load8 a' = .ok b

/-- An image that lies in a region comes to its bytes stored one by one, and any other leaves the
region as it was. In every case the region is as long as before, so all its addresses can be
read. -/
theorem image_as_stored {k : RegionKind} (hk : k ≠ .font) (r : Region) (a : Int)
    (image : List UInt8) : Bytewise k r a image := by
  have htakes : r.Takes a image ↔ r.start ≤ a ∧ a < r.start + r.bytes.size ∧
      a + image.length ≤ r.start + r.bytes.size := by
    unfold Region.Takes Region.stop
    omega
  obtain ⟨t, hleft, hstart, hsize⟩ := leftBy_loadImage k r a image
  refine
    { taken := fun lo hi hfit => ?_
      refused := fun h => write_of_not_takes fun ht => h (htakes.mp ht)
      length := ?_
      defined := fun a' lo hi => ?_ }
  · have h := htakes.mpr ⟨lo, hi, hfit⟩
    refine ⟨_, write_of_takes h, storeAll_eq_ok hk image lo h.2.2, ?_⟩
    rw [cells, Region.toList_overlay image (by omega)]
  · rw [hleft, cells, List.length_map, Array.length_toList, hsize]
  · rw [hleft]
    refine ⟨_, load8_eq_ok (by omega) ?_⟩
    rw [Region.stop]
    omega

/-- The second of two rows is written over. Behind the last row there is no room, not even for an
image without bytes. -/
theorem image_as_stored_twoRows : RegionKind.mainRam ≠ .font ∧
    (∃ t, write (.loadImage 0x11 [7]) (region .mainRam twoRows) = .ok () t ∧
      storeAll 0x11 [7] (region .mainRam twoRows) = .ok () t ∧ t.cells = [0xF0, 7]) ∧
    write (.loadImage 0x11 [7, 8]) (region .mainRam twoRows) =
      .error (.imageOverrun 2 0x11 0x11) (region .mainRam twoRows) ∧
    write (.loadImage 0x12 []) (region .mainRam twoRows) =
      .error (.outsideRegion 0x12 0x10 0x11) (region .mainRam twoRows) := by
  have hk : RegionKind.mainRam ≠ .font := by decide
  exact ⟨hk, (image_as_stored hk twoRows 0x11 [7]).taken (by decide) (by decide) (by decide),
    (image_as_stored hk twoRows 0x11 [7, 8]).refused (by decide),
    (image_as_stored hk twoRows 0x12 []).refused (by decide)⟩

end Block

end Chip8
