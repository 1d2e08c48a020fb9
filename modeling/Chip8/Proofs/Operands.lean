import Chip8.Operands

/-! # The fields of a word

The nibbles of a word are its digits to the base sixteen, of which only the last four
count, and the longer fields are its remainders. -/

namespace Chip8

theorem val_nibbleOf (v : Int) : ((nibbleOf v).val : Int) = v % 16 := by
  change ((v % 16).toNat : Int) = v % 16
  omega

namespace Operands

variable (w : Int)

theorem val_lead : ((ofWord w).lead.val : Int) = w / 4096 % 16 := by
  have h := val_nibbleOf (w / 256 / 16)
  rw [show (ofWord w).lead = nibbleOf (w / 256 / 16) from rfl, h]
  omega

theorem lead_ofWord : (ofWord w).lead = nibbleOf (w / 4096) := by
  apply Fin.ext
  have h := val_lead w
  have h' := val_nibbleOf (w / 4096)
  omega

theorem val_x : ((ofWord w).x.val : Int) = w / 256 % 16 := val_nibbleOf (w / 256)

theorem val_y : ((ofWord w).y.val : Int) = w / 16 % 16 := val_nibbleOf (w / 16)

theorem val_n : ((ofWord w).n.val : Int) = w % 16 := val_nibbleOf w

/-- The number that four nibbles spell. -/
def word (o : Operands) : Nat := ((o.lead.val * 16 + o.x.val) * 16 + o.y.val) * 16 + o.n.val

theorem word_ofWord : ((ofWord w).word : Int) = w % 65536 := by
  have hl := val_lead w
  have hx := val_x w
  have hy := val_y w
  have hn := val_n w
  unfold word
  omega

theorem ofWord_word (o : Operands) : ofWord o.word = o := by
  have hl := o.lead.isLt
  have hx := o.x.isLt
  have hy := o.y.isLt
  have hn := o.n.isLt
  have el := val_lead o.word
  have ex := val_x o.word
  have ey := val_y o.word
  have en := val_n o.word
  unfold word at el ex ey en ⊢
  rw [mk.injEq, Fin.ext_iff, Fin.ext_iff, Fin.ext_iff, Fin.ext_iff]
  omega

theorem nn_eq (o : Operands) : o.nn = o.y.val * 16 + o.n.val := by
  simp [nn, joinNibbles]

theorem nnn_eq (o : Operands) : o.nnn = (o.x.val * 16 + o.y.val) * 16 + o.n.val := by
  simp [nnn, joinNibbles]

theorem nn_ofWord : ((ofWord w).nn : Int) = w % 256 := by
  have hy := val_y w
  have hn := val_n w
  rw [nn_eq]
  omega

theorem nnn_ofWord : ((ofWord w).nnn : Int) = w % 4096 := by
  have hx := val_x w
  have hy := val_y w
  have hn := val_n w
  rw [nnn_eq]
  omega

theorem nnn_lt (o : Operands) : o.nnn < 4096 := by
  have hx := o.x.isLt
  have hy := o.y.isLt
  have hn := o.n.isLt
  rw [nnn_eq]
  omega

end Operands

end Chip8
