/-!
# Comparing names up to letter case

Only the letters A to Z have two cases here; every other character stands for itself.
-/

namespace AccessControl.Text

/-- Whether two texts are equal once the letters A to Z are written in one case. -/
def sameLetters (left right : String) : Bool :=
  left.toList.map Char.toUpper == right.toList.map Char.toUpper

theorem sameLetters_iff {left right : String} :
    sameLetters left right = true ↔
      left.toList.map Char.toUpper = right.toList.map Char.toUpper := by
  simp [sameLetters]

theorem toNat_toUpper (c : Char) :
    c.toUpper.toNat = if 97 ≤ c.toNat ∧ c.toNat ≤ 122 then c.toNat - 32 else c.toNat := by
  have hletter : ('a'.val ≤ c.val ∧ c.val ≤ 'z'.val) ↔ 97 ≤ c.toNat ∧ c.toNat ≤ 122 := by
    simp only [UInt32.le_iff_toNat_le, Char.toNat]
    rfl
  have hshift : ('A'.val - 'a'.val).toNat = 4294967264 := by decide
  delta Char.toUpper
  split
  case isTrue h =>
    have hcode : 97 ≤ c.val.toNat ∧ c.val.toNat ≤ 122 := hletter.1 h
    have hsum : (c.val + ('A'.val - 'a'.val)).toNat = c.val.toNat - 32 := by
      rw [UInt32.toNat_add, hshift]
      omega
    rw [if_pos (hletter.1 h)]
    exact hsum
  case isFalse h => rw [if_neg (mt hletter.2 h)]

end AccessControl.Text
