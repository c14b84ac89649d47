import Mathlib
import Worksheet.Proofs.Chars.Trim
import Worksheet.Text

namespace Worksheet.Chars

theorem isBlank_toLower (c : Char) : isBlank c.toLower = isBlank c := by
  by_cases h : c.isUpper
  · have hrange : 65 ≤ c.toNat ∧ c.toNat ≤ 90 := by
      simpa [Char.isUpper, UInt32.le_iff_toNat_le] using h
    have hvalid : (c.toNat + 32).isValidChar := Or.inl (by omega)
    have hlower : c.toLower.toNat = c.toNat + 32 := by
      rw [Char.toLower_eq_of_isUpper h, Char.toNat_ofNat, if_pos hvalid]
    have hc : isBlank c = false := by
      simp [isBlank, blankRanges, inRanges]
      omega
    have hl : isBlank c.toLower = false := by
      simp [isBlank, blankRanges, inRanges, hlower]
      omega
    rw [hc, hl]
  · rw [Char.toLower_eq_of_not_isUpper h]

theorem trim_map_toLower (cs : List Char) :
    trim (cs.map Char.toLower) = (trim cs).map Char.toLower := by
  have hb : isBlank ∘ Char.toLower = isBlank := funext isBlank_toLower
  have hdrop : ∀ xs : List Char,
      (xs.map Char.toLower).dropWhile isBlank = (xs.dropWhile isBlank).map Char.toLower := by
    intro xs
    rw [List.dropWhile_map, hb]
  rw [trim, trimEnd, trimStart, hdrop, ← List.map_reverse, hdrop, ← List.map_reverse]
  rfl

/-- What is no letter is no letter in small either. -/
theorem eq_of_toLower_eq {c d : Char} (hd : d.isAlpha = false) (h : c.toLower = d) : c = d := by
  have hc : c.isAlpha = false := by
    rw [← Char.isAlpha_toLower_eq_isAlpha, h, hd]
  have hupper : ¬ c.isUpper := by
    intro hu
    simp [Char.isAlpha, hu] at hc
  rw [← h, Char.toLower_eq_of_not_isUpper hupper]

theorem utf8Size_of_ascii {c : Char} (h : c.toNat ≤ 127) : c.utf8Size = 1 :=
  Char.utf8Size_eq_one_iff.2 (UInt32.le_iff_toNat_le.2 h)

theorem utf8Size_toLower (c : Char) : c.toLower.utf8Size = c.utf8Size := by
  by_cases h : c.isUpper
  · have hrange : 65 ≤ c.toNat ∧ c.toNat ≤ 90 := by
      simpa [Char.isUpper, UInt32.le_iff_toNat_le] using h
    have hvalid : (c.toNat + 32).isValidChar := Or.inl (by omega)
    have hlower : c.toLower.toNat = c.toNat + 32 := by
      rw [Char.toLower_eq_of_isUpper h, Char.toNat_ofNat, if_pos hvalid]
    rw [utf8Size_of_ascii (by omega), utf8Size_of_ascii (by omega)]
  · rw [Char.toLower_eq_of_not_isUpper h]

theorem size_map_toLower (cs : List Char) : size (cs.map Char.toLower) = size cs := by
  induction cs with
  | nil => rfl
  | cons c cs ih => rw [List.map_cons, size_cons, size_cons, utf8Size_toLower, ih]

theorem utf8Size_of_isIdentChar {c : Char} (h : Text.isIdentChar c = true) : c.utf8Size = 1 := by
  have hcases : (((65 ≤ c.toNat ∧ c.toNat ≤ 90) ∨ (97 ≤ c.toNat ∧ c.toNat ≤ 122)) ∨
      (48 ≤ c.toNat ∧ c.toNat ≤ 57)) ∨ c = '_' := by
    simpa [Text.isIdentChar, Char.isAlphanum, Char.isAlpha, Char.isUpper, Char.isLower,
      Char.isDigit, UInt32.le_iff_toNat_le] using h
  obtain hletter | rfl := hcases
  · exact utf8Size_of_ascii (by omega)
  · rfl

/-- The characters of an identifier have one byte each. -/
theorem size_of_ident {name : List Char} (h : ∀ c ∈ name, Text.isIdentChar c = true) :
    size name = name.length := by
  induction name with
  | nil => rfl
  | cons c name ih =>
    rw [size_cons, utf8Size_of_isIdentChar (h c (by simp)), ih fun d hd => h d (by simp [hd]),
      List.length_cons, Nat.add_comm]

end Worksheet.Chars
