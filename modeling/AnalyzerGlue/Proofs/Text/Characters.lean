import AnalyzerGlue.Text.Letter

/-!
# Classes of characters

How the classes that words, numbers and white space are made of lie to each
other.  ASCII classes are reduced to bounds on code points; the tables beyond
ASCII are compared range by range.
-/

namespace AnalyzerGlue.Text

/-! ## ASCII -/

theorem isDigit_iff_toNat {c : Char} : c.isDigit = true ↔ 48 ≤ c.toNat ∧ c.toNat ≤ 57 := by
  simp [Char.isDigit, UInt32.le_iff_toNat_le]

theorem isAlpha_iff_toNat {c : Char} :
    c.isAlpha = true ↔ 65 ≤ c.toNat ∧ c.toNat ≤ 90 ∨ 97 ≤ c.toNat ∧ c.toNat ≤ 122 := by
  have bounds : c.isAlpha = (decide (65 ≤ c.val ∧ c.val ≤ 90) ||
      (decide (97 ≤ c.val) && decide (c.val ≤ 122))) := rfl
  simp [bounds, UInt32.le_iff_toNat_le]

/-- Letters and digits of ASCII may continue a word. -/
theorem continuesWord_of_isAlphanum {c : Char} (ascii : c.isAlphanum = true) :
    continuesWord c = true := by
  have bounds := ascii
  simp only [Char.isAlphanum, Bool.or_eq_true, isAlpha_iff_toNat, isDigit_iff_toNat] at bounds
  have small : c.toNat < 128 := by omega
  simp [continuesWord, isLetterOrNumber, small, ascii]

theorem continuesWord_of_isDigit {c : Char} (digit : c.isDigit = true) :
    continuesWord c = true :=
  continuesWord_of_isAlphanum (by simp [Char.isAlphanum, digit])

/-- No word starts with a digit. -/
theorem startsWord_eq_false_of_isDigit {c : Char} (digit : c.isDigit = true) :
    startsWord c = false := by
  have bounds := isDigit_iff_toNat.mp digit
  have small : c.toNat < 128 := by omega
  rw [Bool.eq_false_iff]
  intro starts
  simp only [startsWord, isLetter, small, if_true, Bool.or_eq_true, isAlpha_iff_toNat,
    beq_iff_eq] at starts
  rcases starts with letter | rfl
  · omega
  · revert digit
    decide

/-! ## Tables of ranges -/

/-- Whether no range of one class meets a range of another. -/
def Ranges.disjoint (first second : Ranges) : Bool :=
  first.all fun (low, high) => second.all fun (low', high') => high < low' || high' < low

theorem Ranges.has_eq_false_of_disjoint {first second : Ranges} {c : Char}
    (apart : first.disjoint second = true) (member : first.has c = true) :
    second.has c = false := by
  rw [Bool.eq_false_iff]
  intro both
  rcases Ranges.has_eq_true_iff.mp member with ⟨range, mem, low, high⟩
  rcases Ranges.has_eq_true_iff.mp both with ⟨range', mem', low', high'⟩
  have pair := List.all_eq_true.mp (List.all_eq_true.mp apart range mem) range' mem'
  simp only [Bool.or_eq_true, decide_eq_true_eq] at pair
  omega

theorem letterRanges_disjoint_spaceRanges : letterRanges.disjoint spaceRanges = true := by
  decide +kernel

theorem numberRanges_disjoint_spaceRanges : numberRanges.disjoint spaceRanges = true := by
  decide +kernel

/-- White space does not continue a word. -/
theorem isSpace_eq_false_of_continuesWord {c : Char} (continues : continuesWord c = true) :
    isSpace c = false := by
  simp only [continuesWord, isLetterOrNumber, Bool.or_eq_true, beq_iff_eq] at continues
  rcases continues with letter | rfl
  · split at letter
    · simp only [Char.isAlphanum, Bool.or_eq_true, isAlpha_iff_toNat,
        isDigit_iff_toNat] at letter
      rw [Bool.eq_false_iff]
      intro space
      simp only [isSpace, Ranges.has_eq_true_iff, spaceRanges, List.mem_cons, List.not_mem_nil,
        or_false, exists_eq_or_imp, exists_eq_left] at space
      omega
    · rcases Bool.or_eq_true_iff.mp letter with letter | number
      · exact Ranges.has_eq_false_of_disjoint letterRanges_disjoint_spaceRanges letter
      · exact Ranges.has_eq_false_of_disjoint numberRanges_disjoint_spaceRanges number
  · decide

end AnalyzerGlue.Text
