/-
The letters and digits of ASCII as code points. They are alphanumeric, so a
symbol is none of them. Of all characters of ASCII but the last, those after the
blank leave a mark.
-/
import Reckon.Registry
import Reckon.Text.Unprintable

namespace Reckon

namespace Text

theorem isDigit_iff {c : Char} : isDigit c = true ↔ 48 ≤ c.toNat ∧ c.toNat ≤ 57 := by
  simp only [isDigit, Bool.and_eq_true, decide_eq_true_eq, Char.le_def, UInt32.le_iff_toNat_le]
  rfl

theorem isLetter_iff {c : Char} :
    isLetter c = true ↔ (97 ≤ c.toNat ∧ c.toNat ≤ 122) ∨ (65 ≤ c.toNat ∧ c.toNat ≤ 90) := by
  simp only [isLetter, Bool.or_eq_true, Bool.and_eq_true, decide_eq_true_eq, Char.le_def,
    UInt32.le_iff_toNat_le]
  rfl

theorem not_isLetter_of_isDigit {c : Char} (h : isDigit c = true) : isLetter c = false := by
  rw [isDigit_iff] at h
  rw [← Bool.not_eq_true, isLetter_iff]
  omega

theorem not_isDigit_of_isLetter {c : Char} (h : isLetter c = true) : isDigit c = false := by
  rw [isLetter_iff] at h
  rw [← Bool.not_eq_true, isDigit_iff]
  omega

/-- The intervals of alphanumeric characters begin with those of ASCII. -/
theorem Ranges.contains_ascii (rest : Ranges) {n : Nat}
    (h : (48 ≤ n ∧ n ≤ 57) ∨ (65 ≤ n ∧ n ≤ 90) ∨ (97 ≤ n ∧ n ≤ 122)) :
    Ranges.contains ((48, 57) :: (65, 90) :: (97, 122) :: rest) n = true := by
  rcases h with h | h | h
  · simp only [Ranges.contains, if_neg (show ¬n < 48 by omega)]
    simp [h.2]
  · simp only [Ranges.contains, if_neg (show ¬n < 48 by omega), if_neg (show ¬n < 65 by omega)]
    simp [h.2]
  · simp only [Ranges.contains, if_neg (show ¬n < 48 by omega), if_neg (show ¬n < 65 by omega),
      if_neg (show ¬n < 97 by omega)]
    simp [h.2]

theorem isAlphanumeric_of_isDigit {c : Char} (h : isDigit c = true) : isAlphanumeric c = true :=
  Ranges.contains_ascii _ (.inl (isDigit_iff.1 h))

theorem isAlphanumeric_of_isLetter {c : Char} (h : isLetter c = true) :
    isAlphanumeric c = true := by
  refine Ranges.contains_ascii _ (.inr ?_)
  rw [isLetter_iff] at h
  omega

theorem Ranges.contains_below (rest : Ranges) {n hi lo hi' : Nat} (h : n < lo) :
    Ranges.contains ((0, hi) :: (lo, hi') :: rest) n = decide (n ≤ hi) := by
  simp [Ranges.contains, h]

theorem isUnprintable_eq {c : Char} (h : c.toNat < 127) :
    isUnprintable c = decide (c.toNat ≤ 32) :=
  Ranges.contains_below _ h

theorem isUnprintable_of_mark {c : Char} (h : 33 ≤ c.toNat ∧ c.toNat < 127) :
    isUnprintable c = false := by
  rw [isUnprintable_eq h.2, decide_eq_false_iff_not]
  omega

theorem isBlank_of_mark {c : Char} (h : 33 ≤ c.toNat ∧ c.toNat < 127) : isBlank c = false := by
  rw [← Bool.not_eq_true]
  intro hblank
  simp [isBlank, isWhiteSpace, whiteSpaceRanges, Ranges.contains] at hblank
  omega

end Text

/-- A symbol is nothing else that an expression is made of. -/
theorem isSymbol_eq_true {c : Char} (h : isSymbol c = true) :
    Text.isDigit c = false ∧ Text.isLetter c = false ∧ Text.isBlank c = false ∧
      c ≠ '.' ∧ c ≠ ',' ∧ c ≠ '(' ∧ c ≠ ')' := by
  simp only [isSymbol, isReserved, Bool.and_eq_true, Bool.not_eq_true', Bool.or_eq_false_iff,
    decide_eq_false_iff_not] at h
  obtain ⟨⟨halnum, hblank⟩, ⟨⟨hopen, hclose⟩, hpoint⟩, hcomma⟩ := h
  refine ⟨?_, ?_, hblank, hpoint, hcomma, hopen, hclose⟩
  · cases hd : Text.isDigit c with
    | false => rfl
    | true => simp [Text.isAlphanumeric_of_isDigit hd] at halnum
  · cases hl : Text.isLetter c with
    | false => rfl
    | true => simp [Text.isAlphanumeric_of_isLetter hl] at halnum

end Reckon
