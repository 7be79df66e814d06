/-
Numerals are numbers: whatever the scanner takes for one, the reader of numbers
reads (`Numeral.read`).
-/
import Reckon.Decimal.Reading
import Reckon.Proofs.Token.Lexeme

namespace Reckon

/-- Nothing is taken off the ends of a text that has no character of the class. -/
theorem Text.trim_eq_self {p : Char → Bool} {cs : List Char} (h : ∀ c ∈ cs, p c = false) :
    Text.trim p cs = cs := by
  have hdrop {l : List Char} (h : ∀ c ∈ l, p c = false) : l.dropWhile p = l := by
    cases l with
    | nil => rfl
    | cons a l => simp [h a (by simp)]
  unfold Text.trim
  rw [hdrop h, hdrop (by simpa using h), List.reverse_reverse]

theorem isNumeric_iff {c : Char} :
    isNumeric c = true ↔ (48 ≤ c.toNat ∧ c.toNat ≤ 57) ∨ c = '.' := by
  rw [isNumeric, Bool.or_eq_true, Text.isDigit_iff, beq_iff_eq]

namespace Decimal

theorem dropUnderscores_eq_self : ∀ {cs : List Char}, '_' ∉ cs → dropUnderscores cs = some cs
  | [], _ => rfl
  | [c], h => by
    unfold dropUnderscores
    split <;> simp_all [dropUnderscores]
  | c :: d :: cs, h => by
    have ih : dropUnderscores (d :: cs) = some (d :: cs) :=
      dropUnderscores_eq_self (List.not_mem_of_not_mem_cons h)
    unfold dropUnderscores
    split <;> simp_all

/-- Digits and points stand for themselves in a number. -/
theorem plainChar_of_isNumeric {c : Char} (h : isNumeric c = true) : plainChar c = c := by
  rw [isNumeric_iff] at h
  unfold plainChar
  rcases h with h | rfl
  · rw [if_pos (by omega)]
  · rfl

theorem isMargin_of_isNumeric {c : Char} (h : isNumeric c = true) : isMargin c = false := by
  have hspace : ' '.toNat = 32 := rfl
  rw [isNumeric_iff] at h
  rcases h with h | rfl
  · have : c ≠ ' ' := fun hc => by
      subst hc
      omega
    simp [isMargin, this]
    omega
  · rfl

theorem toLower_of_isNumeric {c : Char} (h : isNumeric c = true) : c.toLower = c := by
  rw [isNumeric_iff] at h
  have hval : c.toNat = c.val.toNat := rfl
  rcases h with h | rfl
  · unfold Char.toLower
    rw [dif_neg]
    rintro ⟨h', _⟩
    have : 65 ≤ c.val.toNat := UInt32.le_iff_toNat_le.1 h'
    omega
  · rfl

theorem takeSign_of_numeric {cs : List Char} (h : ∀ c ∈ cs, isNumeric c = true) :
    takeSign cs = (false, cs) := by
  unfold takeSign
  split
  · exact absurd (h '-' (by simp)) (by decide)
  · exact absurd (h '+' (by simp)) (by decide)
  · rfl

theorem isSome_unsigned? {cs : List Char} (h : Numeral cs) : (unsigned? false cs).isSome := by
  have hpoint : Text.isDigit '.' = false := by decide
  unfold unsigned?
  cases h with
  | whole hne hd => simp [hd.split, hne]
  | point hne hd he =>
    simp [List.takeWhile_append_of_pos hd, List.dropWhile_append_of_pos hd, hpoint, he.split, hne]
  | fraction hne he => simp [hpoint, he.split, hne]

end Decimal

open Decimal in
/-- **Every numeral is read as a number.** -/
theorem Numeral.read {s : String} (h : Numeral s.toList) : (read? s).isSome := by
  have hcs := h.numeric
  have hunderscore : '_' ∉ s.toList := fun hmem => absurd (hcs _ hmem) (by decide)
  have hmap {f : Char → Char} (hf : ∀ c, isNumeric c = true → f c = c) :
      s.toList.map f = s.toList :=
    (List.map_congr_left fun c hc => hf c (hcs c hc)).trans (List.map_id' _)
  have hword (w : String) {c} (hc : isNumeric c = false) (hw : c ∈ w.toList) :
      String.ofList (s.toList.map Char.toLower) ≠ w := fun he => by
    rw [hmap fun _ => toLower_of_isNumeric, String.ofList_toList] at he
    subst he
    simp [hcs c hw] at hc
  rw [read?, hmap fun _ => plainChar_of_isNumeric,
    Text.trim_eq_self fun c hc => isMargin_of_isNumeric (hcs c hc),
    dropUnderscores_eq_self hunderscore, Option.bind_some, bare?, takeSign_of_numeric hcs]
  have hinf := hword "inf" (c := 'i') (by decide) (by decide)
  have hinfinity := hword "infinity" (c := 'i') (by decide) (by decide)
  have hnan := hword "nan" (c := 'n') (by decide) (by decide)
  simp only [hinf, hinfinity, hnan, decide_false, Bool.or_self, Bool.false_eq_true, if_false]
  exact isSome_unsigned? h

end Reckon
