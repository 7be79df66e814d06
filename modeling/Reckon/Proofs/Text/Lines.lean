/-
The lines of a text, which are what stands between the characters that end a
line. Texts on one line make texts on one line (`OneLine.append`); numbers are
written on one line, and whatever is normalized is on one line, since line breaks
leave no mark.
-/
import Reckon.Token.Scanner

namespace Reckon

/-- The code points of the characters that end a line. -/
def lineBreaks : Text.Ranges := [(0xA, 0xD), (0x1C, 0x1E), (0x85, 0x85), (0x2028, 0x2029)]

def isLineBreak (c : Char) : Bool := lineBreaks.contains c.toNat

/-- What stands between the line breaks of a text. -/
def lines (s : String) : List String := (s.toList.splitOnP isLineBreak).map String.ofList

/-- No character of the text ends a line. -/
def OneLine (s : String) : Prop := ∀ c ∈ s.toList, isLineBreak c = false

instance (s : String) : Decidable (OneLine s) :=
  List.decidableBAll (fun c => isLineBreak c = false) s.toList

/-! ## Texts on one line -/

namespace OneLine

theorem append {a b : String} (ha : OneLine a) (hb : OneLine b) : OneLine (a ++ b) := by
  intro c hc
  rw [String.toList_append, List.mem_append] at hc
  exact hc.elim (ha c) (hb c)

theorem of_nat (n : Nat) : OneLine (toString n) := by
  intro c hc
  have hdigit : c.isDigit = true := by
    rw [show (toString n).toList = Nat.toDigits 10 n from Nat.toList_repr] at hc
    exact Nat.isDigit_of_mem_toDigits (by decide) (by decide) hc
  obtain ⟨hlow, hhigh⟩ := Char.isDigit_iff_toNat.1 hdigit
  simp only [Char.reduceToNat] at hlow hhigh
  simp [isLineBreak, lineBreaks, Text.Ranges.contains]
  omega

theorem of_int : ∀ i : Int, OneLine (toString i)
  | .ofNat n => of_nat n
  | .negSucc n => append (a := "-") (by decide) (of_nat (n + 1))

/-- The lines of a text that begins with a line. -/
theorem lines_append {a : String} (ha : OneLine a) (b : String) :
    lines (a ++ "\n" ++ b) = a :: lines b := by
  have hsplit : (a ++ "\n" ++ b).toList = a.toList ++ '\n' :: b.toList := by simp
  rw [lines, hsplit, List.splitOnP_append_cons a.toList b.toList (by decide),
    List.splitOnP_eq_singleton ha]
  simp [lines]

theorem lines_eq {a : String} (ha : OneLine a) : lines a = [a] := by
  rw [lines, List.splitOnP_eq_singleton ha]
  simp

end OneLine

/-! ## Normalized texts -/

theorem isUnprintable_of_isLineBreak {c : Char} (h : isLineBreak c = true) :
    Text.isUnprintable c = true := by
  have hbreak : c.toNat ∈ [0xA, 0xB, 0xC, 0xD, 0x1C, 0x1D, 0x1E, 0x85, 0x2028, 0x2029] := by
    simp only [isLineBreak, lineBreaks, Text.Ranges.contains] at h
    simp at h ⊢
    omega
  have hmark : ∀ n ∈ [0xA, 0xB, 0xC, 0xD, 0x1C, 0x1D, 0x1E, 0x85, 0x2028, 0x2029],
      Text.unprintableRanges.contains n = true := by
    decide +kernel
  exact hmark _ hbreak

/-- What is normalized is on one line. -/
theorem oneLine_normalize (s : String) (international : Bool) :
    OneLine (normalize s international) := by
  intro c hc
  rw [normalize, stripUnprintable, String.toList_ofList, List.mem_filter] at hc
  rw [← Bool.not_eq_true]
  intro hbreak
  simp [isUnprintable_of_isLineBreak hbreak] at hc

end Reckon
