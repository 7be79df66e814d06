/-
What normalization keeps of the characters that the scanner understands. All but
the operators leave a mark, so they are kept, in their order
(`Registry.normalize_keeps`). An operator may be any symbol, and a symbol need
not leave a mark: those that do not, such as the zero width space, can be
registered and are then dropped before the scanner sees them
(`Registry.exists_loses_iff`).
-/
import Reckon.Proofs.Token.Classes
import Reckon.Proofs.Token.Stripping

namespace Reckon

/-- The class, if it is not that of operators or of spaces, has characters that leave a mark. -/
theorem CharClass.Codes.mark {n : Nat} {k : CharClass} (h : k.Codes n) (hk : k ≠ space) :
    33 ≤ n ∧ n < 127 := by
  cases k <;> simp only [Codes] at h <;> first | omega | exact absurd rfl hk

namespace Registry

variable (r : Registry)

/-- The characters that go into tokens: digits, letters, the point, the comma, parentheses, and the
operators of the registry. -/
def understands (c : Char) : Bool :=
  [CharClass.digit, .letter, .point, .comma, .leftParen, .rightParen, .operator].any (·.holds r c)

/-- The operators that leave no mark. -/
def loses (c : Char) : Bool := r.isOperator (String.singleton c) && Text.isUnprintable c

variable {r} {c : Char}

theorem exists_holds (h : r.understands c = true) :
    ∃ k : CharClass, k.holds r c = true ∧ k ≠ .space := by
  obtain ⟨k, hk, hc⟩ := List.any_eq_true.1 h
  refine ⟨k, hc, ?_⟩
  rintro rfl
  simp at hk

/-- What is understood and leaves no mark is an operator. -/
theorem loses_eq (h : r.understands c = true) : r.loses c = Text.isUnprintable c := by
  obtain ⟨k, hc, hspace⟩ := exists_holds h
  by_cases hk : k = .operator
  · subst hk
    rw [loses, show r.isOperator _ = true from hc, Bool.true_and]
  · have hmark := Text.isUnprintable_of_mark ((CharClass.codes_of_holds hc hk).mark hspace)
    rw [loses, hmark, Bool.and_false]

theorem filter_strip (s : String) : (stripUnprintable s).toList.filter r.understands =
    s.toList.filter fun c => r.understands c && !r.loses c := by
  rw [stripUnprintable, String.toList_ofList, List.filter_filter]
  refine List.filter_congr fun c _ => ?_
  cases h : r.understands c with
  | false => rfl
  | true => rw [loses_eq h]

/-! ## The decimal mark -/

theorem understands_swapMark (c : Char) : r.understands (swapMark c) = r.understands c := by
  unfold swapMark
  split
  · next h => simp [understands, CharClass.holds, h]
  · split
    · next h => simp [understands, CharClass.holds, h]
    · rfl

theorem loses_swapMark (c : Char) : r.loses (swapMark c) = r.loses c := by
  have hcodes : ∀ c ∈ [',', '.'], 33 ≤ c.toNat ∧ c.toNat < 127 := by simp
  have hmark : ∀ c ∈ [',', '.'], r.loses c = false := fun c hc => by
    rw [loses, Text.isUnprintable_of_mark (hcodes c hc), Bool.and_false]
  unfold swapMark
  split
  · next h => rw [h, hmark _ (by simp), hmark _ (by simp)]
  · split
    · next h => rw [h, hmark _ (by simp), hmark _ (by simp)]
    · rfl

theorem filter_normalize (s : String) (international : Bool) :
    (normalize s international).toList.filter r.understands =
      (s.toList.filter fun c => r.understands c && !r.loses c).map
        (if international then swapMark else id) := by
  rw [normalize, filter_strip]
  cases international with
  | false => simp
  | true =>
    simp only [if_true, swapMarks, String.toList_ofList, List.filter_map]
    congr 1
    refine List.filter_congr fun c _ => ?_
    rw [Function.comp, understands_swapMark, loses_swapMark]

/-! ## What is kept -/

/-- A registry has all its characters kept in every text if all its operators leave a mark. -/
theorem filter_strip_eq_iff :
    (∀ s, (stripUnprintable s).toList.filter r.understands = s.toList.filter r.understands) ↔
      ∀ c, r.loses c = false := by
  refine ⟨fun hkeeps c => ?_, fun hloses s => ?_⟩
  · -- a text of this one character
    have h := hkeeps (String.singleton c)
    rw [filter_strip, String.toList_singleton] at h
    cases hlost : r.loses c with
    | false => rfl
    | true =>
      have hop : CharClass.operator.holds r c = true := (Bool.and_eq_true_iff.1 hlost).1
      have hunderstood : r.understands c = true :=
        List.any_eq_true.2 ⟨.operator, by simp, hop⟩
      have hmem : c ∈ [c].filter r.understands := by simp [hunderstood]
      rw [← h] at hmem
      simp [hlost] at hmem
  · rw [filter_strip]
    refine List.filter_congr fun c _ => ?_
    rw [hloses c, Bool.not_false, Bool.and_true]

/-- **What normalization keeps.** Of the characters that the scanner understands it keeps those that
are no operators or leave a mark, in their order, with the decimal mark as it is asked for. So a
registry has all of them kept, in every text, if none of its operators leaves no mark, and only
then. -/
theorem normalize_keeps (r : Registry) :
    (∀ s international, (normalize s international).toList.filter r.understands =
      (s.toList.filter fun c => r.understands c && !r.loses c).map
        (if international then swapMark else id)) ∧
    ((∀ s, (stripUnprintable s).toList.filter r.understands = s.toList.filter r.understands) ↔
      ∀ c, r.loses c = false) :=
  ⟨filter_normalize, filter_strip_eq_iff⟩

/-- Of arithmetic nothing is lost. -/
theorem filter_strip_standard (s : String) :
    (stripUnprintable s).toList.filter standard.understands =
      s.toList.filter standard.understands := by
  refine filter_strip_eq_iff.2 (fun c => ?_) s
  cases hop : standard.isOperator (String.singleton c) with
  | false => rw [loses, hop, Bool.false_and]
  | true =>
    have hcodes : ∀ c ∈ ['+', '-', '*', '/', '%'], 33 ≤ c.toNat ∧ c.toNat < 127 := by simp
    rw [loses, Text.isUnprintable_of_mark (hcodes c (symbol_of_standard hop)), Bool.and_false]

/-! ## What is lost -/

theorem register_of_check {d : Declaration} {o : Operation} (hr : r.frozen = false)
    (h : d.check = .ok o) :
    ∃ registration, r.register d = .ok registration ∧ registration.registry = r.insert o := by
  cases hregister : r.register d with
  | error => simp [register, hr, h, bind, Except.bind, pure, Except.pure] at hregister
  | ok registration =>
    obtain ⟨_, hcheck, hinsert⟩ := register_eq_ok hregister
    exact ⟨registration, rfl, Except.ok.inj (hcheck.symm.trans h) ▸ hinsert⟩

/-- Any symbol is an operator of some registry. -/
theorem exists_isOperator (hc : isSymbol c = true) :
    ∃ r : Registry, r.Reached ∧ r.isOperator (String.singleton c) = true := by
  have hcheck : (operator (String.singleton c) 1 Arithmetic.sum).check =
      .ok ⟨String.singleton c, false, Arithmetic.reducer Arithmetic.sum, 1, 2, some 2⟩ := by
    simp [Declaration.check, operator, hc]
  obtain ⟨registration, hregister, hinsert⟩ := register_of_check (r := empty) rfl hcheck
  refine ⟨registration.registry, .register .empty hregister, ?_⟩
  rw [hinsert, isOperator, get?_insert_self empty ⟨String.singleton c, _, _, _, _, _⟩]
  rfl

/-- **Any symbol that leaves no mark may be an operator that gets lost**, and nothing else. -/
theorem exists_loses_iff :
    (∃ r : Registry, r.Reached ∧ r.loses c = true) ↔
      isSymbol c = true ∧ Text.isUnprintable c = true := by
  constructor
  · rintro ⟨r, hr, hlost⟩
    obtain ⟨hop, hmark⟩ := Bool.and_eq_true_iff.1 hlost
    exact ⟨hr.isSymbol hop, hmark⟩
  · rintro ⟨hsymbol, hmark⟩
    obtain ⟨r, hr, hop⟩ := exists_isOperator hsymbol
    exact ⟨r, hr, Bool.and_eq_true_iff.2 ⟨hop, hmark⟩⟩

/-- Two numbers with a zero width space between them, which is registered for addition: the scanner
has three tokens for them, and after normalization one. -/
theorem normalize_zeroWidthSpace :
    let r := (standard.copy.registerAll [operator "\u200b" 1 Arithmetic.sum]).registry
    r.Reached ∧ r.isOperator "\u200b" = true ∧
      (stripUnprintable "3\u200b4").toList.filter r.understands ≠
        "3\u200b4".toList.filter r.understands ∧
      tokenize "3\u200b4" r .standard = .ok [⟨.number, "3", 0⟩, ⟨.operator, "\u200b", 1⟩,
        ⟨.number, "4", 2⟩, ⟨.finish, "", 3⟩] ∧
      normalize "3\u200b4" false = "34" ∧
      tokenize "34" r .standard = .ok [⟨.number, "34", 0⟩, ⟨.finish, "", 2⟩] := by
  intro r
  refine ⟨.registerAll standard_reached.copy _, ?_, ?_, ?_, ?_, ?_⟩
  all_goals decide +kernel

end Registry

end Reckon
