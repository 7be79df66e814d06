/-
Cutting a text into pieces, told without the scanner. A run is letters with, if
a point follows them, that point and all digits and points behind it, or else
digits and points. The longest run that a text begins with is its first piece;
where there is none the first character is a piece by itself.

The characters carry their positions (`Mark`), since not all of the source
comes to be cut.
-/
import Reckon.Proofs.Token.Lexeme

namespace Reckon

/-- A character of the source and where it stands. -/
structure Mark where
  position : Nat
  char : Char

namespace Mark

def isLetter (m : Mark) : Bool := Text.isLetter m.char

def isNumeric (m : Mark) : Bool := Reckon.isNumeric m.char

end Mark

/-- The characters from a position on. -/
def marks (position : Nat) : List Char → List Mark
  | [] => []
  | c :: cs => ⟨position, c⟩ :: marks (position + 1) cs

/-- Characters that belong together. -/
abbrev Piece := List Mark

namespace Piece

def chars (p : Piece) : List Char := p.map Mark.char

/-- The position of the first character. -/
def start (p : Piece) : Nat := (p.head?.map Mark.position).getD 0

end Piece

/-! ## Runs -/

/-- `[A-Za-z]+`, `[A-Za-z]+ '.' [0-9.]*` or `[0-9.]+`. -/
inductive IsRun : Piece → Prop
  | letters {w : Piece} : w ≠ [] → (∀ m ∈ w, m.isLetter = true) → IsRun w
  | mixed {w : Piece} {point : Mark} {t : Piece} : w ≠ [] → (∀ m ∈ w, m.isLetter = true) →
      point.char = '.' → (∀ m ∈ t, m.isNumeric = true) → IsRun (w ++ point :: t)
  | numeric {t : Piece} : t ≠ [] → (∀ m ∈ t, m.isNumeric = true) → IsRun t

/-- The longest run at the head; empty where there is none. -/
def longestRun (ms : List Mark) : Piece :=
  let word := ms.takeWhile Mark.isLetter
  if word.isEmpty then ms.takeWhile Mark.isNumeric
  else match ms.dropWhile Mark.isLetter with
    | [] => word
    | point :: rest =>
      if point.char = '.' then word ++ point :: rest.takeWhile Mark.isNumeric else word

/-- The pieces of a text, from left to right. -/
def cut : List Mark → List Piece
  | [] => []
  | m :: ms =>
    match longestRun (m :: ms) with
    | [] => [m] :: cut ms
    | n :: run => (n :: run) :: cut (ms.drop run.length)
termination_by ms => ms.length
decreasing_by
  · exact Nat.lt_succ_self _
  · simp only [List.length_drop, List.length_cons]
    omega

theorem Mark.not_isLetter_of_isNumeric {m : Mark} (h : m.isNumeric = true) :
    m.isLetter = false := Reckon.not_isLetter_of_isNumeric h

theorem IsRun.ne_nil {p : Piece} (h : IsRun p) : p ≠ [] := by
  cases h <;> simp [*]

theorem isRun_singleton {m : Mark} : IsRun [m] ↔ m.isLetter = true ∨ m.isNumeric = true := by
  constructor
  · intro h
    generalize hp : [m] = p at h
    cases h with
    | letters _ hw => exact .inl (hw m (by simp [← hp]))
    | @mixed w point t hne _ _ _ =>
      cases w with
      | nil => exact absurd rfl hne
      | cons a w => simp at hp
    | numeric _ ht => exact .inr (ht m (by simp [← hp]))
  · rintro (h | h)
    · exact .letters (by simp) (by simpa using h)
    · exact .numeric (by simp) (by simpa using h)

theorem Mark.isNumeric_of_point {m : Mark} (h : m.char = '.') : m.isNumeric = true := by
  simp only [Mark.isNumeric, h]
  decide

theorem isNumeric_of_getLast? {w t : Piece} {point n : Mark} (hpoint : point.char = '.')
    (ht : ∀ m ∈ t, m.isNumeric = true) (h : (w ++ point :: t).getLast? = some n) :
    n.isNumeric = true := by
  rw [List.getLast?_append, List.getLast?_cons, Option.some_or] at h
  rw [← List.getLast?_cons] at h
  rcases List.mem_cons.1 (List.mem_of_getLast? h) with rfl | hn
  · exact Mark.isNumeric_of_point hpoint
  · exact ht n hn

/-- Whether a run goes on is seen from its last character. -/
theorem IsRun.snoc_iff {p : Piece} (hp : IsRun p) {n : Mark} (hlast : p.getLast? = some n)
    {m : Mark} : IsRun (p ++ [m]) ↔
      (m.isLetter = true ∧ n.isLetter = true) ∨ (m.isNumeric = true ∧ n.isNumeric = true) ∨
        m.char = '.' := by
  have hmem : n ∈ p := List.mem_of_getLast? hlast
  constructor
  · intro h
    generalize hq : p ++ [m] = q at h
    cases h with
    | letters _ hw =>
      subst hq
      exact .inl ⟨hw m (by simp), hw n (by simp [hmem])⟩
    | @mixed w point t _ _ hpt ht =>
      rcases List.eq_nil_or_concat t with rfl | ⟨t', m', rfl⟩
      · obtain ⟨_, hm⟩ := List.append_inj' hq rfl
        exact .inr (.inr ((List.cons.inj hm).1 ▸ hpt))
      · rw [List.concat_eq_append, ← List.cons_append, ← List.append_assoc] at hq
        obtain ⟨rfl, hm⟩ := List.append_inj' hq rfl
        obtain rfl := (List.cons.inj hm).1
        exact .inr (.inl ⟨ht m (by simp),
          isNumeric_of_getLast? hpt (fun m' hm' => ht m' (by simp [hm'])) hlast⟩)
    | numeric _ ht =>
      subst hq
      exact .inr (.inl ⟨ht m (by simp), ht n (by simp [hmem])⟩)
  · intro h
    have hnumeric (hn : n.isNumeric = true) : m.isNumeric = true := by
      rcases h with ⟨_, hl⟩ | ⟨hm, _⟩ | hm
      · rw [Mark.not_isLetter_of_isNumeric hn] at hl
        cases hl
      · exact hm
      · exact Mark.isNumeric_of_point hm
    cases hp with
    | letters hne hw =>
      have hn := hw n hmem
      rcases h with ⟨hm, _⟩ | ⟨_, hn'⟩ | hm
      · exact .letters (by simp) (by simpa [or_imp, forall_and] using ⟨hw, hm⟩)
      · rw [Mark.not_isLetter_of_isNumeric hn'] at hn
        cases hn
      · exact .mixed hne hw hm (by simp)
    | @mixed w point t hne hw hpt ht =>
      have hm := hnumeric (isNumeric_of_getLast? hpt ht hlast)
      rw [List.append_assoc, List.cons_append]
      exact .mixed hne hw hpt (by simpa [or_imp, forall_and] using ⟨ht, hm⟩)
    | numeric hne ht =>
      have hm := hnumeric (ht n hmem)
      exact .numeric (by simp) (by simpa [or_imp, forall_and] using ⟨ht, hm⟩)

/-! ## The longest run -/

/-- What follows a run does not go on with it. -/
def Stops (p : Piece) (rest : List Mark) : Prop := ∀ m ∈ rest.head?, ¬IsRun (p ++ [m])

theorem takeWhile_append_of_head {p : Mark → Bool} {xs rest : List Mark}
    (hxs : ∀ m ∈ xs, p m = true) (hrest : ∀ m ∈ rest.head?, p m = false) :
    (xs ++ rest).takeWhile p = xs ∧ (xs ++ rest).dropWhile p = rest := by
  rw [List.takeWhile_append_of_pos hxs, List.dropWhile_append_of_pos hxs]
  cases rest with
  | nil => simp
  | cons m rest => simp [hrest m (by simp)]

/-- **A run that ends is the longest.** -/
theorem longestRun_append {p : Piece} {rest : List Mark} (hp : IsRun p) (hs : Stops p rest) :
    longestRun (p ++ rest) = p := by
  cases hp with
  | letters hne hw =>
    have hrest : ∀ m ∈ rest.head?, m.isLetter = false := fun m hm => by
      rw [← Bool.not_eq_true]
      intro hl
      exact hs m hm (.letters (by simp) (by simpa [or_imp, forall_and] using ⟨hw, hl⟩))
    obtain ⟨ht, hd⟩ := takeWhile_append_of_head hw hrest
    rw [longestRun, ht, hd]
    cases rest with
    | nil => simp [hne]
    | cons m rest =>
      have hpoint : m.char ≠ '.' := fun h =>
        hs m (by simp) (.mixed hne hw h (by simp))
      simp [hne, hpoint]
  | @mixed w point t hne hw hpoint ht =>
    have hnl : point.isLetter = false := by
      simp only [Mark.isLetter, hpoint]
      decide
    have hrest : ∀ m ∈ rest.head?, m.isNumeric = false := fun m hm => by
      rw [← Bool.not_eq_true]
      intro hn
      refine hs m hm ?_
      rw [List.append_assoc, List.cons_append]
      exact .mixed hne hw hpoint (by simpa [or_imp, forall_and] using ⟨ht, hn⟩)
    have hnext : ∀ m ∈ (point :: (t ++ rest)).head?, m.isLetter = false := by simpa using hnl
    obtain ⟨htake, hdrop⟩ := takeWhile_append_of_head hw hnext
    rw [List.append_assoc, List.cons_append, longestRun, htake, hdrop]
    simp [hne, hpoint, (takeWhile_append_of_head ht hrest).1]
  | numeric hne ht =>
    have hrest : ∀ m ∈ rest.head?, m.isNumeric = false := fun m hm => by
      rw [← Bool.not_eq_true]
      intro hn
      exact hs m hm (.numeric (by simp) (by simpa [or_imp, forall_and] using ⟨ht, hn⟩))
    obtain ⟨htake, _⟩ := takeWhile_append_of_head ht hrest
    cases p with
    | nil => exact absurd rfl hne
    | cons m p =>
      have hnl := Mark.not_isLetter_of_isNumeric (ht m (by simp))
      rw [longestRun]
      simpa [hnl] using htake

theorem length_le_longestRun : ∀ (rest : List Mark) {p : Piece}, IsRun p →
    p.length ≤ (longestRun (p ++ rest)).length
  | [], p, hp => by
    have hlongest := longestRun_append hp (show Stops p [] by simp [Stops])
    exact Nat.le_of_eq (congrArg List.length hlongest.symm)
  | m :: rest, p, hp => by
    by_cases hm : IsRun (p ++ [m])
    · have := length_le_longestRun rest hm
      simp only [List.length_append, List.append_assoc] at this
      simp at this
      omega
    · have hlongest := longestRun_append hp (show Stops p (m :: rest) by simpa [Stops] using hm)
      exact Nat.le_of_eq (congrArg List.length hlongest.symm)

@[simp] theorem cut_nil : cut [] = [] := by
  rw [cut]

/-- A run that ends is cut off as a piece. -/
theorem cut_append {p : Piece} {rest : List Mark} (hp : IsRun p) (hs : Stops p rest) :
    cut (p ++ rest) = p :: cut rest := by
  have hrun := longestRun_append hp hs
  cases p with
  | nil => exact absurd rfl hp.ne_nil
  | cons m p =>
    rw [List.cons_append, cut, ← List.cons_append, hrun]
    simp

/-- A character that is in no run is a piece by itself. -/
theorem cut_single {m : Mark} {rest : List Mark} (hl : m.isLetter = false)
    (hn : m.isNumeric = false) : cut (m :: rest) = [m] :: cut rest := by
  have hrun : longestRun (m :: rest) = [] := by simp [longestRun, hl, hn]
  rw [cut, hrun]

theorem exists_longestRun_append (ms : List Mark) : ∃ rest, ms = longestRun ms ++ rest := by
  have hletters := List.takeWhile_append_dropWhile (p := Mark.isLetter) (l := ms)
  have hnumeric := List.takeWhile_append_dropWhile (p := Mark.isNumeric) (l := ms)
  rw [longestRun]
  by_cases hempty : (ms.takeWhile Mark.isLetter).isEmpty = true
  · rw [if_pos hempty]
    exact ⟨_, hnumeric.symm⟩
  rw [if_neg hempty]
  cases hrest : ms.dropWhile Mark.isLetter with
  | nil => exact ⟨[], by simpa [hrest] using hletters.symm⟩
  | cons point rest =>
    rw [hrest] at hletters
    by_cases hpoint : point.char = '.'
    · refine ⟨rest.dropWhile Mark.isNumeric, ?_⟩
      dsimp only
      rw [if_pos hpoint, List.append_assoc, List.cons_append, List.takeWhile_append_dropWhile,
        hletters]
    · refine ⟨point :: rest, ?_⟩
      dsimp only
      rw [if_neg hpoint, hletters]

/-- Nothing is lost in cutting. -/
theorem flatten_cut (ms : List Mark) : (cut ms).flatten = ms := by
  induction ms using cut.induct with
  | case1 => simp
  | case2 m ms h ih => rw [cut, h, List.flatten_cons, ih, List.singleton_append]
  | case3 m ms n run h ih =>
    obtain ⟨rest, hrest⟩ := exists_longestRun_append (m :: ms)
    rw [h, List.cons_append] at hrest
    obtain ⟨rfl, rfl⟩ := List.cons.inj hrest
    rw [cut, h, List.flatten_cons, ih]
    simp

end Reckon
