/-
The reader never looks behind the first end. Whatever tokens stand there, and
whatever depth of calls beyond an ample one it is started with, it reads the
same and stops at the same place (`Grammar.whole_append`).

The statement is one for each of the five functions, by induction on the depth
of calls (`Grammar.Local`): reading from a place in the longer list is reading
from the same place in the shorter one, and then the place behind it is the
same one as well.
-/
import Reckon.Proofs.Grammar.Refusal

namespace Reckon

/-- What goes on alike after a step that gives the same thing. -/
theorem bind_eq_map {ε α β β' : Type} {x : Except ε α} {f : α → Except ε β} {f' : α → Except ε β'}
    {ψ : β → β'} (h : ∀ a, x = .ok a → f' a = (f a).map ψ) :
    (x >>= f') = (x >>= f).map ψ := by
  cases x with
  | ok a => exact h a rfl
  | error => rfl

/-- What goes on alike after a step that gives corresponding things. -/
theorem map_bind_eq_map {ε α α' β β' : Type} {x : Except ε α} {f : α → Except ε β}
    {f' : α' → Except ε β'} {φ : α → α'} {ψ : β → β'}
    (h : ∀ a, x = .ok a → f' (φ a) = (f a).map ψ) :
    (x.map φ >>= f') = (x >>= f).map ψ := by
  cases x with
  | ok a => exact h a rfl
  | error => rfl

namespace Cursor

variable {c : Cursor} {more : List Token}

/-- There is an end from the cursor on. -/
def Ended (c : Cursor) : Prop := ∃ t ∈ c.rest, t.kind = .finish

/-- The same place in a list that goes on with more tokens. -/
def extend (more : List Token) (c : Cursor) : Cursor := { c with rest := c.rest ++ more }

theorem Ended.rest_eq (h : c.Ended) : c.rest = c.peek :: c.rest.tail := by
  obtain ⟨index, rest⟩ := c
  cases rest with
  | nil => simp [Ended] at h
  | cons t ts => rfl

theorem Ended.length_pos (h : c.Ended) : 0 < c.rest.length := by
  rw [h.rest_eq]
  exact Nat.succ_pos _

theorem Ended.peek_extend (h : c.Ended) : (c.extend more).peek = c.peek := by
  rw [extend, h.rest_eq]
  rfl

theorem Ended.advance_extend (h : c.Ended) :
    (c.extend more).advance = c.advance.extend more := by
  rw [advance, atEnd, h.peek_extend, advance, atEnd]
  split
  · rfl
  · rw [extend, h.rest_eq]
    rfl

/-- A step does not pass the end. -/
theorem Ended.advance (h : c.Ended) : c.advance.Ended := by
  by_cases hk : c.peek.kind = .finish
  · rwa [advance_of_atEnd (by simpa [atEnd] using hk)]
  · obtain ⟨t, ht, hfinish⟩ := h
    rw [(rest_eq_cons hk).1] at ht
    rcases List.mem_cons.1 ht with rfl | ht
    · exact absurd hfinish hk
    · exact ⟨t, ht, hfinish⟩

end Cursor

namespace Grammar

variable {g : Grammar} {more : List Token}

/-- What a derivation takes leaves the end. -/
theorem Derived.ended {c after : Cursor} {s es} (h : g.Derived s c es after) (hc : c.Ended) :
    after.Ended := by
  obtain ⟨d, hd, _, _, hrest, _⟩ := h
  obtain ⟨t, ht, hk⟩ := hc
  rw [hrest, List.mem_append] at ht
  rcases ht with ht | ht
  · exact absurd hk (hd.kind_ne_finish t ht)
  · exact ⟨t, ht, hk⟩

theorem problemAt_extend {c : Cursor} (hc : c.Ended) (problem : GrammarProblem) :
    g.problemAt (c.extend more) problem = g.problemAt c problem := by
  rw [problemAt, hc.peek_extend]
  rfl

theorem expect_extend {c : Cursor} (hc : c.Ended) (k : TokenKind) (problem : GrammarProblem) :
    g.expect (c.extend more) k problem = (g.expect c k problem).map (·.extend more) := by
  unfold expect
  rw [hc.peek_extend, hc.advance_extend, problemAt_extend hc]
  split <;> rfl

theorem infixAt_extend {c : Cursor} (hc : c.Ended) : g.infixAt (c.extend more) = g.infixAt c := by
  unfold infixAt
  rw [hc.peek_extend]

/-- What is read is the same, up to the same place. -/
def extended {α : Type} (more : List Token) (x : Except Failure (α × Cursor)) :
    Except Failure (α × Cursor) :=
  x.map fun p => (p.1, p.2.extend more)

/-! ## The loops -/

theorem infixTail_extend {operand operand' : Int → Cursor → Reading} {bound : Nat}
    (hok : ∀ {p c e after}, operand p c = .ok (e, after) → g.LevelRead p c e after)
    (hsame : ∀ {p c}, c.Ended → c.rest.length < bound →
      operand' p (c.extend more) = extended more (operand p c)) {floor : Int} :
    ∀ {count count' left c}, c.Ended → c.rest.length ≤ bound → c.rest.length ≤ count →
      c.rest.length ≤ count' → infixTail g operand' floor count' left (c.extend more) =
        extended more (infixTail g operand floor count left c)
  | 0, _, _, c, hc, _, hcount, _ | _, 0, _, c, hc, _, _, hcount => by
    have := hc.length_pos
    omega
  | count + 1, count' + 1, left, c, hc, hbound, hcount, hcount' => by
    simp only [infixTail]
    rw [infixAt_extend hc, hc.peek_extend]
    split
    · rfl
    next o ho =>
    split
    · rfl
    have hshort := length_advance (c := c) (by simp [(infixAt_eq_some.1 ho).1])
    rw [hc.advance_extend, hsame hc.advance (by omega)]
    refine map_bind_eq_map ?_
    rintro ⟨right, after⟩ hright
    have hread := (hok hright).1
    have := hread.length_le
    dsimp only
    refine bind_eq_map fun _ _ => ?_
    exact infixTail_extend hok hsame (hread.ended hc.advance) (by omega) (by omega) (by omega)

section Arguments

variable {argument argument' : Cursor → Reading} {bound : Nat}
  (hok : ∀ {c e after}, argument c = .ok (e, after) → g.Derived (.level 1) c [e] after)
  (hsame : ∀ {c}, c.Ended → c.rest.length ≤ bound →
    argument' (c.extend more) = extended more (argument c))

include hok hsame

theorem argumentTail_extend : ∀ {count count' c}, c.Ended → c.rest.length ≤ bound →
    c.rest.length ≤ count → c.rest.length ≤ count' →
    argumentTail argument' count' (c.extend more) = extended more (argumentTail argument count c)
  | 0, _, c, hc, _, hcount, _ | _, 0, c, hc, _, _, hcount => by
    have := hc.length_pos
    omega
  | count + 1, count' + 1, c, hc, hbound, hcount, hcount' => by
    simp only [argumentTail]
    rw [hc.peek_extend]
    split
    · next hcomma =>
      have hshort := length_advance (c := c) (by simp_all)
      rw [hc.advance_extend, hsame hc.advance (by omega)]
      refine map_bind_eq_map ?_
      rintro ⟨first, after⟩ hfirst
      have hread := hok hfirst
      have := hread.length_le
      have hothers : argumentTail argument' count' (after.extend more) =
          extended more (argumentTail argument count after) :=
        argumentTail_extend (hread.ended hc.advance) (by omega) (by omega) (by omega)
      dsimp only
      rw [hothers]
      exact map_bind_eq_map fun _ _ => rfl
    · rfl

theorem arguments_extend {c : Cursor} (hc : c.Ended) (hbound : c.rest.length ≤ bound) :
    arguments argument' (c.extend more) = extended more (arguments argument c) := by
  unfold arguments
  rw [hc.peek_extend]
  split
  · rfl
  rw [hsame hc hbound]
  refine map_bind_eq_map ?_
  rintro ⟨first, after⟩ hfirst
  have hread := hok hfirst
  have := hread.length_le
  dsimp only
  rw [argumentTail_extend hok hsame (hread.ended hc) (by omega) (Nat.le_refl _)
    (by simp [Cursor.extend])]
  exact map_bind_eq_map fun _ _ => rfl

end Arguments

/-! ## The five functions -/

/-- Each function of the reader reads the same from the same place in a longer list, where both
depths are ample for the tokens of the shorter one. -/
structure Local (g : Grammar) (more : List Token) (depth depth' : Nat) : Prop where
  expression : ∀ {nesting c}, c.Ended → 5 * c.rest.length + 5 ≤ depth →
    5 * c.rest.length + 5 ≤ depth' →
    expression g depth' nesting (c.extend more) = extended more (expression g depth nesting c)
  binary : ∀ {nesting floor c}, c.Ended → 5 * c.rest.length + 4 ≤ depth →
    5 * c.rest.length + 4 ≤ depth' →
    binary g depth' nesting floor (c.extend more) =
      extended more (binary g depth nesting floor c)
  unary : ∀ {nesting c}, c.Ended → 5 * c.rest.length + 3 ≤ depth →
    5 * c.rest.length + 3 ≤ depth' →
    unary g depth' nesting (c.extend more) = extended more (unary g depth nesting c)
  primary : ∀ {nesting c}, c.Ended → 5 * c.rest.length + 2 ≤ depth →
    5 * c.rest.length + 2 ≤ depth' →
    primary g depth' nesting (c.extend more) = extended more (primary g depth nesting c)
  call : ∀ {nesting c}, c.Ended → 5 * c.rest.length + 1 ≤ depth →
    5 * c.rest.length + 1 ≤ depth' → c.peek.kind = .function →
    call g depth' nesting (c.extend more) = extended more (call g depth nesting c)

variable {depth depth' nesting : Nat} {c : Cursor}

theorem Local.succ_binary (ih : g.Local more depth depth') {floor : Int} (hc : c.Ended)
    (hdepth : 5 * c.rest.length + 4 ≤ depth + 1) (hdepth' : 5 * c.rest.length + 4 ≤ depth' + 1) :
    Grammar.binary g (depth' + 1) nesting floor (c.extend more) =
      extended more (Grammar.binary g (depth + 1) nesting floor c) := by
  simp only [Grammar.binary]
  rw [ih.unary hc (by omega) (by omega)]
  refine map_bind_eq_map ?_
  rintro ⟨left, after⟩ hleft
  have hread := (sound g depth).unary hleft
  have hlt := hread.length_lt trivial
  have hoperand {p : Int} {c : Cursor} (hc : c.Ended)
      (hlength : c.rest.length < after.rest.length) :
      Grammar.binary g depth' nesting p (c.extend more) =
        extended more (Grammar.binary g depth nesting p c) :=
    ih.binary hc (by omega) (by omega)
  dsimp only
  exact infixTail_extend (sound g depth).binary hoperand (hread.ended hc) (Nat.le_refl _)
    (Nat.le_refl _) (by simp [Cursor.extend])

theorem Local.succ_unary (ih : g.Local more depth depth') (hc : c.Ended)
    (hdepth : 5 * c.rest.length + 3 ≤ depth + 1) (hdepth' : 5 * c.rest.length + 3 ≤ depth' + 1) :
    Grammar.unary g (depth' + 1) nesting (c.extend more) =
      extended more (Grammar.unary g (depth + 1) nesting c) := by
  simp only [Grammar.unary]
  rw [hc.peek_extend]
  split
  · next hminus =>
    have hshort := length_advance (c := c) (by simp_all)
    refine bind_eq_map fun _ _ => ?_
    rw [hc.advance_extend, ih.unary hc.advance (by omega) (by omega)]
    exact map_bind_eq_map fun _ _ => rfl
  · exact ih.primary hc (by omega) (by omega)

theorem Local.succ_primary (ih : g.Local more depth depth') (hc : c.Ended)
    (hdepth : 5 * c.rest.length + 2 ≤ depth + 1) (hdepth' : 5 * c.rest.length + 2 ≤ depth' + 1) :
    Grammar.primary g (depth' + 1) nesting (c.extend more) =
      extended more (Grammar.primary g (depth + 1) nesting c) := by
  simp only [Grammar.primary]
  rw [hc.peek_extend, hc.advance_extend]
  simp only [problemAt_extend hc]
  split
  case h_1 => exact bind_eq_map fun _ _ => rfl
  case h_2 => rfl
  case h_3 hk => exact ih.call hc (by omega) (by omega) hk
  case h_4 hk =>
    have hshort := length_advance (c := c) (by simp [hk])
    refine bind_eq_map fun _ _ => ?_
    rw [ih.expression hc.advance (by omega) (by omega)]
    refine map_bind_eq_map ?_
    rintro ⟨inner, after⟩ hinner
    have hread := ((sound g depth).expression hinner).1
    dsimp only
    rw [expect_extend (hread.ended hc.advance)]
    exact map_bind_eq_map fun _ _ => rfl
  all_goals rfl

theorem Local.succ_call (ih : g.Local more depth depth') (hc : c.Ended)
    (hdepth : 5 * c.rest.length + 1 ≤ depth + 1) (hdepth' : 5 * c.rest.length + 1 ≤ depth' + 1)
    (hk : c.peek.kind = .function) :
    Grammar.call g (depth' + 1) nesting (c.extend more) =
      extended more (Grammar.call g (depth + 1) nesting c) := by
  have hnext := hc.advance
  have hshort := length_advance (c := c) (by simp [hk])
  simp only [Grammar.call]
  rw [hc.peek_extend, hc.advance_extend, expect_extend hnext]
  simp only [problemAt_extend hc]
  split
  · rfl
  refine map_bind_eq_map fun opened hopened => ?_
  obtain ⟨hopen, rfl⟩ := expect_eq_ok hopened
  have hshort' := length_advance (c := c.advance) (by simp [hopen])
  refine bind_eq_map fun _ _ => ?_
  rw [arguments_extend (fun h => ((sound g depth).expression h).1)
    (fun hc hlength => ih.expression hc (by omega) (by omega)) hnext.advance (Nat.le_refl _)]
  refine map_bind_eq_map ?_
  rintro ⟨operands, after⟩ hargs
  have hread := arguments_sound (fun {_ _ _} h => ((sound g depth).expression h).1) hargs
  dsimp only
  rw [expect_extend (hread.ended hnext.advance)]
  refine map_bind_eq_map fun _ _ => bind_eq_map fun _ _ => ?_
  split <;> rfl

theorem isLocal (g : Grammar) (more : List Token) : ∀ depth depth', g.Local more depth depth'
  | 0, _ | _, 0 => by constructor <;> intros <;> omega
  | depth + 1, depth' + 1 => by
    have ih := isLocal g more depth depth'
    refine ⟨?_, ih.succ_binary, ih.succ_unary, ih.succ_primary, ih.succ_call⟩
    intro nesting c hc hdepth hdepth'
    simp only [Grammar.expression]
    exact ih.binary hc (by omega) (by omega)

/-! ## Whole expressions -/

theorem wholeWithin_append {tokens : List Token} (hend : ∃ t ∈ tokens, t.kind = .finish)
    (hdepth : 5 * tokens.length + 5 ≤ depth) (hdepth' : 5 * tokens.length + 5 ≤ depth') :
    g.wholeWithin depth' (tokens ++ more) = g.wholeWithin depth tokens := by
  have hc : Cursor.Ended ⟨0, tokens⟩ := hend
  have hstart : (⟨0, tokens ++ more⟩ : Cursor) = Cursor.extend more ⟨0, tokens⟩ := rfl
  simp only [wholeWithin]
  rw [hstart, Cursor.atEnd, hc.peek_extend, problemAt_extend hc, Cursor.atEnd]
  split
  · rfl
  rw [(isLocal g more depth depth').expression hc hdepth hdepth']
  cases hread : expression g depth 0 ⟨0, tokens⟩ with
  | error => rfl
  | ok p =>
    obtain ⟨e, after⟩ := p
    have hafter : after.Ended := ((sound g depth).expression hread).1.ended hc
    simp only [extended, Except.map, bind, Except.bind, Cursor.atEnd, hafter.peek_extend,
      problemAt_extend hafter]

theorem closed_eq_append (tokens : List Token) : ∃ ts, closed tokens = tokens ++ ts := by
  unfold closed
  split
  · next h => exact ⟨[Token.finish 0], by simp [List.getLast?_eq_none_iff.1 h]⟩
  · split
    · exact ⟨[], by simp⟩
    · exact ⟨_, rfl⟩

/-- **What stands behind an end is not read.** -/
theorem whole_append {tokens : List Token} (hend : ∃ t ∈ tokens, t.kind = .finish)
    (more : List Token) : g.whole (tokens ++ more) = g.whole tokens := by
  have hwhole (ts : List Token) : g.whole (tokens ++ ts) =
      g.wholeWithin (5 * tokens.length + 5) tokens := by
    obtain ⟨us, hus⟩ := closed_eq_append (tokens ++ ts)
    simp only [whole]
    rw [hus, List.append_assoc]
    refine wholeWithin_append hend (Nat.le_refl _) ?_
    simp only [ampleDepth, List.length_append]
    omega
  have hnil := hwhole []
  rw [List.append_nil] at hnil
  rw [hwhole more, hnil]

theorem parse_append {tokens : List Token} (hend : ∃ t ∈ tokens, t.kind = .finish)
    (more : List Token) : g.parse (tokens ++ more) = g.parse tokens := by
  rw [parse_eq_whole, whole_append hend, parse_eq_whole]

end Grammar

end Reckon
