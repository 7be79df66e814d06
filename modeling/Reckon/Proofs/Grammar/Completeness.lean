/-
Whatever the grammar derives, the reader reads: on the tokens of a derivation
whose functions all take their arguments it runs through and gives the
expression that the derivation stands for, or it stops at a check
(`Grammar.whole_eq`). Which check that is, the derivation tells by itself
(`Derivation.within`), so the reader is known on these tokens up to its
failures.

A derivation needs no more depth of calls than five for each of its tokens.
-/
import Reckon.Proofs.Grammar.Soundness

namespace Reckon

open Grammar (check checkInfix infixTail argumentTail)

/-- What reading a derivation checks, in this order: nesting from outside in, and behind its
operands that an infix operator takes two, or the number of the arguments of a call. -/
def Derivation.within (l : Limits) (nesting : Nat) : Derivation → Except Failure Unit
  | operand d | plain d => d.within l nesting
  | binary left _ o right => do
    left.within l nesting
    right.within l nesting
    checkInfix o
  | negation _ d | group _ d _ => do
    check (l.checkNesting (nesting + 1))
    d.within l (nesting + 1)
  | call _ _ _ args _ => do
    check (l.checkNesting (nesting + 1))
    args.within l (nesting + 1)
    check (l.checkArguments args.exprs.length)
  | number _ _ | name _ | noArguments | noFurther => pure ()
  | arguments d rest | further _ d rest => do
    d.within l nesting
    rest.within l nesting

namespace Grammar

variable {g : Grammar}

/-- A reading that makes checks, and gives a value if they hold. -/
abbrev Checked {α : Type} (checks : Except Failure Unit) (value : α) : Except Failure α := do
  checks
  return value

@[simp] theorem peek_cons (index : Nat) (t : Token) (ts : List Token) :
    Cursor.peek ⟨index, t :: ts⟩ = t := rfl

theorem advance_cons {index : Nat} {t : Token} {ts : List Token} (h : t.kind ≠ .finish) :
    Cursor.advance ⟨index, t :: ts⟩ = ⟨index + 1, ts⟩ := by
  simp [Cursor.advance, Cursor.atEnd, h]

theorem expect_cons {index : Nat} {t : Token} {ts : List Token} {problem}
    (h : t.kind ≠ .finish) : g.expect ⟨index, t :: ts⟩ t.kind problem =
      pure ⟨index + 1, ts⟩ := by
  simp [expect, advance_cons h, pure, Except.pure]

/-- No operator goes into a level that stops at the cursor. -/
theorem infixTail_of_stopsAt {operand : Int → Cursor → Reading} {floor index rest}
    (h : g.registry.StopsAt floor rest) (count : Nat) (left : Expr) :
    infixTail g operand floor count left ⟨index, rest⟩ = .ok (left, ⟨index, rest⟩) := by
  cases count with
  | zero => rfl
  | succ count =>
    simp only [infixTail]
    split
    · rfl
    · next o ho =>
      have ht := infixAt_eq_some.1 ho
      have hmem := (Cursor.rest_eq_cons (c := ⟨index, rest⟩) (by simp [ht.1])).1
      simp only at hmem
      rw [if_pos (h _ (by rw [hmem]; rfl) o ht)]

/-- An operator that binds tightly enough is read with its right operand. -/
theorem infixTail_cons {operand : Int → Cursor → Reading} {floor index t ts o}
    (ht : g.registry.InfixToken t o) (hfloor : floor ≤ o.precedence) (count : Nat) (left : Expr) :
    infixTail g operand floor (count + 1) left ⟨index, t :: ts⟩ = (do
      let (right, after) ← operand (o.precedence + 1) ⟨index + 1, ts⟩
      checkInfix o
      infixTail g operand floor count (.apply o [left, right] t.position) after) := by
  have hinfix : g.infixAt ⟨index, t :: ts⟩ = some o := infixAt_eq_some.2 ht
  have hnext : Cursor.advance ⟨index, t :: ts⟩ = ⟨index + 1, ts⟩ := advance_cons (by simp [ht.1])
  simp only [infixTail, hinfix, if_neg (Int.not_lt.2 hfloor), hnext, peek_cons]

/-- What the reader does with the tokens of a derivation when others follow that end it. -/
def Reads (g : Grammar) : Symbol → Derivation → Prop
  | .level p, d => ∀ depth nesting floor index rest e, d.exprs = [e] → floor ≤ p →
      g.registry.StopsAt (p + 1) rest → 5 * d.tokens.length ≤ depth + 3 →
      ∃ count, rest.length ≤ count ∧
        binary g (depth + 1) nesting floor ⟨index, d.tokens ++ rest⟩ =
          (do d.within g.limits nesting
              infixTail g (fun p c => binary g depth nesting p c) floor count e
                ⟨index + d.tokens.length, rest⟩)
  | .unary, d => ∀ depth nesting index rest e, d.exprs = [e] → 5 * d.tokens.length ≤ depth + 3 →
      unary g depth nesting ⟨index, d.tokens ++ rest⟩ =
        Checked (d.within g.limits nesting) (e, ⟨index + d.tokens.length, rest⟩)
  | .primary, d => ∀ depth nesting index rest e, d.exprs = [e] →
      5 * d.tokens.length ≤ depth + 4 →
      primary g depth nesting ⟨index, d.tokens ++ rest⟩ =
        Checked (d.within g.limits nesting) (e, ⟨index + d.tokens.length, rest⟩)
  | .arguments, d => ∀ depth nesting index rest, g.registry.Ends .arguments rest →
      5 * d.tokens.length ≤ depth + 1 →
      arguments (fun c => expression g depth nesting c) ⟨index, d.tokens ++ rest⟩ =
        Checked (d.within g.limits nesting) (d.exprs, ⟨index + d.tokens.length, rest⟩)
  | .furtherArguments, d => ∀ depth nesting index rest count,
      g.registry.Ends .furtherArguments rest → 5 * d.tokens.length ≤ depth + 1 →
      d.tokens.length ≤ count →
      argumentTail (fun c => expression g depth nesting c) count ⟨index, d.tokens ++ rest⟩ =
        Checked (d.within g.limits nesting) (d.exprs, ⟨index + d.tokens.length, rest⟩)

/-- A level is read up to where it stops. -/
theorem Reads.binary {p d} (h : g.Reads (.level p) d) (hd : Derives g.registry (.level p) d)
    {depth rest e} (nesting index : Nat) (he : d.exprs = [e]) (hs : g.registry.StopsAt p rest)
    (hdepth : 5 * d.tokens.length ≤ depth + 2) :
    Grammar.binary g depth nesting p ⟨index, d.tokens ++ rest⟩ =
      Checked (d.within g.limits nesting) (e, ⟨index + d.tokens.length, rest⟩) := by
  have hpos := hd.length_pos trivial
  obtain ⟨depth, rfl⟩ := Nat.exists_eq_add_of_lt (show 0 < depth by omega)
  rw [Nat.zero_add]
  obtain ⟨count, _, hread⟩ := h depth nesting p index rest e he (Int.le_refl p)
    (hs.mono (by omega)) (by omega)
  rw [hread]
  simp only [infixTail_of_stopsAt hs]
  rfl

/-- A whole expression is read up to where it stops. -/
theorem Reads.expression {d} (h : g.Reads (.level 1) d) (hd : Derives g.registry (.level 1) d)
    {depth rest e} (nesting index : Nat) (he : d.exprs = [e]) (hs : g.registry.StopsAt 1 rest)
    (hdepth : 5 * d.tokens.length ≤ depth + 1) :
    Grammar.expression g depth nesting ⟨index, d.tokens ++ rest⟩ =
      Checked (d.within g.limits nesting) (e, ⟨index + d.tokens.length, rest⟩) := by
  have hpos := hd.length_pos trivial
  obtain ⟨depth, rfl⟩ := Nat.exists_eq_add_of_lt (show 0 < depth by omega)
  rw [Nat.zero_add]
  exact h.binary hd nesting index he hs (by omega)

/-! ## The productions -/

theorem reads_operand {p u} (h : g.Reads .unary u) : g.Reads (.level p) (.operand u) := by
  intro depth nesting floor index rest e he _ _ hdepth
  have hread := h depth nesting index rest e he hdepth
  refine ⟨rest.length, Nat.le_refl _, ?_⟩
  simp only [Derivation.tokens, Derivation.within] at hread ⊢
  simp [binary, hread]

/-- The tail that reads the operators after the left operand goes on after the right one. -/
theorem reads_binary {p left t o right} (hl : Derives g.registry (.level o.precedence) left)
    (ht : g.registry.InfixToken t o) (hp : p ≤ o.precedence)
    (hr : Derives g.registry (.level (o.precedence + 1)) right)
    (ihl : g.Reads (.level o.precedence) left) (ihr : g.Reads (.level (o.precedence + 1)) right) :
    g.Reads (.level p) (.binary left t o right) := by
  intro depth nesting floor index rest e he hfloor hs hdepth
  obtain ⟨el, hel⟩ := hl.single trivial
  obtain ⟨er, her⟩ := hr.single trivial
  have hlen := hl.length_pos trivial
  simp only [Derivation.tokens, List.length_append, List.length_cons] at hdepth
  obtain ⟨count, hcount, hleft⟩ := ihl depth nesting floor index
    (t :: (right.tokens ++ rest)) el hel (by omega) ht.stopsAt (by omega)
  have hright := ihr.binary hr nesting (index + (left.tokens.length + 1)) her
    (hs.mono (by omega)) (show _ ≤ depth + 2 by omega)
  simp only [List.length_cons, List.length_append] at hcount
  obtain ⟨count, rfl⟩ := Nat.exists_eq_add_of_lt (Nat.zero_lt_of_lt hcount)
  rw [Nat.zero_add] at hleft hcount
  refine ⟨count, by omega, ?_⟩
  simp only [Derivation.exprs, hel, her, List.cons_append, List.nil_append, List.cons.injEq,
    and_true] at he
  subst he
  simp only [Derivation.tokens, List.append_assoc, List.cons_append, List.length_append,
    List.length_cons, hleft, infixTail_cons ht (Int.le_trans hfloor hp), hright,
    Derivation.within, bind_assoc, pure_bind, Nat.add_assoc, Nat.add_comm 1]

theorem reads_negation {t u} (hk : t.kind = .operator) (hv : t.value = Operation.negation.name)
    (hu : Derives g.registry .unary u) (ih : g.Reads .unary u) :
    g.Reads .unary (.negation t u) := by
  intro depth nesting index rest e he hdepth
  simp only [Derivation.tokens, List.length_cons] at hdepth
  obtain ⟨depth, rfl⟩ := Nat.exists_eq_add_of_lt (show 0 < depth by omega)
  obtain ⟨eu, heu⟩ := hu.single trivial
  have hread := ih depth (nesting + 1) (index + 1) rest eu heu (by omega)
  have hnext : Cursor.advance ⟨index, t :: (u.tokens ++ rest)⟩ = _ := advance_cons (by simp [hk])
  simp only [Derivation.exprs, heu, List.cons.injEq, and_true] at he
  subst he
  simp [Derivation.tokens, unary, hk, hv, hnext, hread, Derivation.within, Nat.add_assoc,
    Nat.add_comm 1]

theorem reads_plain {p} (hp : Derives g.registry .primary p) (ih : g.Reads .primary p) :
    g.Reads .unary (.plain p) := by
  intro depth nesting index rest e he hdepth
  have hlen := hp.length_pos trivial
  obtain ⟨t, ts, ht, _, hk⟩ := hp.begins trivial
  simp only [Derivation.tokens] at hdepth
  obtain ⟨depth, rfl⟩ := Nat.exists_eq_add_of_lt (show 0 < depth by omega)
  have hread := ih depth nesting index rest e he (by omega)
  simp only [ht] at hread
  simp only [Derivation.tokens, Derivation.within, ht, Nat.zero_add, ← hread]
  simp [unary, hk rfl]

theorem reads_number {t x} (hk : t.kind = .number) (hx : Decimal.read? t.value = some x) :
    g.Reads .primary (.number t x) := by
  intro depth nesting index rest e he hdepth
  simp only [Derivation.tokens, List.length_cons, List.length_nil] at hdepth
  obtain ⟨depth, rfl⟩ := Nat.exists_eq_add_of_lt (show 0 < depth by omega)
  have hnext : Cursor.advance ⟨index, t :: rest⟩ = _ := advance_cons (by simp [hk])
  simp only [Derivation.exprs, List.cons.injEq, and_true] at he
  subst he
  simp [Derivation.tokens, primary, hk, numberOf, hx, hnext, Derivation.within]
  rfl

theorem reads_name {t} (hk : t.kind = .identifier) : g.Reads .primary (.name t) := by
  intro depth nesting index rest e he hdepth
  simp only [Derivation.tokens, List.length_cons, List.length_nil] at hdepth
  obtain ⟨depth, rfl⟩ := Nat.exists_eq_add_of_lt (show 0 < depth by omega)
  have hnext : Cursor.advance ⟨index, t :: rest⟩ = _ := advance_cons (by simp [hk])
  simp only [Derivation.exprs, List.cons.injEq, and_true] at he
  subst he
  simp [Derivation.tokens, primary, hk, hnext, Derivation.within]
  rfl

theorem reads_group {a d b} (ha : a.kind = .leftParen) (hd : Derives g.registry (.level 1) d)
    (hb : b.kind = .rightParen) (ih : g.Reads (.level 1) d) : g.Reads .primary (.group a d b) := by
  intro depth nesting index rest e he hdepth
  simp only [Derivation.tokens, List.length_append, List.length_cons, List.length_nil] at hdepth
  obtain ⟨depth, rfl⟩ := Nat.exists_eq_add_of_lt (show 0 < depth by omega)
  have hstop : g.registry.StopsAt 1 (b :: rest) := Registry.stopsAt_of_kind (by simp [hb])
  have hread := ih.expression hd (nesting + 1) (index + 1) he hstop (show _ ≤ depth + 1 by omega)
  have hopen : Cursor.advance ⟨index, a :: (d.tokens ++ b :: rest)⟩ = _ :=
    advance_cons (by simp [ha])
  have hclose (i : Nat) : g.expect ⟨i, b :: rest⟩ .rightParen .missingClose = _ :=
    hb ▸ expect_cons (by simp [hb])
  simp [Derivation.tokens, primary, ha, hopen, hread, hclose, Derivation.within, Nat.add_assoc,
    Nat.add_comm 1]

theorem reads_call {t o a args b} (hf : g.registry.FunctionToken t o) (ha : a.kind = .leftParen)
    (hb : b.kind = .rightParen) (haccepts : o.accepts args.exprs.length = true)
    (ih : g.Reads .arguments args) : g.Reads .primary (.call t o a args b) := by
  intro depth nesting index rest e he hdepth
  simp only [Derivation.tokens, List.length_append, List.length_cons, List.length_nil] at hdepth
  obtain ⟨depth, rfl⟩ := Nat.exists_eq_add_of_lt (show 1 < depth by omega)
  have hread := ih depth (nesting + 1) (index + 1 + 1) (b :: rest) ⟨b, by simp, hb⟩ (by omega)
  have hfound : (g.registry.get? t.value).filter (·.isFunction) = some o := by
    simp [hf.2.1, hf.2.2]
  have hnext : Cursor.advance ⟨index, t :: a :: (args.tokens ++ b :: rest)⟩ = _ :=
    advance_cons (by simp [hf.1])
  have hopen : g.expect ⟨index + 1, a :: (args.tokens ++ b :: rest)⟩ .leftParen
      (.callWithoutOpen t.value) = _ := ha ▸ expect_cons (by simp [ha])
  have hclose (i : Nat) : g.expect ⟨i, b :: rest⟩ .rightParen .callWithoutClose = _ :=
    hb ▸ expect_cons (by simp [hb])
  simp only [Derivation.exprs, List.cons.injEq, and_true] at he
  subst he
  rw [Nat.add_comm 1 depth]
  simp [Derivation.tokens, primary, call, hf.1, hfound, hnext, hopen, hread, hclose, haccepts,
    Derivation.within, Nat.add_assoc, Nat.add_left_comm 2]

/-- What follows arguments shows that there are none further. -/
theorem peek_of_ends {index : Nat} {rest : List Token}
    (h : ∃ t ∈ rest.head?, t.kind = .rightParen) :
    (Cursor.peek ⟨index, rest⟩).kind = .rightParen := by
  obtain ⟨t, ht, hk⟩ := h
  rw [Option.mem_def] at ht
  simp [Cursor.peek, List.headD_eq_head?_getD, ht, hk]

theorem reads_noArguments : g.Reads .arguments .noArguments := by
  intro depth nesting index rest hr _
  simp [Derivation.tokens, Derivation.within, Derivation.exprs, arguments, peek_of_ends hr]
  rfl

theorem reads_arguments {d more} (hd : Derives g.registry (.level 1) d)
    (hm : Derives g.registry .furtherArguments more) (ihd : g.Reads (.level 1) d)
    (ihm : g.Reads .furtherArguments more) : g.Reads .arguments (.arguments d more) := by
  intro depth nesting index rest hr hdepth
  simp only [Derivation.tokens, List.length_append] at hdepth
  obtain ⟨e, he⟩ := hd.single trivial
  obtain ⟨t, ts, ht, ⟨hk, _⟩, _⟩ := hd.begins trivial
  have hpeek : Cursor.peek ⟨index, d.tokens ++ (more.tokens ++ rest)⟩ = t := by
    simp [ht, Cursor.peek]
  have hfirst := ihd.expression hd nesting index he (hm.further_stopsAt hr)
    (show _ ≤ depth + 1 by omega)
  have hmore := ihm depth nesting (index + d.tokens.length) rest
    (more.tokens.length + rest.length) hr (by omega) (by omega)
  simp [Derivation.tokens, Derivation.within, Derivation.exprs, arguments, hpeek, hk, he, hfirst,
    hmore, Nat.add_assoc]

theorem reads_noFurther : g.Reads .furtherArguments .noFurther := by
  intro depth nesting index rest count hr _ _
  cases count with
  | zero => rfl
  | succ count =>
    simp [Derivation.tokens, Derivation.within, Derivation.exprs, argumentTail, peek_of_ends hr]
    rfl

theorem reads_further {c d more} (hc : c.kind = .comma) (hd : Derives g.registry (.level 1) d)
    (hm : Derives g.registry .furtherArguments more) (ihd : g.Reads (.level 1) d)
    (ihm : g.Reads .furtherArguments more) : g.Reads .furtherArguments (.further c d more) := by
  intro depth nesting index rest count hr hdepth hcount
  simp only [Derivation.tokens, List.length_append, List.length_cons] at hdepth hcount
  obtain ⟨count, rfl⟩ := Nat.exists_eq_add_of_lt (Nat.zero_lt_of_lt hcount)
  obtain ⟨e, he⟩ := hd.single trivial
  have hnext : Cursor.advance ⟨index, c :: (d.tokens ++ (more.tokens ++ rest))⟩ = _ :=
    advance_cons (by simp [hc])
  have hfirst := ihd.expression hd nesting (index + 1) he (hm.further_stopsAt hr)
    (show _ ≤ depth + 1 by omega)
  have hmore := ihm depth nesting (index + (d.tokens.length + 1)) rest count hr (by omega)
    (by omega)
  simp [Derivation.tokens, Derivation.within, Derivation.exprs, argumentTail, hc, hnext, he,
    hfirst, hmore, Nat.add_assoc, Nat.add_comm 1]

theorem reads {s d} (h : Derives g.registry s d) (hacc : d.Accepted) : g.Reads s d := by
  induction h with
  | operand _ ih => exact reads_operand (ih hacc)
  | binary hl ht hp hr ihl ihr => exact reads_binary hl ht hp hr (ihl hacc.1) (ihr hacc.2)
  | negation hk hv hu ih => exact reads_negation hk hv hu (ih hacc)
  | plain hp ih => exact reads_plain hp (ih hacc)
  | number hk hx => exact reads_number hk hx
  | name hk => exact reads_name hk
  | group ha hd hb ih => exact reads_group ha hd hb (ih hacc)
  | call hf ha _ hb ih => exact reads_call hf ha hb hacc.2 (ih hacc.1)
  | noArguments => exact reads_noArguments
  | arguments hd hm ihd ihm => exact reads_arguments hd hm (ihd hacc.1) (ihm hacc.2)
  | noFurther => exact reads_noFurther
  | further hc hd hm ihd ihm => exact reads_further hc hd hm (ihd hacc.1) (ihm hacc.2)

/-! ## Whole expressions -/

/-- Behind the tokens before the first end there is an end, once the tokens are closed. -/
theorem closed_eq (tokens : List Token) :
    ∃ t rest, t.kind = .finish ∧ closed tokens = body tokens ++ t :: rest := by
  rw [← body_closed]
  have hmem : ∃ t ∈ closed tokens, t.kind = .finish := by
    unfold closed
    split
    · exact ⟨_, List.mem_singleton_self _, rfl⟩
    · next last hlast =>
      split
      · next hk => exact ⟨last, List.mem_of_getLast? hlast, by simpa using hk⟩
      · exact ⟨_, List.mem_append_right _ (List.mem_singleton_self _), rfl⟩
  generalize closed tokens = ts at hmem
  induction ts with
  | nil => simp at hmem
  | cons t ts ih =>
    by_cases hk : t.kind = .finish
    · exact ⟨t, ts, hk, by simp [body, hk]⟩
    · obtain ⟨t', rest, hk', hts⟩ := ih (by simpa [hk] using hmem)
      exact ⟨t', rest, hk', by simpa [body, hk] using hts⟩

/-- **Whatever the grammar derives, the reader reads**, or it stops at a check. -/
theorem whole_eq {tokens : List Token} {d : Derivation} {e : Expr}
    (h : Derives g.registry (.level 1) d) (hacc : d.Accepted) (ht : d.tokens = body tokens)
    (he : d.exprs = [e]) : g.whole tokens = Checked (d.within g.limits 0) e := by
  obtain ⟨t, rest, hk, hclosed⟩ := closed_eq tokens
  rw [← ht] at hclosed
  obtain ⟨t', ts, hbegin, ⟨_, _, hne⟩, _⟩ := h.begins trivial
  have hstart : Cursor.atEnd ⟨0, d.tokens ++ t :: rest⟩ = false := by
    simpa [hbegin, Cursor.atEnd, Cursor.peek] using hne
  have hend (i : Nat) : Cursor.atEnd ⟨i, t :: rest⟩ = true := by simp [Cursor.atEnd, hk]
  have hstop : g.registry.StopsAt 1 (t :: rest) := Registry.stopsAt_of_kind (by simp [hk])
  have hread := (reads h hacc).expression h 0 0 he hstop
    (show _ ≤ ampleDepth (d.tokens ++ t :: rest) + 1 by simp [ampleDepth]; omega)
  simp [whole, wholeWithin, hclosed, hstart, hend, hread]

end Grammar

end Reckon
