/-
The limits are exact (`parseText_limits`). A text whose tokens are a sentence, and
whose functions take their arguments, is parsed just if it is not too long, not
nested too deeply, has no call of too many arguments and does not make too many
nodes; and otherwise one of those limits is told, with the size that exceeds it.

The reader is known on the tokens of a derivation up to its checks
(`Grammar.whole_eq`), and these have been measured on the derivation. What is left
is the length, before any token is there, and the count of nodes behind them all.
-/
import Reckon.Proofs.Grammar.Outcomes

namespace Reckon

namespace Grammar

variable {g : Grammar}

/-- What the grammar derives is parsed if the limits are kept, to a tree that has a node for each
of the derivation. -/
theorem parse_eq (hr : g.registry.Reached) {tokens : List Token} {d : Derivation} {e : Expr}
    (h : Derives g.registry (.level 1) d) (hacc : d.Accepted) (ht : d.tokens = body tokens)
    (he : d.exprs = [e]) : ∃ tree, tree.Shows e ∧ tree.size = d.nodes ∧ g.parse tokens = (do
      d.within g.limits 0
      check (g.limits.checkNodes d.nodes)
      return tree) := by
  obtain ⟨tree, htree⟩ := Tree.exists_ofExpr (h.accepted hr hacc he) g.source
  have hsize : tree.size = d.nodes := by
    rw [d.nodes_eq_size he, ← tree.length_cells, (Tree.ofExpr_eq_ok htree).1, Expr.length_cells]
  refine ⟨tree, Tree.shows_ofExpr htree, hsize, ?_⟩
  rw [parse_eq_whole, whole_eq h hacc ht he, ← hsize]
  cases d.within g.limits 0 with
  | error => rfl
  | ok => simp [finish, htree, mapError_ok, bind, Except.bind]

/-- What the grammar derives is parsed, or a limit is exceeded. -/
theorem parse_of_accepted (hr : g.registry.Reached) {tokens : List Token} {d : Derivation}
    {e : Expr} (h : Derives g.registry (.level 1) d) (hacc : d.Accepted)
    (ht : d.tokens = body tokens) (he : d.exprs = [e]) :
    (∃ tree, g.parse tokens = .ok tree ∧ tree.Shows e) ∨
      ∃ f, g.parse tokens = .error f ∧ f.IsLimit := by
  obtain ⟨tree, hshows, _, hparse⟩ := parse_eq hr h hacc ht he
  rw [hparse]
  cases hwithin : d.within g.limits 0 with
  | error f =>
    obtain ⟨_, rfl⟩ := Derivation.exists_of_within (h.infixAccepted hr) hwithin
    exact .inr ⟨_, rfl, Derivation.isLimit_of_within hwithin⟩
  | ok =>
    cases hcheck : check (g.limits.checkNodes d.nodes) with
    | error f => exact .inr ⟨f, rfl, isLimit_of_check hcheck⟩
    | ok => exact .inl ⟨tree, rfl, hshows⟩

end Grammar

/-- The limits that a text and its derivation keep. -/
structure Limits.Allows (l : Limits) (source : String) (d : Derivation) : Prop where
  length : source.length ≤ l.maxExpressionLength
  nesting : d.nesting ≤ l.maxNestingDepth
  arguments : ∀ count ∈ d.calls, count ≤ l.maxFunctionArgs
  nodes : d.nodes ≤ l.maxTreeNodes

/-- A limit, its bound, and a size of the text or its derivation that exceeds it. -/
inductive Limits.Exceeded (l : Limits) (source : String) (d : Derivation) :
    String → Int → Int → Prop
  | length : l.maxExpressionLength < source.length →
      Exceeded l source d "max_expression_length" l.maxExpressionLength source.length
  /-- The first level that is too deep is told, whatever is nested further in. -/
  | nesting : l.maxNestingDepth < d.nesting →
      Exceeded l source d "max_nesting_depth" l.maxNestingDepth (l.maxNestingDepth + 1)
  | arguments {count} : count ∈ d.calls → l.maxFunctionArgs < count →
      Exceeded l source d "max_function_args" l.maxFunctionArgs count
  | nodes : l.maxTreeNodes < d.nodes →
      Exceeded l source d "max_tree_nodes" l.maxTreeNodes d.nodes

namespace Limits

variable {l : Limits} {source : String} {d : Derivation}

theorem Exceeded.lt {limit : String} {bound actual : Int}
    (h : l.Exceeded source d limit bound actual) : bound < actual := by
  cases h with
  | length h | arguments _ h | nodes h => exact h
  | nesting => exact Int.lt_succ _

/-- What parsing a sentence checks, in this order, before it gives the tree. -/
def checked (l : Limits) (source : String) (d : Derivation) (tree : Tree) :
    Except Failure Tree := do
  Grammar.check (l.checkLength source.length)
  d.within l 0
  Grammar.check (l.checkNodes d.nodes)
  return tree

theorem checked_eq_ok (ha : d.InfixAccepted) {tree tree' : Tree} :
    l.checked source d tree = .ok tree' ↔ l.Allows source d ∧ tree = tree' := by
  rw [checked, step_eq_ok, step_eq_ok, step_eq_ok, pure_eq_ok, checkLength, checkNodes,
    Grammar.check_eq_ok, Grammar.check_eq_ok, Derivation.within_eq_ok ha Derivation.zero_le_nesting]
  constructor
  · rintro ⟨hlength, ⟨hnesting, hcalls⟩, hnodes, rfl⟩
    exact ⟨⟨hlength, by simpa using hnesting, hcalls, hnodes⟩, rfl⟩
  · rintro ⟨⟨hlength, hnesting, hcalls, hnodes⟩, rfl⟩
    exact ⟨hlength, ⟨by simpa using hnesting, hcalls⟩, hnodes, rfl⟩

theorem exceeded_of_checked (ha : d.InfixAccepted) {tree : Tree} {f : Failure}
    (h : l.checked source d tree = .error f) :
    ∃ limit bound actual, f = .exceeded limit bound actual ∧
      l.Exceeded source d limit bound actual := by
  simp only [checked, bind_eq_error] at h
  rcases h with h | ⟨_, _, h | ⟨_, _, h | ⟨_, _, h⟩⟩⟩
  · obtain ⟨hlt, rfl⟩ := Grammar.check_eq_error.1 h
    exact ⟨_, _, _, rfl, .length hlt⟩
  · obtain ⟨_, rfl⟩ := Derivation.exists_of_within ha h
    cases Derivation.exceeds_of_within Derivation.zero_le_nesting h with
    | nesting hlt => exact ⟨_, _, _, rfl, .nesting (by simpa using hlt)⟩
    | arguments hcount hlt => exact ⟨_, _, _, rfl, .arguments hcount hlt⟩
  · obtain ⟨hlt, rfl⟩ := Grammar.check_eq_error.1 h
    exact ⟨_, _, _, rfl, .nodes hlt⟩
  · cases h

end Limits

section Text

variable {r : Registry} {source : String} {lexing : Limits} {tokens : List Token} {d : Derivation}

/-- Parsing a sentence is checking the limits. -/
theorem parseText_eq_checked (hr : r.Reached) (htokens : tokenize source r lexing = .ok tokens)
    (hd : Derives r (.level 1) d) (hacc : d.Accepted) (ht : d.tokens = Grammar.body tokens)
    (limits : Limits) : ∃ tree, tree.size = d.nodes ∧
      parseText source r limits = limits.checked source d tree := by
  obtain ⟨e, he⟩ := hd.single trivial
  obtain ⟨tree, _, hsize, hparse⟩ :=
    Grammar.parse_eq (g := ⟨r, limits, some source⟩) hr hd hacc ht he
  refine ⟨tree, hsize, ?_⟩
  rw [parseText, tokenize_eq_check htokens, Limits.checked, Grammar.check]
  cases limits.checkLength source.length with
  | error => rfl
  | ok => exact hparse

/-- **Limits are exact.** A text whose tokens are a sentence, with functions that all take their
arguments, is parsed under all limits that allow its length, the nesting of its derivation, the
arguments of its calls and its nodes, and under no others. Otherwise the failure names one of those
limits, with a size that exceeds its bound: the first level of nesting that is too deep, or what the
text or its derivation has of it. -/
theorem parseText_limits (hr : r.Reached) (htokens : tokenize source r lexing = .ok tokens)
    (hd : Derives r (.level 1) d) (hacc : d.Accepted) (ht : d.tokens = Grammar.body tokens)
    (limits : Limits) :
    ((∃ tree, parseText source r limits = .ok tree) ↔ limits.Allows source d) ∧
    (∀ tree, parseText source r limits = .ok tree → tree.size = d.nodes) ∧
    ∀ f, parseText source r limits = .error f → ∃ limit bound actual,
      f = .diagnostic { cause := .limitExceeded limit bound actual } ∧ bound < actual ∧
        limits.Exceeded source d limit bound actual := by
  obtain ⟨tree, hsize, hparse⟩ := parseText_eq_checked hr htokens hd hacc ht limits
  have ha := hd.infixAccepted hr
  rw [hparse]
  refine ⟨⟨?_, fun h => ⟨tree, (Limits.checked_eq_ok ha).2 ⟨h, rfl⟩⟩⟩, fun tree' h => ?_,
    fun f h => ?_⟩
  · rintro ⟨_, h⟩
    exact ((Limits.checked_eq_ok ha).1 h).1
  · obtain ⟨_, rfl⟩ := (Limits.checked_eq_ok ha).1 h
    exact hsize
  · obtain ⟨limit, bound, actual, hf, hexceeded⟩ := Limits.exceeded_of_checked ha h
    exact ⟨limit, bound, actual, hf, hexceeded.lt, hexceeded⟩

end Text

/-- Three levels of nesting, a call of two arguments and six nodes in thirteen characters; with one
level less the third is told. -/
theorem parseText_limits_nested :
    (∃ tree, parseText "-(MAX(x,y)+z)" .standard
      { maxExpressionLength := 13, maxNestingDepth := 3, maxTreeNodes := 6, maxFunctionArgs := 2 } =
        .ok tree ∧ tree.size = 6) ∧
    parseText "-(MAX(x,y)+z)" .standard { maxNestingDepth := 2 } =
      .error (.diagnostic { cause := .limitExceeded "max_nesting_depth" 2 3 }) := by
  obtain ⟨tokens, htokens, hbody⟩ : ∃ tokens,
      tokenize "-(MAX(x,y)+z)" .standard .standard = .ok tokens ∧
      Grammar.body tokens = [⟨.operator, "-", 0⟩, ⟨.leftParen, "(", 1⟩, ⟨.function, "MAX", 2⟩,
        ⟨.leftParen, "(", 5⟩, ⟨.identifier, "x", 6⟩, ⟨.comma, ",", 7⟩, ⟨.identifier, "y", 8⟩,
        ⟨.rightParen, ")", 9⟩, ⟨.operator, "+", 10⟩, ⟨.identifier, "z", 11⟩,
        ⟨.rightParen, ")", 12⟩] := ⟨_, rfl, rfl⟩
  obtain ⟨max, hmax, hfunction, haccepts⟩ : ∃ o, Registry.standard.get? "MAX" = some o ∧
      o.isFunction = true ∧ o.accepts 2 = true := ⟨_, rfl, rfl, rfl⟩
  obtain ⟨plus, hplus, hinfix⟩ : ∃ o, Registry.standard.get? "+" = some o ∧
      o.isFunction = false := ⟨_, rfl, rfl⟩
  have hr := Registry.standard_reached
  have hname (p : Int) (name : String) (i : Int) : Derives .standard (.level p)
      (.operand (.plain (.name ⟨.identifier, name, i⟩))) := .operand (.plain (.name rfl))
  have hcall : Derives .standard (.level plus.precedence) (.operand (.plain (.call
      ⟨.function, "MAX", 2⟩ max ⟨.leftParen, "(", 5⟩ _ ⟨.rightParen, ")", 9⟩))) :=
    .operand (.plain (.call ⟨rfl, hmax, hfunction⟩ rfl
      (.arguments (hname 1 "x" 6) (.further (c := ⟨.comma, ",", 7⟩) rfl (hname 1 "y" 8) .noFurther))
      rfl))
  have hd : Derives .standard (.level 1) (.operand (.negation ⟨.operator, "-", 0⟩ (.plain (.group
      ⟨.leftParen, "(", 1⟩ _ ⟨.rightParen, ")", 12⟩)))) :=
    .operand (.negation rfl rfl (.plain (.group rfl (.binary (t := ⟨.operator, "+", 10⟩) hcall
      ⟨rfl, hplus, hinfix⟩ (hr.one_le_precedence hplus hinfix) (hname _ "z" 11)) rfl)))
  obtain ⟨d, hd, hacc, ht, hnesting, hcalls, hnodes⟩ : ∃ d, Derives .standard (.level 1) d ∧
      d.Accepted ∧ d.tokens = Grammar.body tokens ∧ d.nesting = 3 ∧ d.calls = [2] ∧ d.nodes = 6 :=
    ⟨_, hd, ⟨⟨⟨trivial, trivial, trivial⟩, haccepts⟩, trivial⟩, hbody.symm, rfl, rfl, rfl⟩
  have hlimits := parseText_limits hr htokens hd hacc ht
  constructor
  · obtain ⟨hok, hsize, _⟩ := hlimits
      { maxExpressionLength := 13, maxNestingDepth := 3, maxTreeNodes := 6, maxFunctionArgs := 2 }
    obtain ⟨tree, htree⟩ :=
      hok.2 ⟨by decide, by simp [hnesting], by simp [hcalls], by simp [hnodes]⟩
    exact ⟨tree, htree, hnodes ▸ hsize tree htree⟩
  · obtain ⟨hok, _, herror⟩ := hlimits { maxNestingDepth := 2 }
    cases hparse : parseText "-(MAX(x,y)+z)" .standard { maxNestingDepth := 2 } with
    | ok tree => simpa [hnesting] using (hok.1 ⟨tree, hparse⟩).nesting
    | error f =>
      obtain ⟨_, _, _, rfl, _, hexceeded⟩ := herror f hparse
      cases hexceeded with
      | nesting => rfl
      | length h => exact absurd h (by decide)
      | arguments hcount h =>
        obtain rfl := List.mem_singleton.1 (hcalls ▸ hcount)
        exact absurd h (by decide)
      | nodes h => simp [hnodes] at h

end Reckon
