/-
Reading ends, and it ends at the first end of the tokens. The machine of moments
makes no infinite run (`Grammar.acc_of_comes`), its index never passes the first
end (`Grammar.index_le`), and the parser, whose depth of calls is never used up,
does the same on all tokens that are alike up to that end
(`Grammar.parse_ending`). This holds of any tokens, whether or not they come from
a text.
-/
import Reckon.Proofs.Grammar.CallDepth

namespace Reckon

namespace Grammar

variable {g : Grammar} {tokens : List Token} {m m' : Moment}

/-! ## Runs are finite -/

/-- No infinite run starts where the machine comes to an end, since only one moment follows
another. -/
theorem acc_of_comes {o : Except Failure Expr} (h : Comes g tokens m o) :
    Acc (fun next now => Turn g tokens now next) m := by
  obtain ⟨last, hrun, hends⟩ := h
  induction hrun using Relation.ReflTransGen.head_induction_on with
  | refl => exact ⟨_, fun _ hturn => absurd hturn hends.not_turn⟩
  | head hturn _ ih => exact ⟨_, fun _ hturn' => hturn.unique hturn' ▸ ih⟩

/-! ## The index -/

/-- A turn does not pass an end. -/
theorem Turn.index_le {t : Token} {last : Nat} (hturn : Turn g tokens m m')
    (hlast : tokens[last]? = some t) (hk : t.kind = .finish) (h : m.index ≤ last) :
    m'.index ≤ last := by
  obtain ⟨ht, hnext⟩ := hturn
  obtain heq | heq := (shift_of_next hnext).2
  · omega
  rw [heq, Cursor.advance]
  split
  · exact h
  next hend =>
  have hne : m.index ≠ last := by
    rintro rfl
    obtain rfl := Option.some.inj (hlast.symm.trans ht)
    simp [Cursor.atEnd, Cursor.peek, hk] at hend
  dsimp only
  omega

theorem index_le {t : Token} {last : Nat} (hrun : Run g tokens .begin m)
    (hlast : tokens[last]? = some t) (hk : t.kind = .finish) : m.index ≤ last := by
  induction hrun with
  | refl => exact Nat.zero_le _
  | tail _ hturn ih => exact hturn.index_le hlast hk ih

/-! ## Whole expressions -/

theorem closed_closed (tokens : List Token) : closed (closed tokens) = closed tokens := by
  have hlast : ∃ t, (closed tokens).getLast? = some t ∧ t.kind = .finish := by
    unfold closed
    split
    · exact ⟨_, rfl, rfl⟩
    · next last hlast =>
      split
      · next hk => exact ⟨last, hlast, by simpa using hk⟩
      · exact ⟨_, List.getLast?_concat, rfl⟩
  obtain ⟨t, ht, hk⟩ := hlast
  rw [closed, ht]
  simp [hk]

/-- The depth of calls that the parser is started with is not used up. -/
theorem parse_ne_tooDeep (g : Grammar) (tokens : List Token) :
    g.parse tokens ≠ .error tooDeep := by
  have hwhole : g.whole tokens ≠ .error tooDeep := by
    obtain ⟨_, _, hends⟩ := comes_whole g tokens
    exact hends.ne_tooDeep
  rw [parse_eq_whole]
  refine bind_ne_tooDeep hwhole fun e => bind_ne_tooDeep ?_ fun t =>
    bind_ne_tooDeep (check_ne_tooDeep _) fun _ => ok_ne_tooDeep _
  cases Tree.ofExpr e g.source <;>
    simp [mapError_ok, mapError_error, BuildError.fault, tooDeep]

theorem parse_closed (tokens : List Token) : g.parse (closed tokens) = g.parse tokens := by
  simp only [parse, parseWithin, closed_closed]

/-- **Reading ends at the first end.** Any tokens, once they are closed, have a first end. There is
no infinite run on them; the machine comes to what is read, of which the parser makes the tree, and
for which no depth of calls is used up; at no moment is the index behind that end; and whatever
tokens stand behind it, or none, the parser does the same. -/
theorem parse_ending (g : Grammar) (tokens : List Token) :
    ∃ last after, last.kind = .finish ∧ closed tokens = body tokens ++ last :: after ∧
      Acc (fun next now => Turn g (closed tokens) now next) .begin ∧
      Comes g (closed tokens) .begin (g.whole tokens) ∧
      g.parse tokens = g.whole tokens >>= g.finish ∧ g.parse tokens ≠ .error tooDeep ∧
      (∀ m, Run g (closed tokens) .begin m → m.index ≤ (body tokens).length) ∧
      ∀ more, g.parse (body tokens ++ last :: more) = g.parse tokens := by
  obtain ⟨last, after, hk, hclosed⟩ := closed_eq tokens
  have hcomes := comes_whole g tokens
  refine ⟨last, after, hk, hclosed, acc_of_comes hcomes, hcomes, parse_eq_whole g tokens,
    parse_ne_tooDeep g tokens, fun m hrun => ?_, fun more => ?_⟩
  · exact index_le hrun (by simp [hclosed]) hk
  · have hend : ∃ t ∈ body tokens ++ [last], t.kind = .finish := ⟨last, by simp, hk⟩
    calc
      g.parse (body tokens ++ last :: more) = g.parse (body tokens ++ [last]) := by
        rw [← parse_append hend more, List.append_assoc, List.singleton_append]
      _ = g.parse (closed tokens) := by
        rw [← parse_append hend after, hclosed, List.append_assoc, List.singleton_append]
      _ = g.parse tokens := parse_closed tokens

/-- An end in the middle, with tokens behind it that fit no grammar: reading stops in front of
them, and they may as well be missing. -/
theorem parse_ending_middle :
    let g : Grammar := ⟨.standard, .standard, none⟩
    let tokens : List Token := [⟨.identifier, "x", 0⟩, ⟨.finish, "", 1⟩, ⟨.comma, ",", 1⟩,
      ⟨.rightParen, ")", 2⟩]
    (∃ m, Run g (closed tokens) .begin m ∧ Ends g (closed tokens) m (.ok (.var "x" 0)) ∧
      m.index ≤ 1) ∧
      g.parse [⟨.identifier, "x", 0⟩, ⟨.finish, "", 1⟩] = g.parse tokens := by
  intro g tokens
  obtain ⟨last, after, _, hclosed, _, ⟨m, hrun, hends⟩, _, _, hindex, hparse⟩ :=
    parse_ending g tokens
  obtain rfl : (⟨.finish, "", 1⟩ : Token) = last :=
    Option.some.inj (congrArg (fun ts => ts[1]?) hclosed)
  have hwhole : g.whole tokens = .ok (.var "x" 0) := rfl
  exact ⟨⟨m, hrun, hwhole ▸ hends, hindex m hrun⟩, hparse []⟩

end Grammar

end Reckon
