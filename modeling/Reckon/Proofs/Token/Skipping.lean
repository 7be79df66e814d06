/-
A comma that is skipped is as if it were never there (`tokenize_erase`): without
it a source has the same tokens, those behind it one position earlier, or the
same thing is wrong with it.

Skipping leaves the scanner as it is, so the two scans go the same way from
there, and differ by the positions that they tell (`Scanner.Moved`). Positions
are moved by any function that agrees with the two counts of characters.
-/
import Reckon.Proofs.Token.RoundTrip

namespace Reckon

/-- The token at the position that a function gives. -/
def Token.move (g : Int → Int) (t : Token) : Token := { t with position := g t.position }

/-- What is wrong with the characters of one source is wrong with those of the other, at the
position that the function gives. -/
inductive Diagnostic.Moved (g : Int → Int) (source source' : String) :
    Diagnostic → Diagnostic → Prop
  | lexical (problem : LexicalProblem) (p p' : Int) : p' = g p →
      Moved g source source' ⟨.lexical problem, some p, some source⟩
        ⟨.lexical problem, some p', some source'⟩

namespace Scanner

variable {r : Registry} {source source' : String} {g : Int → Int}

/-- The state after characters, all of which have been passed. -/
def reach (r : Registry) (source : String) (s : State) (position : Nat) :
    List Char → Except Diagnostic State
  | [] => .ok s
  | c :: cs => do
    let (_, s) ← step r source s position c
    reach r source s (position + 1) cs

/-- The second state is as the first, but for where the run begins. -/
def Moved (g : Int → Int) (s s' : State) : Prop :=
  ∃ start : Nat, s' = { s with start := start } ∧ (start : Int) = g s.start

theorem Moved.gather {s s' : State} (h : Moved g s s') (c : Char) {position position' : Nat}
    (hposition : (position' : Int) = g position) :
    Moved g (s.gather c position) (s'.gather c position') := by
  obtain ⟨start, rfl, hstart⟩ := h
  refine ⟨if s.run.isEmpty then position' else start, rfl, ?_⟩
  by_cases hrun : s.run = [] <;> simp [State.gather, hrun, hposition, hstart]

/-- What both scans give for the same characters. -/
abbrev MovedStep (g : Int → Int) (source source' : String) :
    Except Diagnostic (List Token × State) → Except Diagnostic (List Token × State) → Prop :=
  Alike (Diagnostic.Moved g source source') fun p p' =>
    p'.1 = p.1.map (Token.move g) ∧ Moved g p.2 p'.2

theorem flush_moved {s s' : State} (h : Moved g s s') :
    MovedStep g source source' (flush r source s) (flush r source' s') := by
  obtain ⟨start, rfl, hstart⟩ := h
  unfold flush
  by_cases hrun : s.run.isEmpty = true
  · simp only [hrun, if_true]
    exact .ok ⟨rfl, start, rfl, hstart⟩
  · simp only [hrun, Bool.false_eq_true, if_false]
    unfold runToken
    by_cases hletters : s.run.all Text.isLetter = true
    · simp only [hletters, if_true]
      exact .ok ⟨by simp [Token.move, hstart], start, rfl, hstart⟩
    · by_cases hnumeral : isNumeral s.run = true
      · simp only [hletters, hnumeral, Bool.false_eq_true, if_false, if_true]
        exact .ok ⟨by simp [Token.move, hstart], start, rfl, hstart⟩
      · simp only [hletters, hnumeral, Bool.false_eq_true, if_false]
        exact .error (.lexical _ _ _ hstart)

/-- **One character.** Both scans do the same with it. -/
theorem step_moved {s s' : State} (h : Moved g s s') (c : Char) {position position' : Nat}
    (hposition : (position' : Int) = g position) :
    MovedStep g source source' (step r source s position c) (step r source' s' position' c) := by
  have heffect : effect r s' c = effect r s c := by
    obtain ⟨_, rfl, _⟩ := h
    rfl
  have hflush : MovedStep g source source' (flush r source s) (flush r source' s') := flush_moved h
  rw [step_eq, step_eq, heffect]
  cases effect r s c with
  | join => exact .ok ⟨rfl, h.gather c hposition⟩
  | begin => exact hflush.bind fun _ _ hp => .ok ⟨hp.1, hp.2.gather c hposition⟩
  | skip => exact .ok ⟨rfl, h⟩
  | token k =>
    refine hflush.bind fun p p' hp => .ok ⟨?_, ?_⟩
    · simp [hp.1, Token.move, single, hposition]
    · obtain ⟨start, hs, hstart⟩ := hp.2
      exact ⟨start, by rw [hs]; rfl, hstart⟩
  | space =>
    refine hflush.bind fun p p' hp => .ok ⟨hp.1, ?_⟩
    obtain ⟨start, hs, hstart⟩ := hp.2
    exact ⟨start, by rw [hs], hstart⟩
  | illegal => exact .error (.lexical _ _ _ hposition)

/-- What both scans give to the end. -/
abbrev MovedScan (g : Int → Int) (source source' : String) :
    Except Diagnostic (List Token) → Except Diagnostic (List Token) → Prop :=
  Alike (Diagnostic.Moved g source source') fun ts ts' => ts' = ts.map (Token.move g)

/-- A step that both take is followed by what both scans give. -/
theorem scan_cons_moved {s s' : State} (h : Moved g s s') (c : Char) {position position' : Nat}
    (hposition : (position' : Int) = g position) {cs cs' : List Char}
    (hrest : ∀ ts s₁ s₁', step r source s position c = .ok (ts, s₁) → Moved g s₁ s₁' →
      MovedScan g source source' (scan r source s₁ (position + 1) cs)
        (scan r source' s₁' (position' + 1) cs')) :
    MovedScan g source source' (scan r source s position (c :: cs))
      (scan r source' s' position' (c :: cs')) := by
  rw [scan, scan]
  have hstep : MovedStep g source source' (step r source s position c)
      (step r source' s' position' c) := step_moved h c hposition
  generalize hx : step r source s position c = x at hstep hrest
  generalize step r source' s' position' c = x' at hstep
  cases hstep with
  | error hd => exact .error hd
  | @ok p p' hp =>
    refine (hrest p.1 p.2 p'.2 rfl hp.2).bind fun us us' hus => .ok ?_
    rw [hp.1, hus, List.map_append]

/-- **The same characters from another position on.** -/
theorem scan_moved : ∀ {cs : List Char} {s s' : State} {position position' : Nat}, Moved g s s' →
    (∀ i ≤ cs.length, g ((position + i : Nat)) = (position' + i : Nat)) →
    MovedScan g source source' (scan r source s position cs) (scan r source' s' position' cs)
  | [], s, s', position, position', h, hg => by
    rw [scan, scan]
    refine (flush_moved h).bind fun p p' hp => .ok ?_
    have hfinish := hg 0 (Nat.le_refl 0)
    simp only [Nat.add_zero] at hfinish
    simp [hp.1, Token.move, Token.finish, hfinish]
  | c :: cs, s, s', position, position', h, hg => by
    have hhere := hg 0 (Nat.zero_le _)
    simp only [Nat.add_zero] at hhere
    refine scan_cons_moved h c hhere.symm fun ts s₁ s₁' _ h₁ => scan_moved h₁ fun i hi => ?_
    have hnext := hg (i + 1) (Nat.succ_le_succ hi)
    rwa [← Nat.add_assoc, ← Nat.add_assoc, Nat.add_right_comm, Nat.add_right_comm position']
      at hnext

theorem scan_skip {s : State} (h : s.groups.head? ≠ some true) (position : Nat) (cs : List Char) :
    scan r source s position (',' :: cs) = scan r source s (position + 1) cs := by
  rw [scan_cons, effect_eq_skip_iff.2 ⟨rfl, h⟩, Effect.outcome]
  change (scan r source s (position + 1) cs >>= fun rest => pure ([] ++ rest)) = _
  cases scan r source s (position + 1) cs <;> rfl

/-- **A comma that is skipped and no comma there.** -/
theorem scan_erase {cs : List Char} : ∀ {before : List Char} {s s' s₁ : State} {position : Nat},
    Moved g s s' → reach r source s position before = .ok s₁ → s₁.groups.head? ≠ some true →
    (∀ i < before.length, g ((position + i : Nat)) = (position + i : Nat)) →
    (∀ i ≤ cs.length, g ((position + before.length + 1 + i : Nat)) =
      (position + before.length + i : Nat)) →
    MovedScan g source source' (scan r source s position (before ++ ',' :: cs))
      (scan r source' s' position (before ++ cs))
  | [], s, s', s₁, position, h, hreach, hgroup, _, hg => by
    obtain rfl := Except.ok.inj hreach
    rw [List.nil_append, List.nil_append, scan_skip hgroup]
    exact scan_moved h hg
  | c :: before, s, s', s₁, position, h, hreach, hgroup, hbefore, hg => by
    rw [reach, bind_eq_ok] at hreach
    obtain ⟨⟨_, s₂⟩, hstep, hreach⟩ := hreach
    refine scan_cons_moved h c (hbefore 0 (Nat.zero_lt_succ _)).symm fun ts s₂' s₂'' hstep' h₂ => ?_
    obtain ⟨_, rfl⟩ := Prod.mk.inj (Except.ok.inj (hstep.symm.trans hstep'))
    refine scan_erase h₂ hreach hgroup (fun i hi => ?_) fun i hi => ?_
    · have hnext := hbefore (i + 1) (Nat.succ_lt_succ hi)
      rwa [← Nat.add_assoc, Nat.add_right_comm] at hnext
    · have hnext := hg i hi
      rw [List.length_cons, ← Nat.add_assoc] at hnext
      rwa [Nat.add_right_comm position 1 before.length]

end Scanner

/-- The scan of the source comes to the character of the index, and the character is a comma that is
skipped: the innermost open parenthesis, if there is one, opens no arguments. -/
def Skips (r : Registry) (source : String) (k : Nat) : Prop :=
  source.toList[k]? = some ',' ∧
    ∃ s, Scanner.reach r source {} 0 (source.toList.take k) = .ok s ∧ s.groups.head? ≠ some true

/-- A source without the character of an index. -/
def erase (source : String) (k : Nat) : String := String.ofList (source.toList.eraseIdx k)

/-- Where a position is when the character of an index is gone: one earlier behind it. -/
def closeGap (k : Nat) (p : Int) : Int := if k < p then p - 1 else p

/-- **A skipped comma is as if it were never there.** Without it a source that is not too long has
the same tokens, those behind it one position earlier, or the same lexical error, its position moved
in the same way. -/
theorem tokenize_erase {r : Registry} {source : String} {limits : Limits}
    (hlength : (source.length : Int) ≤ limits.maxExpressionLength) {k : Nat}
    (hskip : Skips r source k) :
    (∀ tokens, tokenize source r limits = .ok tokens → tokenize (erase source k) r limits =
      .ok (tokens.map fun t => { t with position := closeGap k t.position })) ∧
    (∀ d, tokenize source r limits = .error d → ∃ problem position,
      d = ⟨.lexical problem, some position, some source⟩ ∧
      tokenize (erase source k) r limits =
        .error ⟨.lexical problem, some (closeGap k position), some (erase source k)⟩) := by
  obtain ⟨hcomma, s, hreach, hgroup⟩ := hskip
  obtain ⟨hk, hchar⟩ := List.getElem?_eq_some_iff.1 hcomma
  obtain ⟨before, cs, hsource, rfl⟩ :
      ∃ before cs, source.toList = before ++ ',' :: cs ∧ before.length = k := by
    refine ⟨source.toList.take k, source.toList.drop (k + 1), ?_,
      List.length_take_of_le (Nat.le_of_lt hk)⟩
    rw [← hchar, ← List.drop_eq_getElem_cons hk, List.take_append_drop]
  have herased : (erase source before.length).toList = before ++ cs := by
    simp [erase, hsource, List.eraseIdx_append_of_length_le]
  rw [hsource, List.take_left] at hreach
  -- neither source is too long
  have hlong : limits.checkLength source.length = .ok () := by
    rw [Limits.checkLength, Limits.check, if_neg (by omega)]
  have hshort : limits.checkLength (erase source before.length).length = .ok () := by
    refine Limits.checkLength_of_le hlong ?_
    rw [← String.length_toList, ← String.length_toList, herased, hsource]
    simp
  have hscan : Scanner.MovedScan (closeGap before.length) source (erase source before.length)
      (tokenize source r limits) (tokenize (erase source before.length) r limits) := by
    rw [tokenize, tokenize, hlong, hshort, herased, hsource]
    refine Scanner.scan_erase ⟨0, rfl, rfl⟩ hreach hgroup (fun i hi => ?_) fun i hi => ?_
    · simp only [closeGap]
      omega
    · simp only [closeGap]
      omega
  generalize tokenize source r limits = x at hscan
  generalize tokenize (erase source before.length) r limits = x' at hscan
  cases hscan with
  | @ok tokens tokens' htokens =>
    refine ⟨fun _ h => ?_, fun _ h => by cases h⟩
    obtain rfl := Except.ok.inj h
    exact congrArg Except.ok htokens
  | error hd =>
    refine ⟨fun _ h => (by cases h), fun _ h => ?_⟩
    obtain rfl := Except.error.inj h
    obtain ⟨problem, p, p', rfl⟩ := hd
    exact ⟨problem, p, rfl, rfl⟩

/-- A comma in the name of a function, and one in what is no numeral. -/
theorem tokenize_erase_function :
    Skips .standard "1+M,AX(2,3)" 3 ∧
      tokenize "1+MAX(2,3)" .standard .standard = .ok [⟨.number, "1", 0⟩, ⟨.operator, "+", 1⟩,
        ⟨.function, "MAX", 2⟩, ⟨.leftParen, "(", 5⟩, ⟨.number, "2", 6⟩, ⟨.comma, ",", 7⟩,
        ⟨.number, "3", 8⟩, ⟨.rightParen, ")", 9⟩, ⟨.finish, "", 10⟩] ∧
      Skips .standard "a+1,0.0.1" 3 ∧
      tokenize "a+10.0.1" .standard .standard = .error {
        cause := .lexical (.malformedNumber "10.0.1")
        position := some 2
        source := some "a+10.0.1" } := by
  have hname : Skips .standard "1+M,AX(2,3)" 3 := ⟨rfl, _, rfl, by decide⟩
  have hnumber : Skips .standard "a+1,0.0.1" 3 := ⟨rfl, _, rfl, by decide⟩
  refine ⟨hname, ?_, hnumber, ?_⟩
  · have herase := @tokenize_erase .standard _ .standard (by decide) _ hname
    exact herase.1 _ rfl
  · have herase := @tokenize_erase .standard _ .standard (by decide) _ hnumber
    obtain ⟨_, _, h, herased⟩ := herase.2 _ rfl
    obtain ⟨rfl, rfl⟩ : _ ∧ _ := by simpa using h
    exact herased

end Reckon
