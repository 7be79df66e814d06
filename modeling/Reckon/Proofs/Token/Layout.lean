/-
How tokens lie in their source (`tokenize_layout`): each begins at its position,
with the first character of its value, and goes on to the last one; the next one
is not far. In a token the source may have commas that group digits, and between
two tokens it has nothing but white space and such commas.

Whether a comma groups digits is seen from the tokens before it
(`openGroups`): it does unless the innermost parenthesis that they leave open
opens the arguments of a call.

The scanner has a run still to end, with the commas that it has skipped since
(`Scanner.Pending`). The commas in the run are in the token that it becomes, and
those behind it are not.
-/
import Reckon.Proofs.Token.Position
import Reckon.Proofs.Token.RoundTrip

namespace Reckon

/-- The parentheses that are open after tokens, innermost first, given those before them; true for
one that opens the arguments of a call. -/
def openGroups (groups : List Bool) (afterFunction : Bool) : List Token → List Bool
  | [] => groups
  | t :: ts => openGroups (Scanner.groupsAfter groups afterFunction t.kind) (t.kind == .function) ts

/-- The comma groups digits: the innermost open parenthesis opens no arguments. -/
def IsGrouping (groups : List Bool) (c : Char) : Prop := c = ',' ∧ groups.head? ≠ some true

instance (groups : List Bool) : DecidablePred (IsGrouping groups) := fun c =>
  inferInstanceAs (Decidable (c = ',' ∧ groups.head? ≠ some true))

/-- What is read of characters: all but the commas that group digits. -/
def readable (groups : List Bool) (cs : List Char) : List Char :=
  cs.filter fun c => ¬IsGrouping groups c

/-- White space, or a comma that groups digits. -/
def Fills (groups : List Bool) (c : Char) : Prop := isSpace c = true ∨ IsGrouping groups c

/-- The characters are those of the token, from the first to the last. -/
structure Token.SpelledBy (t : Token) (groups : List Bool) (cs : List Char) : Prop where
  readable : readable groups cs = t.value.toList
  ne_nil : cs ≠ []
  head : cs.head? = t.value.toList.head?
  last : cs.getLast? = t.value.toList.getLast?

/-- From a position on, the characters are those of tokens, and others between them. -/
inductive Laid : List Bool → Bool → Nat → List Char → List Token → Prop
  | finish {groups afterFunction position} :
      Laid groups afterFunction position [] [Token.finish (position : Nat)]
  | fill {groups afterFunction position c cs ts} : Fills groups c →
      Laid groups afterFunction (position + 1) cs ts →
      Laid groups afterFunction position (c :: cs) ts
  | token {groups afterFunction} {position : Nat} {t : Token} {piece cs ts} :
      t.position = position → t.SpelledBy groups piece →
      Laid (Scanner.groupsAfter groups afterFunction t.kind) (t.kind == .function)
        (position + piece.length) cs ts →
      Laid groups afterFunction position (piece ++ cs) (t :: ts)

theorem readable_append (groups : List Bool) (cs cs' : List Char) :
    readable groups (cs ++ cs') = readable groups cs ++ readable groups cs' :=
  List.filter_append ..

theorem readable_of_groups {groups : List Bool} {cs : List Char}
    (h : ∀ c ∈ cs, IsGrouping groups c) : readable groups cs = [] := by
  simpa [readable] using h

theorem readable_singleton {groups : List Bool} {c : Char} (h : ¬IsGrouping groups c) :
    readable groups [c] = [c] := by
  simp [readable, h]

namespace Laid

variable {groups : List Bool} {afterFunction : Bool} {position : Nat} {cs : List Char}
  {ts : List Token}

theorem fills {gap : List Char} (hgap : ∀ c ∈ gap, Fills groups c)
    (h : Laid groups afterFunction (position + gap.length) cs ts) :
    Laid groups afterFunction position (gap ++ cs) ts := by
  induction gap generalizing position with
  | nil => exact h
  | cons c gap ih =>
    rw [List.length_cons, Nat.add_comm gap.length, ← Nat.add_assoc] at h
    obtain ⟨hc, hgap⟩ := List.forall_mem_cons.1 hgap
    exact .fill hc (ih hgap h)

/-! ## Positions -/

theorem le_position (h : Laid groups afterFunction position cs ts) :
    ∀ t ∈ ts, (position : Int) ≤ t.position := by
  induction h with
  | finish => simp [Token.finish]
  | fill _ _ ih =>
    intro t ht
    have := ih t ht
    omega
  | token hposition hspelled _ ih =>
    refine List.forall_mem_cons.2 ⟨Int.le_of_eq hposition.symm, fun t ht => ?_⟩
    have := ih t ht
    omega

/-- Positions increase. -/
theorem increasing (h : Laid groups afterFunction position cs ts) :
    ts.Pairwise fun t t' => t.position < t'.position := by
  induction h with
  | finish => exact List.pairwise_singleton _ _
  | fill _ _ ih => exact ih
  | token hposition hspelled hrest ih =>
    refine List.pairwise_cons.2 ⟨fun t ht => ?_, ih⟩
    have := hrest.le_position t ht
    have := List.length_pos_iff.2 hspelled.ne_nil
    omega

/-- The end stands behind the last character. -/
theorem exists_finish (h : Laid groups afterFunction position cs ts) :
    ∃ body, ts = body ++ [Token.finish ((position + cs.length : Nat) : Int)] := by
  induction h with
  | finish => exact ⟨[], rfl⟩
  | @fill _ _ position c cs _ _ _ ih =>
    obtain ⟨body, rfl⟩ := ih
    exact ⟨body, by rw [List.length_cons, Nat.add_right_comm, Nat.add_assoc]⟩
  | @token _ _ position t piece cs _ _ _ _ ih =>
    obtain ⟨body, rfl⟩ := ih
    exact ⟨t :: body, by rw [List.length_append, Nat.add_assoc, List.cons_append]⟩

/-! ## Tokens and what is between them -/

/-- Before the first token. -/
theorem head {t : Token} (h : Laid groups afterFunction position cs (t :: ts)) :
    ∃ gap rest, cs = gap ++ rest ∧ t.position = (position + gap.length : Nat) ∧
      ∀ c ∈ gap, Fills groups c := by
  generalize hts : t :: ts = us at h
  induction h with
  | finish =>
    obtain ⟨rfl, _⟩ := List.cons.inj hts
    exact ⟨[], [], rfl, rfl, by simp⟩
  | @fill _ _ position c _ _ hc _ ih =>
    obtain ⟨gap, rest, rfl, hposition, hgap⟩ := ih hts
    refine ⟨c :: gap, rest, rfl, ?_, List.forall_mem_cons.2 ⟨hc, hgap⟩⟩
    rw [hposition, List.length_cons, Nat.add_comm gap.length, Nat.add_assoc]
  | @token _ _ _ _ piece cs _ hposition =>
    obtain ⟨rfl, _⟩ := List.cons.inj hts
    exact ⟨[], piece ++ cs, rfl, hposition, by simp⟩

/-- From one token to the next. -/
theorem next (h : Laid groups afterFunction position cs ts) {before after : List Token}
    {t t' : Token} (hts : ts = before ++ t :: t' :: after) :
    ∃ front piece gap rest, cs = front ++ piece ++ gap ++ rest ∧
      t.position = (position + front.length : Nat) ∧
      t'.position = (position + (front ++ piece ++ gap).length : Nat) ∧
      t.SpelledBy (openGroups groups afterFunction before) piece ∧
      ∀ c ∈ gap, Fills (openGroups groups afterFunction (before ++ [t])) c := by
  induction h generalizing before with
  | finish =>
    have := congrArg List.length hts
    simp at this
    omega
  | @fill _ _ position c cs _ _ _ ih =>
    obtain ⟨front, piece, gap, rest, rfl, ht, ht', hspelled, hgap⟩ := ih hts
    refine ⟨c :: front, piece, gap, rest, by simp, ?_, ?_, hspelled, hgap⟩
    · rw [ht, List.length_cons, Nat.add_comm front.length, Nat.add_assoc]
    · rw [ht', List.cons_append, List.cons_append, List.length_cons, Nat.add_assoc, Nat.add_comm 1]
  | @token _ _ position u piece cs _ hposition hspelled hrest ih =>
    cases before with
    | nil =>
      obtain ⟨rfl, rfl⟩ := List.cons.inj hts
      obtain ⟨gap, rest, rfl, ht', hgap⟩ := hrest.head
      refine ⟨[], piece, gap, rest, by simp, hposition, ?_, hspelled, hgap⟩
      rw [ht', List.nil_append, List.length_append, Nat.add_assoc]
    | cons u' before =>
      obtain ⟨rfl, rfl⟩ := List.cons.inj hts
      obtain ⟨front, piece', gap, rest, rfl, ht, ht', hspelled', hgap⟩ := ih rfl
      refine ⟨piece ++ front, piece', gap, rest, by simp, ?_, ?_, hspelled', hgap⟩
      · rw [ht, List.length_append, Nat.add_assoc]
      · simp [ht', Nat.add_assoc]

end Laid

/-! ## The scan -/

namespace Scanner

variable {r : Registry}

/-- The run that is open has been read from these characters, and behind them commas have been
skipped. -/
structure Pending (s : State) (start position : Nat) (core commas : List Char) : Prop where
  empty : s.run = [] → core = [] ∧ commas = []
  begins : s.run ≠ [] → s.start = start
  length : start + core.length + commas.length = position
  reads : readable s.groups core = s.run
  head : core.head? = s.run.head?
  last : core.getLast? = s.run.getLast?
  commas : ∀ c ∈ commas, IsGrouping s.groups c

theorem Pending.of_nil {s : State} (h : s.run = []) (position : Nat) :
    Pending s position position [] [] where
  empty := fun _ => ⟨rfl, rfl⟩
  begins := fun hne => absurd h hne
  length := rfl
  reads := by simp [readable, h]
  head := by simp [h]
  last := by simp [h]
  commas := by simp

section Pending

variable {s : State} {start position : Nat} {core commas : List Char}
  (h : Pending s start position core commas)

include h

/-- A character of the run has the commas before it in the run as well. -/
theorem Pending.gather {c : Char} (hc : c ≠ ',') :
    Pending (s.gather c position) start (position + 1) (core ++ commas ++ [c]) [] where
  empty := fun hnil => by simp [State.gather] at hnil
  begins := fun _ => by
    by_cases hrun : s.run = []
    · obtain ⟨rfl, rfl⟩ := h.empty hrun
      simpa [State.gather, hrun] using h.length.symm
    · simpa [State.gather, hrun] using h.begins hrun
  length := by
    have := h.length
    simp
    omega
  reads := by
    have hread : ¬IsGrouping s.groups c := fun hgroups => hc hgroups.1
    rw [show (s.gather c position).groups = s.groups from rfl, readable_append, readable_append,
      h.reads, readable_of_groups h.commas, readable_singleton hread, List.append_nil]
    rfl
  head := by
    by_cases hrun : s.run = []
    · obtain ⟨rfl, rfl⟩ := h.empty hrun
      simp [State.gather, hrun]
    · obtain ⟨d, run, hd⟩ := List.exists_cons_of_ne_nil hrun
      have hhead := h.head
      rw [hd, List.head?_cons] at hhead
      simp [State.gather, hd, hhead]
  last := by simp [State.gather]
  commas := by simp

/-- A comma that is skipped comes behind the run. -/
theorem Pending.skip (hrun : s.run ≠ []) (hgroup : s.groups.head? ≠ some true) :
    Pending s start (position + 1) core (commas ++ [',']) where
  empty := fun hnil => absurd hnil hrun
  begins := h.begins
  length := by
    have := h.length
    simp
    omega
  reads := h.reads
  head := h.head
  last := h.last
  commas := by
    rw [List.forall_mem_append, List.forall_mem_singleton]
    exact ⟨h.commas, rfl, hgroup⟩

/-- Ending the run gives the token that has been read. -/
theorem Pending.flushed {s' : State} {ts us : List Token} {cs : List Char}
    (hflush : Flushed r s ts s') (hrest : Laid s'.groups s'.afterFunction position cs us) :
    Laid s.groups s.afterFunction start (core ++ commas ++ cs) (ts ++ us) := by
  have hposition := h.length
  cases hflush with
  | nothing hnil =>
    obtain ⟨rfl, rfl⟩ := h.empty hnil
    obtain rfl : start = position := by simpa using hposition
    exact hrest
  | @run k hne hlex hk =>
    rw [List.append_assoc]
    refine .token (congrArg Int.ofNat (h.begins hne)) ⟨?_, ?_, ?_, ?_⟩ ?_
    · simpa using h.reads
    · rintro rfl
      exact hne (by simpa [readable] using h.reads.symm)
    · simpa using h.head
    · simpa using h.last
    · rw [groupsAfter_of_isRun hk]
      exact .fills (fun c hc => .inr (h.commas c hc)) (hposition ▸ hrest)

end Pending

/-- **Tokens lie in what they were scanned from.** -/
theorem Scans.laid {s : State} {position : Nat} {cs : List Char} {ts : List Token}
    (h : Scans r s position cs ts) {start : Nat} {core commas : List Char}
    (hpending : Pending s start position core commas) :
    Laid s.groups s.afterFunction start (core ++ commas ++ cs) ts := by
  induction h generalizing start core commas with
  | finish hflush => exact hpending.flushed hflush .finish
  | @join s position c cs ts he _ ih =>
    have hlaid := ih (hpending.gather (ne_comma_of_effect (.inl he)))
    rw [List.append_nil, List.append_assoc _ [c]] at hlaid
    exact hlaid
  | @begin s position c cs ts s' ts' he hflush _ ih =>
    have hbegun := (Pending.of_nil hflush.run_eq_nil position).gather (ne_comma_of_effect (.inr he))
    exact hpending.flushed hflush (ih hbegun)
  | @skip s position c cs ts he _ ih =>
    obtain ⟨rfl, hgroup⟩ := effect_eq_skip_iff.1 he
    by_cases hrun : s.run = []
    · obtain ⟨rfl, rfl⟩ := hpending.empty hrun
      obtain rfl : start = position := by simpa using hpending.length
      exact .fill (.inr ⟨rfl, hgroup⟩) (ih (.of_nil hrun _))
    · have hlaid := ih (hpending.skip hrun hgroup)
      rwa [List.append_assoc, List.append_assoc, List.singleton_append, ← List.append_assoc]
        at hlaid
  | @token s position c cs ts s' k ts' he hflush _ ih =>
    have hread : ¬IsGrouping s'.groups c := by
      rintro ⟨rfl, hgroup⟩
      rw [hflush.groups] at hgroup
      rw [effect_eq_skip_iff.2 ⟨rfl, hgroup⟩] at he
      cases he
    have hspelled : (single k c position).SpelledBy s'.groups [c] :=
      ⟨by simp [readable_singleton hread, single], by simp, by simp [single], by simp [single]⟩
    have hlaid := ih (.of_nil (s := s'.close k c) hflush.run_eq_nil (position + 1))
    refine hpending.flushed hflush (@Laid.token _ _ _ _ [c] _ _ rfl hspelled ?_)
    rw [show (single k c position).kind = k from rfl,
      not_function_of_isRun (lexeme_of_effect he).2]
    exact hlaid
  | @space s position c cs ts s' ts' he hflush _ ih =>
    have hspace : isSpace c = true := by
      cases otherEffect_of_effect he (by simp) (by simp) with
      | space _ _ _ _ hspace => exact hspace
    have hlaid := ih (.of_nil (s := { s' with previous := some c }) hflush.run_eq_nil _)
    exact hpending.flushed hflush (.fill (.inl hspace) hlaid)

end Scanner

/-- The tokens of a source lie in it. -/
theorem laid_of_tokenize {source : String} {r : Registry} {limits : Limits} {tokens : List Token}
    (h : tokenize source r limits = .ok tokens) : Laid [] false 0 source.toList tokens :=
  (scans_of_tokenize h).laid (.of_nil rfl 0)

/-- **Tokens stand where their positions say.** Positions increase. Every token but the end begins
in the source at its position, and the end, which is the last token, stands behind the last
character. What a token says is what one reads in the source from there on but for commas that group
digits, and up to the next token, or to the first, there is only white space and such commas. -/
theorem tokenize_layout {source : String} {r : Registry} {limits : Limits} {tokens : List Token}
    (h : tokenize source r limits = .ok tokens) :
    (tokens.Pairwise fun t t' => t.position < t'.position) ∧
    (∃ body, tokens = body ++ [Token.finish source.length] ∧
      ∀ t ∈ body, t.kind ≠ .finish ∧ BeginsAt source t.position t.value) ∧
    (∀ (before : List Token) (t t' : Token) (after : List Token),
      tokens = before ++ t :: t' :: after →
      ∃ front piece gap rest, source.toList = front ++ piece ++ gap ++ rest ∧
        t.position = (front.length : Nat) ∧ t'.position = ((front ++ piece ++ gap).length : Nat) ∧
        t.SpelledBy (openGroups [] false before) piece ∧
        ∀ c ∈ gap, Fills (openGroups [] false (before ++ [t])) c) ∧
    (∀ t ∈ tokens.head?, ∃ gap rest, source.toList = gap ++ rest ∧ t.position = (gap.length : Nat) ∧
      ∀ c ∈ gap, Fills [] c) := by
  have hlaid := laid_of_tokenize h
  refine ⟨hlaid.increasing, ?_, fun before t t' after htokens => ?_, fun t ht => ?_⟩
  · obtain ⟨body, n, hbody, hlex⟩ := tokenize_lexeme h
    obtain ⟨body', hbody'⟩ := hlaid.exists_finish
    obtain ⟨rfl, hfinish⟩ := List.append_inj' (hbody.symm.trans hbody') rfl
    rw [Nat.zero_add, String.length_toList] at hbody'
    refine ⟨body, hbody', fun t ht => ⟨(hlex t ht).ne_finish, ?_⟩⟩
    have hstands := standsIn_of_tokenize h t (by simp [hbody, ht])
    exact hstands.beginsAt fun hempty => (hlex t ht).ne_nil (by simp [hempty])
  · obtain ⟨front, piece, gap, rest, hsource, ht, ht', hspelled, hgap⟩ := hlaid.next htokens
    rw [Nat.zero_add] at ht ht'
    exact ⟨front, piece, gap, rest, hsource, ht, ht', hspelled, hgap⟩
  · obtain ⟨rest, rfl⟩ := List.head?_eq_some_iff.1 ht
    obtain ⟨gap, rest, hsource, ht, hgap⟩ := hlaid.head
    rw [Nat.zero_add] at ht
    exact ⟨gap, rest, hsource, ht, hgap⟩

/-- A number with a comma in it and another one behind it. -/
theorem tokenize_layout_separated :
    tokenize " 1,0, +M" .standard .standard = .ok [⟨.number, "10", 1⟩, ⟨.operator, "+", 6⟩,
      ⟨.identifier, "M", 7⟩, ⟨.finish, "", 8⟩] ∧
    ∃ front piece gap rest,
      [' ', '1', ',', '0', ',', ' ', '+', 'M'] = front ++ piece ++ gap ++ rest ∧
      (1 : Int) = (front.length : Nat) ∧ (6 : Int) = ((front ++ piece ++ gap).length : Nat) ∧
      Token.SpelledBy ⟨.number, "10", 1⟩ [] piece ∧ ∀ c ∈ gap, Fills [] c := by
  have h : tokenize " 1,0, +M" .standard .standard = .ok [⟨.number, "10", 1⟩, ⟨.operator, "+", 6⟩,
    ⟨.identifier, "M", 7⟩, ⟨.finish, "", 8⟩] := rfl
  exact ⟨h, (tokenize_layout h).2.2.1 [] _ _ _ rfl⟩

end Reckon
