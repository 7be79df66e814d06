/-
The scanner is a lexer: what it does in one pass with a character of look-behind
is to drop the commas that separate nothing, to cut what is left into the
longest runs, and to read each piece by itself (`tokenize_cut`).

A comma is a separator where the innermost open parenthesis before it opens the
arguments of a call. Whether one does is seen from the pieces before it, so the
commas are dropped from left to right (`kept`).

The invariant of the scan is that all characters kept so far are cut into the
pieces that are done and the run that is pending, whatever comes next
(`Standing`).
-/
import Reckon.Proofs.Token.Cutting
import Reckon.Proofs.Token.Scan

namespace Reckon

/-! ## The lexer -/

namespace Piece

/-- White space between tokens. -/
def IsBlank (p : Piece) : Prop := ∃ m, p = [m] ∧ isSpace m.char = true

instance (p : Piece) : Decidable p.IsBlank :=
  match p with
  | [] => isFalse nofun
  | [m] => decidable_of_iff (isSpace m.char = true) (by simp [IsBlank])
  | _ :: _ :: _ => isFalse nofun

/-- A word that is the name of a function. -/
def isFunction (r : Registry) (p : Piece) : Bool :=
  p.chars.all Text.isLetter && r.isFunction (String.ofList p.chars)

/-- The piece is white space or a token. -/
def WellFormed (r : Registry) (p : Piece) : Prop := p.IsBlank ∨ ∃ k, Lexeme r p.chars k

end Piece

/-- Whether the last token of the pieces is the name of a function. -/
def endsInFunction (r : Registry) (ps : List Piece) : Bool :=
  (ps.filter fun p => !decide p.IsBlank).getLast?.any (·.isFunction r)

/-- The characters without the commas that are no separators, given those kept before them and the
open parentheses; true stands for one that opens the arguments of a call. -/
def kept (r : Registry) (before : List Mark) (groups : List Bool) : List Mark → List Mark
  | [] => []
  | m :: ms =>
    if m.char = ',' ∧ groups.head? ≠ some true then kept r before groups ms
    else
      let groups :=
        if m.char = '(' then endsInFunction r (cut before) :: groups
        else if m.char = ')' then groups.tail
        else groups
      m :: kept r (before ++ [m]) groups ms

/-- The pieces of a source. -/
def pieces (r : Registry) (source : String) : List Piece :=
  cut (kept r [] [] (marks 0 source.toList))

/-- The tokens of pieces: one for each that is not white space. -/
inductive Lexed (r : Registry) : List Piece → List Token → Prop
  | nil : Lexed r [] []
  | blank {p ps ts} : p.IsBlank → Lexed r ps ts → Lexed r (p :: ps) ts
  | token {p k ps ts} : Lexeme r p.chars k → Lexed r ps ts →
      Lexed r (p :: ps) (⟨k, String.ofList p.chars, p.start⟩ :: ts)

/-- What is wrong with a piece: it is a character that nothing begins with, or a run that is
neither a word nor a numeral. -/
inductive Faulty (r : Registry) (source : String) : Piece → Diagnostic → Prop
  | illegal {m : Mark} : ¬Piece.WellFormed r [m] →
      Faulty r source [m] (Scanner.unexpected source m.char m.position)
  | malformed {p} : IsRun p → ¬p.WellFormed r →
      Faulty r source p (Scanner.malformed source p.chars p.start)

theorem Lexed.append {r : Registry} {ps qs : List Piece} {ts us : List Token}
    (h : Lexed r ps ts) (h' : Lexed r qs us) : Lexed r (ps ++ qs) (ts ++ us) := by
  induction h with
  | nil => exact h'
  | blank hp _ ih => exact .blank hp ih
  | token hp _ ih => exact .token hp ih

theorem Lexed.wellFormed {r : Registry} {ps : List Piece} {ts : List Token} (h : Lexed r ps ts) :
    ∀ p ∈ ps, p.WellFormed r := by
  induction h with
  | nil => simp
  | blank hp _ ih => simpa using ⟨.inl hp, ih⟩
  | token hp _ ih => simpa using ⟨.inr ⟨_, hp⟩, ih⟩

theorem Faulty.not_wellFormed {r : Registry} {source : String} {p : Piece} {d : Diagnostic}
    (h : Faulty r source p d) : ¬p.WellFormed r := by
  cases h <;> assumption

/-- What a scan gives for pieces: their tokens and the end, or what is wrong with one of them. -/
def Outcome (r : Registry) (source : String) (ps : List Piece) (finish : Nat) :
    Except Diagnostic (List Token) → Prop
  | .ok ts => ∃ body, Lexed r ps body ∧ ts = body ++ [Token.finish finish]
  | .error d => ∃ p ∈ ps, Faulty r source p d

theorem Outcome.append {r : Registry} {source : String} {ps qs : List Piece} {finish : Nat}
    {ts : List Token} {x : Except Diagnostic (List Token)} (h : Lexed r ps ts)
    (hx : Outcome r source qs finish x) :
    Outcome r source (ps ++ qs) finish (do return ts ++ (← x)) := by
  cases x with
  | ok us =>
    obtain ⟨body, hbody, rfl⟩ := hx
    exact ⟨ts ++ body, h.append hbody, by simp⟩
  | error d =>
    obtain ⟨p, hp, hfault⟩ := hx
    exact ⟨p, List.mem_append_right _ hp, hfault⟩

/-! ## The pending run -/

theorem IsRun.mem {p : Piece} (h : IsRun p) :
    ∀ m ∈ p, (Text.isLetter m.char || isNumeric m.char) = true := by
  cases h with
  | letters _ hw => exact fun m hm => by simp [show Text.isLetter m.char = true from hw m hm]
  | @mixed w point t _ hw hpoint ht =>
    intro m hm
    rw [List.mem_append, List.mem_cons] at hm
    rcases hm with hm | rfl | hm
    · simp [show Text.isLetter m.char = true from hw m hm]
    · simp [show isNumeric m.char = true from Mark.isNumeric_of_point hpoint]
    · simp [show isNumeric m.char = true from ht m hm]
  | numeric _ ht => exact fun m hm => by simp [show isNumeric m.char = true from ht m hm]

theorem IsRun.not_isBlank {p : Piece} (h : IsRun p) : ¬p.IsBlank := by
  rintro ⟨m, rfl, hspace⟩
  have hm := h.mem m (by simp)
  simp only [isSpace, Bool.or_eq_true, decide_eq_true_eq] at hspace
  rcases hspace with ((hc | hc) | hc) | hc <;> rw [hc] at hm <;> revert hm <;> decide

/-- The piece that a pending run is when it ends. -/
def ended (p : Piece) : List Piece := if p.isEmpty then [] else [p]

theorem cut_ended {p : Piece} {rest : List Mark} (hp : p ≠ [] → IsRun p)
    (hs : p ≠ [] → Stops p rest) : cut (p ++ rest) = ended p ++ cut rest := by
  by_cases hne : p = []
  · subst hne
    rfl
  · rw [cut_append (hp hne) (hs hne), ended, if_neg (by simpa using hne)]
    rfl

namespace Scanner

/-- Where the scanner stands: the characters kept so far are the pieces that are done and the run
that is pending. -/
structure Standing (r : Registry) (s : State) (before : List Mark) (done : List Piece)
    (pending : Piece) : Prop where
  run : s.run = pending.chars
  start : pending ≠ [] → s.start = pending.start
  isRun : pending ≠ [] → IsRun pending
  previous : ∀ m ∈ pending.getLast?, s.previous = some m.char
  cut : ∀ ms, cut (before ++ ms) = done ++ cut (pending ++ ms)
  after : pending = [] → s.afterFunction = endsInFunction r done

variable {r : Registry} {source : String} {s : State} {before : List Mark} {done : List Piece}
  {pending : Piece}

theorem Standing.initial : Standing r {} [] [] [] where
  run := rfl
  start := fun h => absurd rfl h
  isRun := fun h => absurd rfl h
  previous := by simp
  cut := fun _ => rfl
  after := fun _ => rfl

theorem endsInFunction_concat {ps : List Piece} {p : Piece} (h : ¬p.IsBlank) :
    endsInFunction r (ps ++ [p]) = p.isFunction r := by
  simp [endsInFunction, h]

theorem endsInFunction_blank {ps : List Piece} {p : Piece} (h : p.IsBlank) :
    endsInFunction r (ps ++ [p]) = endsInFunction r ps := by
  simp [endsInFunction, h]

theorem isFunction_of_lexeme {p : Piece} {k : TokenKind} (h : Lexeme r p.chars k)
    (hk : k.isRun = true) : p.isFunction r = (k == .function) := by
  unfold Piece.isFunction
  generalize p.chars = cs at h
  cases h with
  | function _ hl hf => simp [List.all_eq_true.2 hl, hf]
  | identifier _ hl hf => simp [List.all_eq_true.2 hl, hf]
  | number h => simp [h.not_letters]
  | comma | leftParen | rightParen | operator => cases hk

/-- The state when the pending run has ended. -/
def State.ended (s : State) (r : Registry) (done : List Piece) (pending : Piece) : State :=
  { s with run := [], afterFunction := endsInFunction r (done ++ Reckon.ended pending) }

/-- Ending the run gives its token, or tells what is wrong with it. -/
theorem Standing.flush (h : Standing r s before done pending) (hr : r.Reached) (source : String) :
    (∃ ts, Scanner.flush r source s = .ok (ts, s.ended r done pending) ∧
      Lexed r (ended pending) ts) ∨
    (∃ d, Scanner.flush r source s = .error d ∧ pending ∈ ended pending ∧
      Faulty r source pending d) := by
  by_cases hne : pending = []
  · subst hne
    have hrun : s.run = [] := h.run
    refine .inl ⟨[], ?_, .nil⟩
    have hs : s = s.ended r done [] := by
      obtain ⟨run, start, previous, groups, afterFunction⟩ := s
      simpa [State.ended, ended] using ⟨hrun, h.after rfl⟩
    rw [← hs]
    simp [Scanner.flush, hrun]
  · have hrun : s.run ≠ [] := by
      simpa [h.run, Piece.chars] using hne
    have hended : ended pending = [pending] := by simp [ended, hne]
    cases ht : runToken r source s.run s.start with
    | ok t =>
      obtain ⟨k, value, position⟩ := t
      obtain ⟨hlex, hk, rfl, rfl⟩ := runToken_eq_ok ht hrun
      rw [h.run] at hlex
      refine .inl ⟨[⟨k, String.ofList pending.chars, pending.start⟩], ?_, ?_⟩
      · simp only [Scanner.flush, List.isEmpty_iff, hrun, if_false, ht, State.ended, hended]
        rw [endsInFunction_concat (h.isRun hne).not_isBlank, isFunction_of_lexeme hlex hk,
          h.run, h.start hne]
        rfl
      · rw [hended]
        exact .token hlex .nil
    | error d =>
      obtain ⟨rfl, hlex⟩ := runToken_eq_error ht
      refine .inr ⟨malformed source s.run s.start, ?_, by simp [hended], ?_⟩
      · simp only [Scanner.flush, List.isEmpty_iff, hrun, if_false, ht]
        rfl
      · rw [h.run, h.start hne]
        refine .malformed (h.isRun hne) ?_
        rintro (hblank | ⟨k, hk⟩)
        · exact (h.isRun hne).not_isBlank hblank
        · refine hlex k (hk.isRun hr fun c hc => ?_) (h.run ▸ hk)
          obtain ⟨m, hm, rfl⟩ := List.mem_map.1 hc
          exact (h.isRun hne).mem m hm

/-! ## The scan -/

/-- A character of a run goes on with the pending one, or ends it and begins another. -/
theorem Standing.runEffect (h : Standing r s before done pending) {m : Mark} {e : Effect}
    (he : RunEffect s m.char e) :
    (e = .join ∧ IsRun (pending ++ [m])) ∨
    (e = .begin ∧ pending ≠ [] ∧ ¬IsRun (pending ++ [m]) ∧ IsRun [m]) := by
  have hsingle : IsRun [m] := by
    rw [isRun_singleton]
    cases he with
    | digit hd => exact .inr (by simp [Mark.isNumeric, isNumeric, hd])
    | letter hl => exact .inl hl
    | point hp => exact .inr (Mark.isNumeric_of_point hp)
  by_cases hne : pending = []
  · subst hne
    have hrun : s.run = [] := h.run
    refine .inl ⟨?_, hsingle⟩
    cases he <;> simp [State.continues, hrun]
  · obtain ⟨n, hlast⟩ := Option.isSome_iff_exists.1 (List.getLast?_isSome.2 hne)
    have hprevious := h.previous n hlast
    have hrun : s.run ≠ [] := by simpa [h.run, Piece.chars] using hne
    have hiff := (h.isRun hne).snoc_iff hlast (m := m)
    cases he with
    | digit hd =>
      have hl : m.isLetter = false := Text.not_isLetter_of_isDigit hd
      have hm : m.isNumeric = true := by simp [Mark.isNumeric, isNumeric, hd]
      have hp : m.char ≠ '.' := fun hp => by
        rw [hp] at hd
        revert hd
        decide
      cases hn : n.isNumeric with
      | true =>
        have hcont : isNumeric n.char = true := hn
        exact .inl ⟨by simp [State.continues, hprevious, hcont], hiff.2 (.inr (.inl ⟨hm, hn⟩))⟩
      | false =>
        have hcont : isNumeric n.char = false := hn
        refine .inr ⟨by simp [State.continues, hrun, hprevious, hcont], hne, ?_, hsingle⟩
        simp [hiff, hl, hn, hp]
    | letter hl =>
      have hm : m.isLetter = true := hl
      have hnum : m.isNumeric = false := not_isNumeric_of_isLetter hl
      have hp : m.char ≠ '.' := fun hp => by simp [Mark.isNumeric_of_point hp] at hnum
      cases hn : n.isLetter with
      | true =>
        have hcont : Text.isLetter n.char = true := hn
        exact .inl ⟨by simp [State.continues, hprevious, hcont], hiff.2 (.inl ⟨hm, hn⟩)⟩
      | false =>
        have hcont : Text.isLetter n.char = false := hn
        refine .inr ⟨by simp [State.continues, hrun, hprevious, hcont], hne, ?_, hsingle⟩
        simp [hiff, hnum, hn, hp]
    | point hp => exact .inl ⟨rfl, hiff.2 (.inr (.inr hp))⟩

theorem Standing.gather (h : Standing r s before done pending) {m : Mark}
    (hrun : IsRun (pending ++ [m])) :
    Standing r (s.gather m.char m.position) (before ++ [m]) done (pending ++ [m]) where
  run := by simp [State.gather, h.run, Piece.chars]
  start := fun _ => by
    cases pending with
    | nil => simp [State.gather, h.run, Piece.chars, Piece.start]
    | cons n p => simpa [State.gather, h.run, Piece.chars, Piece.start] using h.start (by simp)
  isRun := fun _ => hrun
  previous := by simp [State.gather]
  cut := fun ms => by simpa using h.cut (m :: ms)
  after := fun hnil => by simp at hnil

/-- The pending run is a piece when the next character does not go on with it. -/
theorem Standing.cut_stop (h : Standing r s before done pending) {m : Mark}
    (hstop : ¬IsRun (pending ++ [m])) (rest : List Mark) :
    Reckon.cut (pending ++ m :: rest) = ended pending ++ Reckon.cut (m :: rest) :=
  cut_ended h.isRun fun _ => by simpa [Stops] using hstop

theorem Standing.begin (h : Standing r s before done pending) {m : Mark}
    (hstop : ¬IsRun (pending ++ [m])) (hrun : IsRun [m]) :
    Standing r ((s.ended r done pending).gather m.char m.position) (before ++ [m])
      (done ++ ended pending) [m] where
  run := rfl
  start := fun _ => rfl
  isRun := fun _ => hrun
  previous := by simp [State.gather]
  cut := fun ms => by
    simpa [h.cut_stop hstop] using h.cut (m :: ms)
  after := fun hnil => by simp at hnil

/-- A character that is in no run is a piece by itself. -/
theorem Standing.cut_other (h : Standing r s before done pending) {m : Mark}
    (hl : m.isLetter = false) (hn : m.isNumeric = false) (rest : List Mark) :
    Reckon.cut (pending ++ m :: rest) = ended pending ++ [[m]] ++ Reckon.cut rest := by
  have hstop : ¬IsRun (pending ++ [m]) := fun hrun => by
    have hm := hrun.mem m (by simp)
    have hl' : Text.isLetter m.char = false := hl
    have hn' : isNumeric m.char = false := hn
    simp [hl', hn'] at hm
  rw [h.cut_stop hstop, cut_single hl hn]
  simp

theorem Standing.close (h : Standing r s before done pending) {m : Mark} {s' : State}
    (hl : m.isLetter = false) (hn : m.isNumeric = false) (hrun : s'.run = [])
    (hafter : s'.afterFunction = endsInFunction r (done ++ (ended pending ++ [[m]]))) :
    Standing r s' (before ++ [m]) (done ++ (ended pending ++ [[m]])) [] where
  run := hrun
  start := fun hne => absurd rfl hne
  isRun := fun hne => absurd rfl hne
  previous := by simp
  cut := fun ms => by
    have hcut := h.cut (m :: ms)
    rw [h.cut_other hl hn] at hcut
    simpa using hcut
  after := fun _ => hafter

/-- After the pending run has ended a scan gives what the pieces behind it are. -/
theorem Standing.outcome (h : Standing r s before done pending) (hr : r.Reached)
    {ps : List Piece} {finish : Nat}
    {next : List Token × State → Except Diagnostic (List Token)}
    (hnext : ∀ ts, Lexed r (ended pending) ts →
      Outcome r source (ended pending ++ ps) finish (next (ts, s.ended r done pending))) :
    Outcome r source (ended pending ++ ps) finish (Scanner.flush r source s >>= next) := by
  rcases h.flush hr source with ⟨ts, hflush, hlexed⟩ | ⟨d, hflush, hmem, hfault⟩
  · rw [hflush]
    exact hnext ts hlexed
  · rw [hflush]
    exact ⟨pending, List.mem_append_left _ hmem, hfault⟩

theorem kept_plain {groups : List Bool} {m : Mark} {ms : List Mark} (hcomma : m.char ≠ ',')
    (hopen : m.char ≠ '(') (hclose : m.char ≠ ')') :
    kept r before groups (m :: ms) = m :: kept r (before ++ [m]) groups ms := by
  simp [kept, hcomma, hopen, hclose]

theorem Standing.cut_before (h : Standing r s before done pending) :
    Reckon.cut before = done ++ ended pending := by
  have hcut := h.cut []
  have hend : Reckon.cut (pending ++ []) = ended pending ++ Reckon.cut [] :=
    cut_ended h.isRun fun _ => by simp [Stops]
  rw [hend] at hcut
  simpa using hcut

/-- A token that is no run goes on from behind it. -/
theorem Standing.token (h : Standing r s before done pending) {m : Mark} (k : TokenKind)
    (hl : m.isLetter = false) (hn : m.isNumeric = false) (hspace : isSpace m.char = false) :
    Standing r ((s.ended r done pending).close k m.char) (before ++ [m])
      (done ++ (ended pending ++ [[m]])) [] := by
  have hblank : ¬Piece.IsBlank [m] := by simp [Piece.IsBlank, hspace]
  have hletter : Text.isLetter m.char = false := hl
  refine h.close hl hn rfl ?_
  rw [← List.append_assoc, endsInFunction_concat hblank]
  simp [State.close, Piece.isFunction, Piece.chars, hletter]

theorem Standing.space (h : Standing r s before done pending) {m : Mark}
    (hl : m.isLetter = false) (hn : m.isNumeric = false) (hspace : isSpace m.char = true) :
    Standing r { s.ended r done pending with previous := some m.char } (before ++ [m])
      (done ++ (ended pending ++ [[m]])) [] := by
  refine h.close hl hn rfl ?_
  rw [← List.append_assoc, endsInFunction_blank ⟨m, rfl, hspace⟩]
  rfl

/-- **From wherever the scanner stands it gives what the pieces to come are.** -/
theorem scan_outcome (hr : r.Reached) (source : String) : ∀ (cs : List Char) (position : Nat)
    {s : State} {before : List Mark} {done : List Piece} {pending : Piece},
    Standing r s before done pending →
      Outcome r source (Reckon.cut (pending ++ kept r before s.groups (marks position cs)))
        (position + cs.length) (scan r source s position cs)
  | [], position, s, before, done, pending, h => by
    have hcut : Reckon.cut (pending ++ []) = ended pending ++ [] := by
      simpa using cut_ended h.isRun fun _ => show Stops pending [] by simp [Stops]
    rw [marks, kept, hcut, scan]
    refine h.outcome hr fun ts hts => ?_
    exact ⟨ts, by simpa using hts, rfl⟩
  | c :: cs, position, s, before, done, pending, h => by
    rw [marks, scan_cons, List.length_cons, ← Nat.add_assoc, Nat.add_right_comm]
    generalize hm : (⟨position, c⟩ : Mark) = m
    obtain ⟨rfl, rfl⟩ : m.position = position ∧ m.char = c := by simp [← hm]
    rcases effect_cases r s m.char with he | ⟨hl, hn, he⟩
    · obtain ⟨hcomma, hopen, hclose⟩ := he.ne
      rw [kept_plain hcomma hopen hclose]
      rcases h.runEffect he with ⟨hjoin, hrun⟩ | ⟨hbegin, hne, hstop, hrun⟩
      · have ih := scan_outcome hr source cs (m.position + 1) (h.gather hrun)
        rw [List.append_assoc] at ih
        rw [hjoin]
        exact Outcome.append .nil ih
      · have ih := scan_outcome hr source cs (m.position + 1) (h.begin hstop hrun)
        rw [hbegin, h.cut_stop hstop, Effect.outcome, bind_assoc]
        exact h.outcome hr fun ts hts => Outcome.append hts ih
    · have htoken {k : TokenKind} (hlex : Lexeme r [m.char] k) (hspace : isSpace m.char = false)
          (hkept : kept r before s.groups (m :: marks (m.position + 1) cs) =
            m :: kept r (before ++ [m])
              (groupsAfter s.groups (endsInFunction r (done ++ ended pending)) k)
              (marks (m.position + 1) cs)) :
          Outcome r source
            (Reckon.cut (pending ++ kept r before s.groups (m :: marks (m.position + 1) cs)))
            (m.position + 1 + cs.length)
            ((Effect.token k).outcome r source s m.position m.char >>= fun p =>
              scan r source p.2 (m.position + 1) cs >>= fun rest => pure (p.1 ++ rest)) := by
        have ih := scan_outcome hr source cs (m.position + 1) (h.token k hl hn hspace)
        rw [hkept, h.cut_other hl hn, List.append_assoc, Effect.outcome, bind_assoc]
        refine h.outcome hr fun ts hts => ?_
        rw [← List.append_assoc]
        exact Outcome.append (hts.append (.token hlex .nil)) ih
      generalize effect r s m.char = e at he
      cases he with
      | separator hcomma hgroup =>
        refine htoken (hcomma ▸ .comma) (by rw [hcomma]; decide) ?_
        simp [kept, hcomma, hgroup, groupsAfter]
      | skipped hcomma hgroup =>
        rw [kept, if_pos ⟨hcomma, hgroup⟩]
        exact Outcome.append .nil (scan_outcome hr source cs (m.position + 1) h)
      | leftParen hopen =>
        refine htoken (hopen ▸ .leftParen) (by rw [hopen]; decide) ?_
        simp [kept, hopen, h.cut_before, groupsAfter]
      | rightParen hclose =>
        refine htoken (hclose ▸ .rightParen) (by rw [hclose]; decide) ?_
        simp [kept, hclose, groupsAfter]
      | operator hcomma hopen hclose hop =>
        exact htoken (.operator hop) (hr.not_isSpace hop) (kept_plain hcomma hopen hclose)
      | space hcomma hopen hclose hop hspace =>
        have ih := scan_outcome hr source cs (m.position + 1) (h.space hl hn hspace)
        rw [kept_plain hcomma hopen hclose, h.cut_other hl hn, List.append_assoc, Effect.outcome,
          bind_assoc]
        refine h.outcome hr fun ts hts => ?_
        have hblank : Lexed r [[m]] [] := .blank ⟨m, rfl, hspace⟩ .nil
        have hafter := Outcome.append (hts.append hblank) ih
        rw [List.append_nil, List.append_assoc] at hafter
        exact hafter
      | illegal hcomma hopen hclose hop hspace =>
        rw [kept_plain hcomma hopen hclose, h.cut_other hl hn]
        refine ⟨[m], by simp, .illegal ?_⟩
        rintro (⟨m', hm', hblank⟩ | ⟨k, hk⟩)
        · obtain rfl := (List.cons.inj hm').1
          simp [hspace] at hblank
        · rcases hk.singleton hl hn with hc | hc | hc | hc
          · exact hcomma hc
          · exact hopen hc
          · exact hclose hc
          · simp [hop] at hc

end Scanner

/-- **The scanner is a longest-match lexer.** The characters that are kept are cut into pieces, none
lost and every run the longest. A source that is not too long has tokens exactly if every piece is
well-formed, and they are those of the pieces and one end. Otherwise there is a lexical error, at
the beginning of a piece that is not. -/
theorem tokenize_cut {r : Registry} (hr : r.Reached) {source : String} {limits : Limits}
    (hlength : (source.length : Int) ≤ limits.maxExpressionLength) :
    (pieces r source).flatten = kept r [] [] (marks 0 source.toList) ∧
    (∀ p rest, IsRun p → p.length ≤ (longestRun (p ++ rest)).length) ∧
    ((∃ tokens, tokenize source r limits = .ok tokens) ↔
      ∀ p ∈ pieces r source, p.WellFormed r) ∧
    (∀ tokens, tokenize source r limits = .ok tokens →
      ∃ body, Lexed r (pieces r source) body ∧ tokens = body ++ [Token.finish source.length]) ∧
    (∀ d, tokenize source r limits = .error d → d.kind = .lex ∧
      ∃ p ∈ pieces r source, Faulty r source p d ∧ d.position = some p.start) := by
  have hscan : tokenize source r limits = Scanner.scan r source {} 0 source.toList := by
    have hcheck : limits.checkLength source.length = .ok () := by
      rw [Limits.checkLength, Limits.check, if_neg (by omega)]
    rw [tokenize, hcheck]
    rfl
  have houtcome := Scanner.scan_outcome hr source source.toList 0 Scanner.Standing.initial
  rw [List.nil_append, Nat.zero_add, String.length_toList] at houtcome
  rw [hscan]
  refine ⟨flatten_cut _, fun p rest hp => length_le_longestRun rest hp, ?_⟩
  cases hresult : Scanner.scan r source {} 0 source.toList with
  | ok tokens =>
    rw [hresult] at houtcome
    obtain ⟨body, hbody, rfl⟩ := houtcome
    refine ⟨⟨fun _ => hbody.wellFormed, fun _ => ⟨_, rfl⟩⟩, ?_, by simp⟩
    rintro _ ⟨⟩
    exact ⟨body, hbody, rfl⟩
  | error d =>
    rw [hresult] at houtcome
    obtain ⟨p, hp, hfault⟩ := houtcome
    refine ⟨⟨by simp, fun h => absurd (h p hp) hfault.not_wellFormed⟩, by simp, ?_⟩
    rintro _ ⟨⟩
    refine ⟨?_, p, hp, hfault, ?_⟩ <;> cases hfault <;> rfl

/-- Thousands are merged, arguments are not. -/
theorem tokenize_cut_thousands :
    let source := "1,000+MAX(2,.5)"
    Registry.standard.Reached ∧
      (source.length : Int) ≤ Limits.standard.maxExpressionLength ∧
      ∃ body, Lexed .standard (pieces .standard source) body ∧
        tokenize source .standard .standard = .ok (body ++ [Token.finish source.length]) := by
  have hread : tokenize "1,000+MAX(2,.5)" .standard .standard = .ok [⟨.number, "1000", 0⟩,
      ⟨.operator, "+", 5⟩, ⟨.function, "MAX", 6⟩, ⟨.leftParen, "(", 9⟩, ⟨.number, "2", 10⟩,
      ⟨.comma, ",", 11⟩, ⟨.number, ".5", 12⟩, ⟨.rightParen, ")", 14⟩, ⟨.finish, "", 15⟩] := rfl
  refine ⟨Registry.standard_reached, by decide, ?_⟩
  obtain ⟨body, hbody, htokens⟩ :=
    (tokenize_cut Registry.standard_reached (by decide)).2.2.2.1 _ hread
  exact ⟨body, hbody, by rw [hread, htokens]⟩

end Reckon
