/-
Where the tokens of a text stand. A token begins at its position and has its
characters from the text, and the end stands behind the last character
(`standsIn_of_tokenize`). What the scanner has against a text is a run or a
character, which stands in the text as a token does (`tokenize_eq_error`).

Of the state only the run matters: it stands in the text where the state says
that it begins. Every effect keeps that (`Effect.stands`), skipped commas too,
and a scan is effect after effect.
-/
import Reckon.Proofs.Diagnostic
import Reckon.Proofs.Token.Scan

namespace Reckon

/-- The text begins at a position of the source, and has its characters from there. -/
structure StandsAt (source : String) (position : Int) (text : String) : Prop where
  begins : ∃ i : Nat, position = i ∧ i ≤ source.length ∧ source.toList[i]? = text.toList.head?
  chars : ∀ c ∈ text.toList, c ∈ source.toList

/-- The first character of the text stands at the position of the source. -/
def BeginsAt (source : String) (position : Int) (text : String) : Prop :=
  ∃ (i : Nat) (c : Char), position = i ∧ source.toList[i]? = some c ∧ text.toList.head? = some c

/-- The token stands in the source at its position. -/
def Token.StandsIn (source : String) (t : Token) : Prop := StandsAt source t.position t.value

/-- The diagnostic tells of a problem with the characters of the source, and of a text that stands
at its position. -/
def Diagnostic.Lexical (source : String) (d : Diagnostic) : Prop :=
  d.source = some source ∧ ∃ problem text position, d.cause = .lexical problem ∧
    problem.texts = [text] ∧ d.position = some position ∧ StandsAt source position text

namespace StandsAt

variable {source text : String} {position : Int}

theorem oneLine (h : StandsAt source position text) (hline : OneLine source) : OneLine text :=
  fun c hc => hline c (h.chars c hc)

theorem beginsAt (h : StandsAt source position text) (hne : text ≠ "") :
    BeginsAt source position text := by
  obtain ⟨i, hi, _, hfirst⟩ := h.begins
  obtain ⟨c, cs, hcs⟩ := List.exists_cons_of_ne_nil (mt String.toList_eq_nil_iff.1 hne)
  rw [hcs, List.head?_cons] at hfirst
  exact ⟨i, c, hi, hfirst, by rw [hcs, List.head?_cons]⟩

theorem singleton {i : Nat} {c : Char} (hc : source.toList[i]? = some c) :
    StandsAt source i (String.singleton c) where
  begins := by
    have hlt := (List.getElem?_eq_some_iff.1 hc).1
    rw [String.length_toList] at hlt
    exact ⟨i, rfl, Nat.le_of_lt hlt, by simpa using hc⟩
  chars := by simpa using List.mem_of_getElem? hc

/-- A text that is not empty still stands where it stood with one more character. -/
theorem snoc {cs : List Char} (h : StandsAt source position (String.ofList cs)) (hne : cs ≠ [])
    {c : Char} (hc : c ∈ source.toList) : StandsAt source position (String.ofList (cs ++ [c])) where
  begins := by
    obtain ⟨i, hi, hle, hfirst⟩ := h.begins
    obtain ⟨c', cs, rfl⟩ := List.exists_cons_of_ne_nil hne
    exact ⟨i, hi, hle, by simpa using hfirst⟩
  chars := by
    intro c' hc'
    rw [String.toList_ofList, List.mem_append, List.mem_singleton] at hc'
    rcases hc' with hc' | rfl
    · exact h.chars c' (by rwa [String.toList_ofList])
    · exact hc

/-- The empty text stands at the end. -/
theorem finish (source : String) : StandsAt source source.length "" where
  begins := ⟨source.length, rfl, Nat.le_refl _, by simp [← String.length_toList]⟩
  chars := by simp

end StandsAt

namespace Scanner

variable {r : Registry} {source : String}

/-- The run stands in the source where the state says that it begins. -/
def Held (source : String) (s : State) : Prop :=
  s.run ≠ [] → StandsAt source s.start (String.ofList s.run)

theorem Held.of_nil {s : State} (h : s.run = []) : Held source s := fun hne => absurd h hne

theorem Held.gather {s : State} {position : Nat} {c : Char} (h : Held source s)
    (hc : source.toList[position]? = some c) : Held source (s.gather c position) := by
  intro _
  unfold State.gather
  by_cases hrun : s.run = []
  · simp only [hrun, List.nil_append, List.isEmpty_nil, if_true]
    rw [← String.singleton_eq_ofList]
    exact .singleton hc
  · simpa [hrun] using (h hrun).snoc hrun (List.mem_of_getElem? hc)

/-- Ending the run gives a token that stands in the source, and leaves no run. -/
theorem Flushed.stands {s s' : State} {ts : List Token} (h : Flushed r s ts s')
    (hs : Held source s) : (∀ t ∈ ts, t.StandsIn source) ∧ s'.run = [] := by
  cases h with
  | nothing hrun => exact ⟨by simp, hrun⟩
  | run hrun =>
    refine ⟨fun t ht => ?_, rfl⟩
    obtain rfl := List.mem_singleton.1 ht
    exact hs hrun

theorem lexical_of_flush {s : State} {d : Diagnostic} (hs : Held source s)
    (h : flush r source s = .error d) : d.Lexical source := by
  unfold flush at h
  split at h
  · cases h
  next hrun =>
  have hrun : s.run ≠ [] := by simpa using hrun
  rw [bind_eq_error] at h
  rcases h with h | ⟨_, _, h⟩
  · obtain rfl := (runToken_eq_error h).1
    exact ⟨rfl, _, _, _, rfl, rfl, rfl, hs hrun⟩
  · cases h

/-- **One character.** The tokens that it completes stand in the source, and the run that it leaves;
so does what it is refused for. -/
theorem Effect.stands (e : Effect) {s : State} {position : Nat} {c : Char} (hs : Held source s)
    (hc : source.toList[position]? = some c) :
    (∀ ts s', e.outcome r source s position c = .ok (ts, s') →
      (∀ t ∈ ts, t.StandsIn source) ∧ Held source s') ∧
    ∀ d, e.outcome r source s position c = .error d → d.Lexical source := by
  -- all but the illegal ones fail as the run does, if at all
  have hflush {α : Type} {f : List Token × State → Except Diagnostic α} {d : Diagnostic}
      (hf : ∀ p, f p ≠ .error d) (h : flush r source s >>= f = .error d) : d.Lexical source := by
    rw [bind_eq_error] at h
    rcases h with h | ⟨p, _, h⟩
    · exact lexical_of_flush hs h
    · exact absurd h (hf p)
  cases e with
  | join =>
    refine ⟨fun ts s' h => ?_, fun d h => by cases h⟩
    obtain ⟨rfl, rfl⟩ := Prod.mk.inj (Except.ok.inj h)
    exact ⟨by simp, hs.gather hc⟩
  | skip =>
    refine ⟨fun ts s' h => ?_, fun d h => by cases h⟩
    obtain ⟨rfl, rfl⟩ := Prod.mk.inj (Except.ok.inj h)
    exact ⟨by simp, hs⟩
  | begin =>
    refine ⟨fun ts s' h => ?_, fun d h => hflush (by simp [pure, Except.pure]) h⟩
    simp only [outcome, bind_eq_ok, pure_eq_ok, Prod.exists, Prod.mk.injEq] at h
    obtain ⟨_, s₁, h, rfl, rfl⟩ := h
    obtain ⟨hts, hrun⟩ := (flush_eq_ok.1 h).stands hs
    exact ⟨hts, (Held.of_nil hrun).gather hc⟩
  | space =>
    refine ⟨fun ts s' h => ?_, fun d h => hflush (by simp [pure, Except.pure]) h⟩
    simp only [outcome, bind_eq_ok, pure_eq_ok, Prod.exists, Prod.mk.injEq] at h
    obtain ⟨_, s₁, h, rfl, rfl⟩ := h
    obtain ⟨hts, hrun⟩ := (flush_eq_ok.1 h).stands hs
    exact ⟨hts, .of_nil hrun⟩
  | token k =>
    refine ⟨fun ts s' h => ?_, fun d h => hflush (by simp [pure, Except.pure]) h⟩
    simp only [outcome, bind_eq_ok, pure_eq_ok, Prod.exists, Prod.mk.injEq] at h
    obtain ⟨_, s₁, h, rfl, rfl⟩ := h
    obtain ⟨hts, hrun⟩ := (flush_eq_ok.1 h).stands hs
    refine ⟨fun t ht => ?_, .of_nil hrun⟩
    rw [List.mem_append, List.mem_singleton] at ht
    rcases ht with ht | rfl
    · exact hts t ht
    · exact StandsAt.singleton hc
  | illegal =>
    refine ⟨fun ts s' h => ?_, fun d h => ?_⟩
    · cases h
    · obtain rfl := Except.error.inj h
      exact ⟨rfl, _, _, _, rfl, rfl, rfl, StandsAt.singleton hc⟩

/-- **A scan.** All tokens stand in the source, or what is refused does. -/
theorem scan_stands : ∀ {cs : List Char} {s : State} (before : List Char), Held source s →
    source.toList = before ++ cs →
    (∀ ts, scan r source s before.length cs = .ok ts → ∀ t ∈ ts, t.StandsIn source) ∧
      ∀ d, scan r source s before.length cs = .error d → d.Lexical source
  | [], s, before, hs, hsource => by
    have hend : before.length = source.length := by
      rw [← String.length_toList, hsource, List.append_nil]
    constructor
    · intro ts h
      simp only [scan, bind_eq_ok, pure_eq_ok, Prod.exists] at h
      obtain ⟨_, _, hflush, rfl⟩ := h
      obtain ⟨hts, _⟩ := (flush_eq_ok.1 hflush).stands hs
      intro t ht
      rw [List.mem_append, List.mem_singleton] at ht
      rcases ht with ht | rfl
      · exact hts t ht
      · exact hend ▸ StandsAt.finish source
    · intro d h
      rw [scan, bind_eq_error] at h
      rcases h with h | ⟨_, _, h⟩
      · exact lexical_of_flush hs h
      · cases h
  | c :: cs, s, before, hs, hsource => by
    have hc : source.toList[before.length]? = some c := by simp [hsource]
    obtain ⟨hok, herror⟩ := (effect r s c).stands hs hc
    have hnext {s' : State} (hs' : Held source s') :=
      scan_stands (before ++ [c]) hs' (by simpa using hsource)
    simp only [List.length_append, List.length_singleton] at hnext
    constructor
    · intro ts h
      obtain ⟨ts₁, s', ts₂, hstep, hrest, rfl⟩ := scan_cons_eq_ok.1 h
      obtain ⟨hts, hs'⟩ := hok ts₁ s' hstep
      intro t ht
      exact (List.mem_append.1 ht).elim (hts t) ((hnext hs').1 ts₂ hrest t)
    · intro d h
      rw [scan_cons, bind_eq_error] at h
      rcases h with h | ⟨⟨ts₁, s'⟩, hstep, h⟩
      · exact herror d h
      rw [bind_eq_error] at h
      rcases h with h | ⟨_, _, h⟩
      · exact (hnext (hok ts₁ s' hstep).2).2 d h
      · cases h

end Scanner

variable {source : String} {r : Registry} {limits : Limits}

/-- **Every token stands in the text**, and the end behind its last character. -/
theorem standsIn_of_tokenize {tokens : List Token} (h : tokenize source r limits = .ok tokens) :
    ∀ t ∈ tokens, t.StandsIn source := by
  rw [tokenize, bind_eq_ok] at h
  obtain ⟨_, _, hscan⟩ := h
  exact (Scanner.scan_stands [] (.of_nil rfl) rfl).1 tokens hscan

/-- A text is too long, or what the scanner has against it stands in it. -/
theorem tokenize_eq_error {d : Diagnostic} (h : tokenize source r limits = .error d) :
    (∃ limit bound actual, d = { cause := .limitExceeded limit bound actual }) ∨
      d.Lexical source := by
  rw [tokenize, bind_eq_error] at h
  rcases h with h | ⟨_, _, hscan⟩
  · exact .inl ⟨_, _, _, Limits.check_eq_error h⟩
  · exact .inr ((Scanner.scan_stands [] (.of_nil rfl) rfl).2 d hscan)

end Reckon
