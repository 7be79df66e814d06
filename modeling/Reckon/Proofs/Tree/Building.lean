/-
No builder refuses an expression whose operations all take as many operands as
they have: its nodes can be added to any builder, whatever is in there already
(`Builder.addExpr_of_accepted`), and it can be made a tree
(`Tree.exists_ofExpr`).

What is added leaves the older nodes alone and has no parent at its top, so the
tops of operands wait for their operation untouched.
-/
import Reckon.Proofs.Tree.Depth

namespace Reckon

namespace Expr

mutual

/-- The predicate holds of every operation and the count of its operands. -/
def Operations (P : Operation → Nat → Prop) : Expr → Prop
  | number _ _ | var _ _ => True
  | apply o operands _ => OperationsAll P operands ∧ P o operands.length
termination_by structural e => e

def OperationsAll (P : Operation → Nat → Prop) : List Expr → Prop
  | [] => True
  | e :: es => Operations P e ∧ OperationsAll P es
termination_by structural es => es

end

/-- Every operation takes as many operands as it has. -/
def Accepted (e : Expr) : Prop :=
  e.Operations fun o count => o.accepts count = true

def AcceptedAll (es : List Expr) : Prop :=
  OperationsAll (fun o count => o.accepts count = true) es

@[simp] theorem length_tops : ∀ (es : List Expr) (base : Nat), (tops base es).length = es.length
  | [], _ => rfl
  | e :: es, base => by simp [tops, length_tops es]

/-- Tops stand among the cells of their expressions. -/
theorem mem_tops : ∀ {es : List Expr} {base i : Nat}, i ∈ tops base es →
    base ≤ i ∧ i < base + sizeAll es
  | [], _, _, h => by cases h
  | e :: es, base, i, h => by
    have hpos := e.size_pos
    rw [sizeAll]
    rcases List.mem_cons.1 h with rfl | h
    · unfold top
      omega
    · have := mem_tops h
      omega

theorem nodup_tops : ∀ (es : List Expr) (base : Nat), (tops base es).Nodup
  | [], _ => List.nodup_nil
  | e :: es, base => by
    refine List.nodup_cons.2 ⟨fun h => ?_, nodup_tops es _⟩
    have hpos := e.size_pos
    have := (mem_tops h).1
    unfold top at this
    omega

mutual

/-- All cells of an expression are below its top. -/
theorem below_cells {table : List Cell} {base : Nat} :
    ∀ (e : Expr) (before after : List Cell), table = before ++ (e.cells base ++ after) →
      before.length = base → ∀ k, base ≤ k → k < base + e.size → Below table (e.top base) k
  | number _ _, _, _, _, _, k, hle, hlt | var _ _, _, _, _, _, k, hle, hlt => by
    obtain rfl : k = base := by
      simp only [size] at hlt
      omega
    exact .refl
  | apply o operands position, before, after, ht, hb, k, hle, hlt => by
    simp only [cells, List.append_assoc] at ht
    have htop : table[base + sizeAll operands]? =
        some ⟨.operation o, tops base operands, position⟩ := by
      simp [ht, hb]
    rw [show (apply o operands position).top base = base + sizeAll operands by simp [top, size]]
    by_cases hlast : k = base + sizeAll operands
    · exact hlast ▸ .refl
    · rw [size] at hlt
      obtain ⟨child, hmem, hk⟩ := below_cellsAll operands before _ ht hb k hle (by omega)
      exact .child htop hmem hk

theorem below_cellsAll {table : List Cell} {base : Nat} :
    ∀ (es : List Expr) (before after : List Cell),
      table = before ++ (cellsAll base es ++ after) → before.length = base →
      ∀ k, base ≤ k → k < base + sizeAll es → ∃ child ∈ tops base es, Below table child k
  | [], _, _, _, _, k, hle, hlt => by
    simp only [sizeAll] at hlt
    omega
  | e :: es, before, after, ht, hb, k, hle, hlt => by
    simp only [cellsAll, List.append_assoc] at ht
    have hrest : table = (before ++ e.cells base) ++ (cellsAll (base + e.size) es ++ after) := by
      simp [ht]
    rw [sizeAll] at hlt
    by_cases hk : k < base + e.size
    · exact ⟨_, List.mem_cons_self, below_cells e before _ ht hb k hle hk⟩
    · obtain ⟨child, hmem, hbelow⟩ := below_cellsAll es _ after hrest (by simp [hb]) k (by omega)
        (by omega)
      exact ⟨child, List.mem_cons_of_mem _ hmem, hbelow⟩

end

end Expr

namespace Builder

/-! ## Adding -/

/-- The older nodes are as they were. -/
def Keeps (b b' : Builder) : Prop :=
  b.slots.size ≤ b'.slots.size ∧ ∀ i < b.slots.size, b'.slots[i]? = b.slots[i]?

theorem Keeps.trans {b b' b'' : Builder} (h : Keeps b b') (h' : Keeps b' b'') : Keeps b b'' :=
  ⟨Nat.le_trans h.1 h'.1, fun i hi => (h'.2 i (Nat.lt_of_lt_of_le hi h.1)).trans (h.2 i hi)⟩

theorem Keeps.parentAt {b b' : Builder} (h : Keeps b b') {i : Nat} (hi : i < b.slots.size) :
    Builder.parentAt b'.slots i = Builder.parentAt b.slots i := by
  rw [Builder.parentAt, h.2 i hi, Builder.parentAt]

theorem checkChildren_of_free {b : Builder} : ∀ {children : List Nat},
    (∀ child ∈ children, child < b.slots.size ∧ parentAt b.slots child = none) →
      b.checkChildren (children.map Int.ofNat) = .ok ()
  | [], _ => rfl
  | child :: rest, h => by
    obtain ⟨hlt, hparent⟩ := h child List.mem_cons_self
    have hslot : b.slot? (Int.ofNat child) = some b.slots[child] := by
      simp [slot?, hlt]
    have hnone : (b.slots[child]).parent = none := by
      simpa [parentAt, hlt] using hparent
    rw [List.map_cons, checkChildren, hslot]
    simp only [hnone, Option.isSome_none, Bool.false_eq_true, if_false]
    exact checkChildren_of_free fun c hc => h c (List.mem_cons_of_mem _ hc)

/-- An operation is not refused over children that wait for it. It waits for its own parent, and
nodes other than its children are as they were. -/
theorem addOperation_of_free {b : Builder} {o : Operation} {children : List Nat} (position : Int)
    (haccepts : o.accepts children.length = true) (hnodup : children.Nodup)
    (hfree : ∀ child ∈ children, child < b.slots.size ∧ parentAt b.slots child = none) :
    ∃ b', b.addOperation o (children.map Int.ofNat) position = .ok (b.size, b') ∧
      b.slots.size ≤ b'.slots.size ∧ parentAt b'.slots b.size = none ∧
      ∀ i < b.slots.size, i ∉ children → b'.slots[i]? = b.slots[i]? := by
  have hnodup' : (children.map Int.ofNat).Nodup :=
    hnodup.map_on fun a _ a' _ heq => Int.ofNat.inj heq
  have htoNat : (children.map Int.ofNat).map Int.toNat = children := by
    simp [Function.comp_def]
  have hself : b.size ∉ children := fun hmem => Nat.lt_irrefl _ (hfree _ hmem).1
  let s : Slot := { item := .operation o, children, position }
  refine ⟨{ slots := adopt (b.slots.push s) b.size children }, ?_, ?_, ?_, ?_⟩
  · rw [addOperation]
    simp only [List.length_map, haccepts, hnodup', checkChildren_of_free hfree, htoNat, s,
      Bool.not_true, decide_true, Bool.false_eq_true, if_false]
    rfl
  · simp
  · rw [parentAt_adopt_push rfl fun child hchild => (hfree child hchild).1, if_neg hself]
    exact parentAt_of_le (Nat.le_refl _)
  · intro i hi hmem
    rw [getElem?_adopt, if_neg hmem, Array.getElem?_push, if_neg (Nat.ne_of_lt hi)]

mutual

/-- **An accepted expression can be added to any builder.** -/
theorem addExpr_of_accepted : ∀ {e : Expr} (b : Builder), e.Accepted → ∃ b',
    b.addExpr e = .ok (e.top b.size, b') ∧ Keeps b b' ∧ parentAt b'.slots (e.top b.size) = none
  | .number _ _, b, _ | .var _ _, b, _ => by
    refine ⟨_, rfl, ⟨?_, fun i hi => ?_⟩, ?_⟩
    · simp
    · simp [Array.getElem?_push, Nat.ne_of_lt hi]
    · simp [parentAt, Expr.top, Expr.size, size]
  | .apply o operands position, b, h => by
    obtain ⟨b₁, hadd, hkeeps, hfree⟩ := addExprs_of_accepted b h.1
    have hsize : b₁.size = b.size + Expr.sizeAll operands := by
      rw [← length_cells b₁, (addExprs_eq_ok hadd).2]
      simp
    have hlt : ∀ child ∈ Expr.tops b.size operands, child < b₁.slots.size := fun child hchild =>
      Nat.lt_of_lt_of_eq (Expr.mem_tops hchild).2 hsize.symm
    obtain ⟨b₂, hop, hle, htop, hother⟩ := addOperation_of_free (b := b₁) (o := o) position
      (by simpa using h.2) (Expr.nodup_tops operands b.size)
      fun child hchild => ⟨hlt child hchild, hfree child hchild⟩
    have hindex : (Expr.apply o operands position).top b.size = b₁.size := by
      rw [hsize, Expr.top, Expr.size]
      omega
    refine ⟨b₂, ?_, ⟨Nat.le_trans hkeeps.1 hle, fun i hi => ?_⟩, hindex ▸ htop⟩
    · rw [addExpr, hadd, hindex]
      exact hop
    · -- the children are all newer than the index
      have hnew : i ∉ Expr.tops b.size operands := fun hmem =>
        Nat.not_lt.2 (Expr.mem_tops hmem).1 hi
      rw [hother i (Nat.lt_of_lt_of_le hi hkeeps.1) hnew, hkeeps.2 i hi]

theorem addExprs_of_accepted : ∀ {es : List Expr} (b : Builder), Expr.AcceptedAll es → ∃ b',
    b.addExprs es = .ok (Expr.tops b.size es, b') ∧ Keeps b b' ∧
      ∀ i ∈ Expr.tops b.size es, parentAt b'.slots i = none
  | [], b, _ => ⟨b, rfl, ⟨Nat.le_refl _, fun _ _ => rfl⟩, by simp [Expr.tops]⟩
  | e :: es, b, h => by
    obtain ⟨b₁, hfirst, hkeeps, htop⟩ := addExpr_of_accepted b h.1
    obtain ⟨b₂, hothers, hkeeps', htops⟩ := addExprs_of_accepted b₁ h.2
    have hsize : b₁.size = b.size + e.size := by
      rw [← length_cells b₁, (addExpr_eq_ok hfirst).2]
      simp
    rw [hsize] at hothers htops
    refine ⟨b₂, ?_, hkeeps.trans hkeeps', fun i hi => ?_⟩
    · simp [addExprs, hfirst, hothers, Expr.tops, bind, Except.bind, pure, Except.pure]
    · rcases List.mem_cons.1 hi with rfl | hi
      · have hlt : e.top b.size < b₁.slots.size := by
          have := e.size_pos
          have : b₁.slots.size = b.size + e.size := hsize
          unfold Expr.top
          omega
        rw [hkeeps'.parentAt hlt, htop]
      · exact htops i hi

end

/-! ## Building -/

/-- Where depths have been handed down every node below one that has a depth has one. -/
theorem HandedDown.exists_of_below {b : Builder} {root : Nat} {depths : Array (Option Nat)}
    (h : HandedDown b.slots root 0 depths) {i k : Nat} (hbelow : Below b.cells i k) :
    (∃ d, depths[i]? = some (some d)) → ∃ d, depths[k]? = some (some d) := by
  induction hbelow with
  | refl => exact id
  | @child i c child k hcell hmem _ ih =>
    rintro ⟨d, hd⟩
    rw [getElem?_cells, Option.map_eq_some_iff] at hcell
    obtain ⟨s, hs, rfl⟩ := hcell
    exact ih ⟨d + 1, h.child i child d (Nat.zero_le i) (mem_childrenAt.2 ⟨s, hs, hmem⟩) hd⟩

/-- A root without a parent that all nodes are below is not refused. -/
theorem Reached.exists_build {b : Builder} (hb : b.Reached) {root : Nat} (source : Option String)
    (hlt : root < b.slots.size) (hparent : parentAt b.slots root = none)
    (hbelow : ∀ k < b.slots.size, Below b.cells root k) : ∃ t, b.build root source = .ok t := by
  have hdown := Builder.handedDown hb.linked hb.child_lt hparent hlt
  have htotal : (depthsFrom b.slots root).any Option.isNone = false := by
    rw [← Bool.not_eq_true, Array.any_eq_true]
    rintro ⟨k, hk, hnone⟩
    obtain ⟨d, hd⟩ := hdown.exists_of_below (hbelow k (hdown.size ▸ hk)) ⟨1, hdown.root⟩
    rw [Array.getElem?_eq_getElem hk, Option.some.injEq] at hd
    simp [hd] at hnone
  have hslot : b.slot? root = some b.slots[root] := by simp [slot?, hlt]
  have hnone : (b.slots[root]).parent = none := by simpa [parentAt, hlt] using hparent
  rw [build, hslot]
  simp [hnone, htotal]

end Builder

/-- **An accepted expression can be made a tree.** -/
theorem Tree.exists_ofExpr {e : Expr} (h : e.Accepted) (source : Option String) :
    ∃ t, Tree.ofExpr e source = .ok t := by
  obtain ⟨b, hadd, _, htop⟩ := Builder.addExpr_of_accepted {} h
  have hcells : b.cells = e.cells 0 := (Builder.addExpr_eq_ok hadd).2
  have hsize : b.slots.size = e.size := by
    have := congrArg List.length hcells
    simpa [Builder.size] using this
  have hpos := e.size_pos
  have hroot : e.top (Builder.size {}) = e.top 0 := rfl
  rw [hroot] at hadd htop
  obtain ⟨t, ht⟩ := (Builder.Reached.empty.addExpr e hadd).exists_build source
    (by unfold Expr.top; omega) htop fun k hk =>
      Expr.below_cells e [] [] (by simpa using hcells) rfl k (Nat.zero_le k) (by omega)
  exact ⟨t, by simpa [ofExpr, hadd, bind, Except.bind] using ht⟩

end Reckon
