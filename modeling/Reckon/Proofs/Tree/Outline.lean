/-
The outline of a tree tells the tree (`parseText_outline`). A line tells the depth
of its node, by the spaces in front, and the item, since a registry has no two
operations of one name and negation is no operator of a registry
(`Item.eq_of_label`); and the depths and items of an expression in pre-order
tell where its operands begin and end, since what comes behind them is no deeper
than their operation (`Expr.entriesAll_like`).
-/
import Reckon.Proofs.Evaluation.Forms
import Reckon.Proofs.Registry.Calls
import Reckon.Proofs.Tree.Position
import Reckon.Proofs.Tree.Preorder

namespace Reckon

/-! ## Expressions -/

namespace Expr

mutual

/-- The depths and items of an expression in pre-order, the top of it at a depth. -/
def entries (depth : Nat) : Expr → List (Nat × Item)
  | number value _ => [(depth, .number value)]
  | var name _ => [(depth, .var name)]
  | apply o operands _ => (depth, .operation o) :: entriesAll (depth + 1) operands
termination_by structural e => e

def entriesAll (depth : Nat) : List Expr → List (Nat × Item)
  | [] => []
  | e :: es => entries depth e ++ entriesAll depth es
termination_by structural es => es

end

/-- What follows begins above the depth, if there is anything. -/
def Surfaces (depth : Nat) (rest : List (Nat × Item)) : Prop :=
  ∀ entry ∈ rest.head?, entry.1 < depth

theorem surfaces_nil (depth : Nat) : Surfaces depth [] := by simp [Surfaces]

theorem Surfaces.succ {depth : Nat} {rest : List (Nat × Item)} (h : Surfaces depth rest) :
    Surfaces (depth + 1) rest := fun entry hentry => Nat.lt_succ_of_lt (h entry hentry)

theorem head?_entries (e : Expr) (depth : Nat) (rest : List (Nat × Item)) :
    ∃ item, (e.entries depth ++ rest).head? = some (depth, item) := by
  cases e <;> exact ⟨_, rfl⟩

theorem not_surfaces_entries (e : Expr) (depth : Nat) (rest : List (Nat × Item)) :
    ¬Surfaces depth (e.entries depth ++ rest) := by
  obtain ⟨item, hhead⟩ := e.head?_entries depth rest
  exact fun h => Nat.lt_irrefl depth (h _ hhead)

theorem Surfaces.entriesAll {depth : Nat} {rest : List (Nat × Item)} (h : Surfaces depth rest)
    (es : List Expr) : Surfaces (depth + 1) (entriesAll depth es ++ rest) := by
  cases es with
  | nil => exact h.succ
  | cons e es =>
    obtain ⟨item, hhead⟩ := e.head?_entries depth (Expr.entriesAll depth es ++ rest)
    rw [Expr.entriesAll, List.append_assoc]
    intro entry hentry
    obtain rfl := Option.some.inj (hhead.symm.trans hentry)
    exact Nat.lt_succ_self depth

mutual

/-- Expressions of the same entries are the same but for positions, if what follows them begins no
deeper than they do. -/
theorem entries_like : ∀ (e e' : Expr) {depth : Nat} {rest rest' : List (Nat × Item)},
    Surfaces (depth + 1) rest → Surfaces (depth + 1) rest' →
      e.entries depth ++ rest = e'.entries depth ++ rest' →
        Likeness.unplaced.ExprLike e e' ∧ rest = rest'
  | number _ _, e', _, _, _, _, _, h => by
    cases e' with
    | number =>
      simp only [entries, List.singleton_append, List.cons.injEq, Prod.mk.injEq,
        Item.number.injEq, true_and] at h
      exact ⟨h.1 ▸ .number trivial, h.2⟩
    | var | apply => simp [entries] at h
  | var _ _, e', _, _, _, _, _, h => by
    cases e' with
    | var =>
      simp only [entries, List.singleton_append, List.cons.injEq, Prod.mk.injEq, Item.var.injEq,
        true_and] at h
      exact ⟨h.1 ▸ .var trivial, h.2⟩
    | number | apply => simp [entries] at h
  | apply o es _, e', _, _, _, hrest, hrest', h => by
    cases e' with
    | apply o' es' =>
      simp only [entries, List.cons_append, List.cons.injEq, Prod.mk.injEq, Item.operation.injEq,
        true_and] at h
      obtain ⟨ho, h⟩ := h
      obtain ⟨hes, hrests⟩ := entriesAll_like es es' hrest hrest' h
      exact ⟨.apply ho hes trivial, hrests⟩
    | number | var => simp [entries] at h

theorem entriesAll_like : ∀ (es es' : List Expr) {depth : Nat} {rest rest' : List (Nat × Item)},
    Surfaces depth rest → Surfaces depth rest' →
      entriesAll depth es ++ rest = entriesAll depth es' ++ rest' →
        Likeness.unplaced.ExprsLike es es' ∧ rest = rest'
  | [], [], _, _, _, _, _, h => ⟨.nil, h⟩
  | [], e' :: es', depth, _, rest', hrest, _, h => by
    rw [entriesAll, entriesAll, List.append_assoc, List.nil_append] at h
    exact absurd (h ▸ hrest) (e'.not_surfaces_entries depth _)
  | e :: es, [], depth, rest, _, _, hrest', h => by
    rw [entriesAll, entriesAll, List.append_assoc, List.nil_append] at h
    exact absurd (h ▸ hrest') (e.not_surfaces_entries depth _)
  | e :: es, e' :: es', _, _, _, hrest, hrest', h => by
    rw [entriesAll, entriesAll, List.append_assoc, List.append_assoc] at h
    obtain ⟨he, h⟩ := entries_like e e' (hrest.entriesAll es) (hrest'.entriesAll es') h
    obtain ⟨hes, hrests⟩ := entriesAll_like es es' hrest hrest' h
    exact ⟨.cons he hes, hrests⟩

end

end Expr

/-! ## Tables -/

/-- What the line of a node tells. -/
def Node.entry (n : Node) : Nat × Item := (n.depth, n.item)

namespace Tree.Rooted

variable {t : Tree}

theorem depth_pos (ht : t.Rooted) {n : Node} (hn : n ∈ t.nodes.toList) : 0 < n.depth := by
  obtain ⟨i, hn⟩ := List.mem_iff_getElem?.1 hn
  rw [Array.getElem?_toList] at hn
  by_cases hroot : i = t.root
  · subst hroot
    rw [ht.depth_root n hn]
    exact Nat.one_pos
  · obtain ⟨p, m, hparent, hm, _⟩ := ht.listed i n hn hroot
    rw [ht.depth_child i p n m hn hparent hm]
    exact Nat.succ_pos m.depth

/-- Children are one deeper than their parent. -/
theorem depth_of_mem (ht : t.Rooted) {p i : Nat} {n m : Node} (hn : t.nodes[p]? = some n)
    (hmem : i ∈ n.children) (hm : t.nodes[i]? = some m) : m.depth = n.depth + 1 := by
  obtain ⟨q, l, hparent, hl, hcount, _⟩ :=
    ht.listed i m hm (Nat.ne_of_lt (ht.lt_root_of_mem hn hmem))
  obtain rfl := ht.eq_of_mem hn hmem hl (List.count_pos_iff.1 (by omega))
  exact ht.depth_child i p m n hm hparent hn

mutual

/-- The nodes from an index down tell the expression that it shows. -/
theorem map_entry_preorder (ht : t.Rooted) : ∀ {e : Expr} {i : Nat} {n : Node},
    Reckon.Shows t.cells i e → t.nodes[i]? = some n →
      (t.preorder i).map Node.entry = e.entries n.depth
  | .number _ _, _, n, he, hn | .var _ _, _, n, he, hn => by
    obtain ⟨hitem, hchildren, _⟩ := Cell.mk.inj (cell_eq hn he)
    rw [ht.preorder_eq hn, hchildren]
    simp [Node.entry, hitem, Expr.entries]
  | .apply o operands _, i, n, ⟨children, hcell, hall⟩, hn => by
    obtain ⟨hitem, rfl, _⟩ := Cell.mk.inj (cell_eq hn hcell)
    have hdepth (child : Nat) (hchild : child ∈ n.children) :
        ∃ m, t.nodes[child]? = some m ∧ m.depth = n.depth + 1 := by
      obtain ⟨m, hm⟩ := ht.exists_node (Nat.le_of_lt (ht.lt_root_of_mem hn hchild))
      exact ⟨m, hm, ht.depth_of_mem hn hchild hm⟩
    rw [ht.preorder_eq hn, List.map_cons, Expr.entries, ht.map_entry_preorderAll hall hdepth,
      Node.entry, hitem]

theorem map_entry_preorderAll (ht : t.Rooted) : ∀ {es : List Expr} {children : List Nat}
    {depth : Nat}, ShowsAll t.cells children es →
      (∀ child ∈ children, ∃ m, t.nodes[child]? = some m ∧ m.depth = depth) →
        (children.flatMap t.preorder).map Node.entry = Expr.entriesAll depth es
  | [], children, _, h, _ => by
    obtain rfl : children = [] := h
    rfl
  | e :: es, _, depth, ⟨i, rest, hcons, he, hes⟩, hdepth => by
    subst hcons
    obtain ⟨m, hm, rfl⟩ := hdepth i List.mem_cons_self
    rw [List.flatMap_cons, List.map_append, Expr.entriesAll, ht.map_entry_preorder he hm,
      ht.map_entry_preorderAll hes fun child hchild => hdepth child (List.mem_cons_of_mem _ hchild)]

end

theorem mem_walk_iff (ht : t.Rooted) {n : Node} : n ∈ t.walk ↔ n ∈ t.nodes.toList := by
  rw [ht.walk_eq_preorder, ht.preorder_perm.mem_iff]

theorem walk_ne_nil (ht : t.Rooted) : t.walk ≠ [] := by
  obtain ⟨n, hn⟩ := ht.exists_node (Nat.le_refl t.root)
  exact List.ne_nil_of_mem (ht.mem_walk_iff.2 (mem_of_getElem? hn))

/-- The nodes in pre-order tell the expression of the tree. -/
theorem map_entry_walk (ht : t.Rooted) {e : Expr} (he : t.Shows e) :
    t.walk.map Node.entry = e.entries 1 := by
  obtain ⟨n, hn⟩ := ht.exists_node (Nat.le_refl t.root)
  rw [ht.walk_eq_preorder, ht.map_entry_preorder he hn, ht.depth_root n hn]

end Tree.Rooted

/-! ## Labels -/

namespace Item

/-- What the label of an item begins with. -/
def heading : Item → String
  | .number _ => "Number: "
  | .var _ => "Variable: "
  | .operation o =>
    if o.isFunction then "Function: " else if o.isUnary then "Negate: " else "Operator: "

/-- What stands behind the heading. -/
def content (number : Float → String) : Item → String
  | .number value => number value
  | .var name => name
  | .operation o => o.name

theorem label_eq (number : Float → String) (item : Item) :
    item.label number = item.heading ++ item.content number := by
  cases item with
  | number | var => simp [label, heading, content, toString]
  | operation o =>
    simp only [label, heading, content]
    split
    · simp [toString]
    · split <;> simp [toString]

def headings : List String := ["Number: ", "Variable: ", "Function: ", "Negate: ", "Operator: "]

theorem heading_mem (item : Item) : item.heading ∈ headings := by
  cases item with
  | number | var => simp [heading, headings]
  | operation o =>
    rw [heading]
    split
    · decide
    · split <;> decide

/-- No heading begins with another. -/
theorem headings_apart : ∀ a ∈ headings, ∀ b ∈ headings,
    a.toList.isPrefixOf b.toList = true → a = b := by
  decide +kernel

/-- A label tells the heading and what stands behind it. -/
theorem heading_eq_of_label {number : Float → String} {item item' : Item}
    (h : item.label number = item'.label number) :
    item.heading = item'.heading ∧ item.content number = item'.content number := by
  rw [label_eq, label_eq] at h
  have hlist := congrArg String.toList h
  rw [String.toList_append, String.toList_append] at hlist
  have hheading : item.heading = item'.heading := by
    rcases List.append_eq_append_iff.1 hlist with ⟨more, hmore, _⟩ | ⟨more, hmore, _⟩
    · exact headings_apart _ item.heading_mem _ item'.heading_mem (by simp [hmore])
    · exact (headings_apart _ item'.heading_mem _ item.heading_mem (by simp [hmore])).symm
  rw [hheading] at hlist
  exact ⟨hheading, String.toList_inj.1 (List.append_cancel_left hlist)⟩

theorem heading_operation (o : Operation) :
    heading (.operation o) ∈ ["Function: ", "Negate: ", "Operator: "] := by
  rw [heading]
  split
  · decide
  · split <;> decide

end Item

/-- Operators of a registry are not unary, so their headings are not that of negation. -/
theorem Operation.Declared.heading_ne {o : Operation} (h : o.Declared) :
    Item.heading (.operation o) ≠ Item.heading (.operation .negation) := by
  cases h with
  | function hf => simp [Item.heading, hf, Operation.negation, Operation.isUnary]
  | operator hf _ _ _ _ hmax =>
    simp [Item.heading, hf, hmax, Operation.negation, Operation.isUnary]

/-- The operation is negation or registered. -/
def Registry.Knows (r : Registry) (o : Operation) : Prop := o = .negation ∨ o ∈ r.operations

/-- The heading and the name of an operation tell it. -/
theorem Registry.Knows.eq_of_heading {r : Registry} (hr : r.Reached) {o o' : Operation}
    (h : r.Knows o) (h' : r.Knows o')
    (hheading : Item.heading (.operation o) = Item.heading (.operation o'))
    (hname : o.name = o'.name) : o = o' := by
  rcases h with rfl | h <;> rcases h' with rfl | h'
  · rfl
  · exact absurd hheading.symm (hr.declared o' h').heading_ne
  · exact absurd hheading (hr.declared o h).heading_ne
  · have ho := (Registry.get?_eq_some_iff hr.nodup).2 ⟨h, hname⟩
    have ho' := (Registry.get?_eq_some_iff hr.nodup).2 ⟨h', rfl⟩
    exact Option.some.inj (ho.symm.trans ho')

/-- A label tells the item. -/
theorem Item.eq_of_label {r : Registry} (hr : r.Reached) {number : Float → String}
    {item item' : Item} (hknown : ∀ o, item = .operation o → r.Knows o)
    (hknown' : ∀ o, item' = .operation o → r.Knows o)
    (hnumber : ∀ x y, item = .number x → item' = .number y → number x = number y → x = y)
    (h : item.label number = item'.label number) : item = item' := by
  obtain ⟨hheading, hcontent⟩ := heading_eq_of_label h
  have hmixed (o : Operation) : heading (.operation o) ≠ "Number: " ∧
      heading (.operation o) ≠ "Variable: " := by
    have hmem := heading_operation o
    constructor <;> intro heq <;> rw [heq] at hmem <;> revert hmem <;> decide
  cases item with
  | number x =>
    cases item' with
    | number y => rw [hnumber x y rfl rfl hcontent]
    | var => exact absurd hheading (by simp [heading])
    | operation o => exact absurd hheading.symm (hmixed o).1
  | var name =>
    cases item' with
    | number => exact absurd hheading (by simp [heading])
    | var => exact congrArg Item.var hcontent
    | operation o => exact absurd hheading.symm (hmixed o).2
  | operation o =>
    cases item' with
    | number => exact absurd hheading (hmixed o).1
    | var => exact absurd hheading (hmixed o).2
    | operation o' =>
      rw [(hknown o rfl).eq_of_heading hr (hknown' o' rfl) hheading hcontent]

/-! ## Lines -/

/-- The spaces in front of something else tell how many they are. -/
theorem spaces_append_inj : ∀ {m n : Nat} {cs cs' : List Char}, cs.head? ≠ some ' ' →
    cs'.head? ≠ some ' ' →
      List.replicate m ' ' ++ cs = List.replicate n ' ' ++ cs' → m = n ∧ cs = cs'
  | 0, 0, _, _, _, _, h => ⟨rfl, h⟩
  | 0, _ + 1, _, _, hcs, _, h => absurd (congrArg List.head? h) hcs
  | _ + 1, 0, _, _, _, hcs', h => absurd (congrArg List.head? h).symm hcs'
  | _ + 1, _ + 1, _, _, hcs, hcs', h => by
    obtain ⟨hmn, heq⟩ := spaces_append_inj hcs hcs' (List.cons.inj h).2
    exact ⟨congrArg (· + 1) hmn, heq⟩

theorem Item.head?_label (number : Float → String) (item : Item) :
    (item.label number).toList.head? ≠ some ' ' := by
  have hheadings : ∀ a ∈ headings, ∀ cs, (a.toList ++ cs).head? ≠ some ' ' := by
    simp [headings]
  rw [label_eq, String.toList_append]
  exact hheadings _ item.heading_mem _

namespace Node

variable {number : Float → String} {n n' : Node}

/-- A line tells the depth and the label. -/
theorem label_eq_of_outlineLine (hpos : 0 < n.depth) (hpos' : 0 < n'.depth)
    (h : n.outlineLine number = n'.outlineLine number) :
    n.depth = n'.depth ∧ n.item.label number = n'.item.label number := by
  have hlist := congrArg String.toList h
  simp only [outlineLine, String.toList_append, String.toList_ofList] at hlist
  obtain ⟨hspaces, hlabel⟩ :=
    spaces_append_inj (n.item.head?_label number) (n'.item.head?_label number) hlist
  exact ⟨by omega, String.toList_inj.1 hlabel⟩

theorem newline_not_mem_outlineLine (h : '\n' ∉ (n.item.content number).toList) :
    '\n' ∉ (n.outlineLine number).toList := by
  have hheading : '\n' ∉ n.item.heading.toList :=
    (by decide : ∀ a ∈ Item.headings, '\n' ∉ a.toList) _ n.item.heading_mem
  rw [outlineLine, Item.label_eq]
  simp [hheading, h]

end Node

/-- Lines without breaks can be told from their text. -/
theorem lines_eq_of_intercalate {ls ls' : List String} (hne : ls ≠ []) (hne' : ls' ≠ [])
    (hls : ∀ l ∈ ls, '\n' ∉ l.toList) (hls' : ∀ l ∈ ls', '\n' ∉ l.toList)
    (h : "\n".intercalate ls = "\n".intercalate ls') : ls = ls' := by
  have hsplit {ls : List String} (hne : ls ≠ []) (hls : ∀ l ∈ ls, '\n' ∉ l.toList) :
      ("\n".intercalate ls).toList.splitOn '\n' = ls.map String.toList := by
    rw [String.toList_intercalate]
    exact List.splitOn_intercalate '\n' (by simpa using hls) (by simpa using hne)
  have heq := congrArg (List.splitOn '\n' ·.toList) h
  rw [hsplit hne hls, hsplit hne' hls'] at heq
  exact List.map_injective_iff.2 (fun _ _ => String.toList_inj.1) heq

/-! ## Trees of texts -/

/-- What is told by one function of members is told by another if that one tells it. -/
theorem map_eq_of_map_eq {α β γ : Type} {f : α → β} {g : α → γ} : ∀ {as bs : List α},
    (∀ a ∈ as, ∀ b ∈ bs, f a = f b → g a = g b) → as.map f = bs.map f → as.map g = bs.map g
  | [], [], _, _ => rfl
  | [], _ :: _, _, h | _ :: _, [], _, h => nomatch h
  | a :: as, b :: bs, hfg, h => by
    obtain ⟨hab, hrest⟩ := List.cons.inj h
    rw [List.map_cons, List.map_cons, hfg a List.mem_cons_self b List.mem_cons_self hab,
      map_eq_of_map_eq (fun a ha b hb => hfg a (List.mem_cons_of_mem _ ha) b
        (List.mem_cons_of_mem _ hb)) hrest]

section Texts

variable {source : String} {r : Registry} {limits : Limits} {t : Tree}

/-- The operations of a tree are those of its registry. -/
theorem knows_of_parseText (hr : r.Reached) (h : parseText source r limits = .ok t) :
    ∀ n ∈ t.nodes.toList, ∀ o, n.item = .operation o → r.Knows o := by
  obtain ⟨tokens, hparse⟩ := exists_parse_of_parseText h
  exact Grammar.operation_of_parse (P := fun o _ => r.Knows o) hr (fun o ho _ _ => .inr ho)
    (.inl rfl) hparse

/-- No name in a tree has white space in it. -/
theorem not_isBlank_of_parseText (hr : r.Reached) (h : parseText source r limits = .ok t) :
    ∀ n ∈ t.nodes.toList, ∀ name, n.item.name? = some name →
      ∀ c ∈ name.toList, Text.isBlank c = false := by
  obtain ⟨tokens, htokens, hparse⟩ := bind_eq_ok.1 h
  intro n hn name hname
  obtain ⟨token, htoken, _, hwrites⟩ := Grammar.written_of_parse hparse n hn
  rw [← hwrites.name name hname]
  exact forall_of_tokenize (mapError_eq_ok.1 htokens) (fun _ hlex => hlex.not_isBlank hr)
    (fun _ => by simp [Token.finish]) token htoken

end Texts

/-- The numbers of a tree, in the order of the table. -/
def Tree.numbers (t : Tree) : List Float :=
  t.nodes.toList.filterMap fun n => match n.item with
    | .number x => some x
    | _ => none

theorem Tree.mem_numbers {t : Tree} {n : Node} (hn : n ∈ t.nodes.toList) {x : Float}
    (hx : n.item = .number x) : x ∈ t.numbers :=
  List.mem_filterMap.2 ⟨n, hn, by simp [hx]⟩

/-- The texts of numbers have no line breaks, and those of different numbers are different. -/
structure TellsApart (number : Float → String) (xs : List Float) : Prop where
  line : ∀ x ∈ xs, '\n' ∉ (number x).toList
  injective : ∀ x ∈ xs, ∀ y ∈ xs, number x = number y → x = y

theorem newline_not_mem_of_parseText {source : String} {r : Registry} {limits : Limits} {t : Tree}
    (hr : r.Reached) (h : parseText source r limits = .ok t) {number : Float → String}
    (hnumber : ∀ x ∈ t.numbers, '\n' ∉ (number x).toList) :
    ∀ n ∈ t.nodes.toList, '\n' ∉ (n.outlineLine number).toList := by
  intro n hn
  have hname := not_isBlank_of_parseText hr h n hn
  refine Node.newline_not_mem_outlineLine ?_
  cases hitem : n.item with
  | number x => exact hnumber x (Tree.mem_numbers hn hitem)
  | var name => exact fun hmem => nomatch hname name (by rw [hitem]; rfl) _ hmem
  | operation o => exact fun hmem => nomatch hname o.name (by rw [hitem]; rfl) _ hmem

/-- Trees of one outline have the same items at the same depths, in pre-order. -/
theorem map_entry_walk_eq {r : Registry} (hr : r.Reached) {source source' : String}
    {limits limits' : Limits} {t t' : Tree} (h : parseText source r limits = .ok t)
    (h' : parseText source' r limits' = .ok t') {number : Float → String}
    (hnumber : TellsApart number (t.numbers ++ t'.numbers))
    (heq : t.outlineWith number = t'.outlineWith number) :
    t.walk.map Node.entry = t'.walk.map Node.entry := by
  have ht := (Tree.made_of_parseText h).rooted
  have ht' := (Tree.made_of_parseText h').rooted
  have hlines : t.walk.map (Node.outlineLine number) = t'.walk.map (Node.outlineLine number) := by
    refine lines_eq_of_intercalate (by simpa using ht.walk_ne_nil) (by simpa using ht'.walk_ne_nil)
      (List.forall_mem_map.2 fun n hn => ?_) (List.forall_mem_map.2 fun n hn => ?_) heq
    · exact newline_not_mem_of_parseText hr h
        (fun x hx => hnumber.line x (List.mem_append_left _ hx)) n (ht.mem_walk_iff.1 hn)
    · exact newline_not_mem_of_parseText hr h'
        (fun x hx => hnumber.line x (List.mem_append_right _ hx)) n (ht'.mem_walk_iff.1 hn)
  refine map_eq_of_map_eq (fun n hn n' hn' hline => ?_) hlines
  rw [ht.mem_walk_iff] at hn
  rw [ht'.mem_walk_iff] at hn'
  obtain ⟨hdepth, hlabel⟩ :=
    Node.label_eq_of_outlineLine (ht.depth_pos hn) (ht'.depth_pos hn') hline
  have hitem := Item.eq_of_label hr (knows_of_parseText hr h n hn)
    (knows_of_parseText hr h' n' hn')
    (fun x y hx hy => hnumber.injective x (List.mem_append_left _ (Tree.mem_numbers hn hx))
      y (List.mem_append_right _ (Tree.mem_numbers hn' hy))) hlabel
  rw [Node.entry, Node.entry, hdepth, hitem]

/-- **The outline of a tree tells the tree.** Two texts, parsed under one registry, whose trees have
the same outline have the same tree but for positions and source: under all bindings and policies it
has the same number or fails for the same cause. All that the texts of numbers have to do is to tell
the numbers apart, without line breaks. -/
theorem parseText_outline {r : Registry} (hr : r.Reached) {source source' : String}
    {limits limits' : Limits} {t t' : Tree} (h : parseText source r limits = .ok t)
    (h' : parseText source' r limits' = .ok t') {number : Float → String}
    (hnumber : TellsApart number (t.numbers ++ t'.numbers))
    (heq : t.outlineWith number = t'.outlineWith number) :
    t'.unplaced = t.unplaced ∧
    ∀ bindings policy, Alike Failure.SameCause Eq (t.evaluate bindings policy)
      (t'.evaluate bindings policy) := by
  obtain ⟨_, e, _, _, htree⟩ := parseText_eq_ok h
  obtain ⟨_, e', _, _, htree'⟩ := parseText_eq_ok h'
  have hentries : e.entries 1 ++ [] = e'.entries 1 ++ [] := by
    rw [← (Tree.made_of_parseText h).rooted.map_entry_walk (Tree.shows_ofExpr htree),
      ← (Tree.made_of_parseText h').rooted.map_entry_walk (Tree.shows_ofExpr htree'),
      map_entry_walk_eq hr h h' hnumber heq]
  obtain ⟨hlike, _⟩ :=
    Expr.entries_like e e' (Expr.surfaces_nil 2) (Expr.surfaces_nil 2) hentries
  have htrees : Alike Eq Likeness.unplaced.TreeLike (Tree.ofExpr e (some source))
      (Tree.ofExpr e' (some source')) := Likeness.ofExpr_like hlike trivial
  rw [htree, htree'] at htrees
  cases htrees with
  | ok hlike =>
    exact ⟨hlike.unplaced_eq, fun bindings policy => (Likeness.evaluate_like hlike bindings
      policy).mono (fun _ _ hf => hf.sameCause) fun _ _ hx => hx⟩

/-- Parentheses that change nothing are not in the outline. -/
theorem parseText_outline_parentheses : ∃ t t',
    parseText "2*(x-1,000)" .standard .standard = .ok t ∧
    parseText "(2) * (x - 1000)" .standard .standard = .ok t' ∧
    t.outline = "Operator: *\n  Number: 2.0\n  Operator: -\n    Variable: x\n    Number: 1000.0" ∧
    TellsApart numberText (t.numbers ++ t'.numbers) ∧ t'.outline = t.outline ∧
    t'.unplaced = t.unplaced := by
  have hrun : (match parseText "2*(x-1,000)" .standard .standard,
        parseText "(2) * (x - 1000)" .standard .standard with
      | .ok t, .ok t' =>
        decide (t.outline =
          "Operator: *\n  Number: 2.0\n  Operator: -\n    Variable: x\n    Number: 1000.0") &&
        decide (t'.outline = t.outline) && decide (t.numbers ++ t'.numbers = [2, 1000, 2, 1000])
      | _, _ => false) = true := by decide +kernel
  split at hrun
  · next t t' ht ht' =>
    simp only [Bool.and_eq_true, decide_eq_true_eq] at hrun
    obtain ⟨⟨houtline, hsame⟩, hnumbers⟩ := hrun
    have htells : TellsApart numberText (t.numbers ++ t'.numbers) := by
      rw [hnumbers]
      exact ⟨by decide +kernel, by decide +kernel⟩
    obtain ⟨hunplaced, _⟩ :=
      parseText_outline Registry.standard_reached ht ht' htells hsame.symm
    exact ⟨t, t', ht, ht', houtline, htells, hsame, hunplaced⟩
  · cases hrun

end Reckon
