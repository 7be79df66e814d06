/-
Trees in a flat table. Nodes refer to each other by index: every node knows its
children, from left to right, and its parent. In the trees that a builder makes
children stand before their parents, so one pass over the table meets every
operand before the operation that consumes it.

The outline of a tree has one line for each node, in pre-order, with two spaces
for each level below the root. It is laid out over any text of numbers; the
library's own is `numberText`.
-/
import Reckon.Decimal.Layout
import Reckon.Operation

namespace Reckon

/-- What a node stands for. -/
inductive Item where
  | number (value : Float)
  | var (name : String)
  | operation (o : Operation)

/-- A node of a tree. -/
structure Node where
  index : Nat
  item : Item
  children : List Nat
  parent : Option Nat
  /-- The position in the source, for error messages. -/
  position : Int
  /-- The number of nodes from the root down to this one. -/
  depth : Nat

/-- A table of nodes with one root. -/
structure Tree where
  nodes : Array Node
  root : Nat
  source : Option String
  /-- The greatest depth of a node. -/
  depth : Nat

namespace Node

def isLeaf (n : Node) : Bool := n.children.isEmpty

end Node

namespace Tree

def size (t : Tree) : Nat := t.nodes.size

def rootNode? (t : Tree) : Option Node := t.nodes[t.root]?

/-- The children of a node, from left to right. -/
def childrenOf (t : Tree) (n : Node) : List Node := n.children.filterMap (t.nodes[·]?)

def parentOf? (t : Tree) (n : Node) : Option Node := n.parent.bind (t.nodes[·]?)

/-- The names of all variables, each once, in the order of the table. -/
def variableNames (t : Tree) : List String :=
  t.nodes.toList.foldl (fun names n =>
    match n.item with
    | .var name => if names.contains name then names else names ++ [name]
    | _ => names) []

/-- The nodes that the indices on a stack lead to: the top is taken, and its children go on the
stack in its place. The count bounds the nodes. -/
def walkFrom (t : Tree) : (count : Nat) → (stack : List Nat) → List Node
  | 0, _ => []
  | _, [] => []
  | count + 1, index :: stack =>
    match t.nodes[index]? with
    | none => walkFrom t count stack
    | some n => n :: walkFrom t count (n.children ++ stack)

/-- The nodes in pre-order: each before its children, those from left to right. -/
def walk (t : Tree) : List Node := t.walkFrom t.size [t.root]

end Tree

/-! ## Outlines -/

/-- The kind and the content of a node, given the text of numbers. -/
def Item.label (number : Float → String) : Item → String
  | .number value => s!"Number: {number value}"
  | .var name => s!"Variable: {name}"
  | .operation o =>
    if o.isFunction then s!"Function: {o.name}"
    else if o.isUnary then s!"Negate: {o.name}"
    else s!"Operator: {o.name}"

/-- The line of a node, given the text of numbers. -/
def Node.outlineLine (number : Float → String) (n : Node) : String :=
  String.ofList (List.replicate (2 * (n.depth - 1)) ' ') ++ n.item.label number

/-- The outline of a tree, given the text of numbers. -/
def Tree.outlineWith (number : Float → String) (t : Tree) : String :=
  "\n".intercalate (t.walk.map (Node.outlineLine number))

/-- The outline of a tree. -/
def Tree.outline (t : Tree) : String := t.outlineWith numberText

end Reckon
