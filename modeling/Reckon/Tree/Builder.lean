/-
Building a tree from the leaves up. A builder refuses whatever would not be a
tree: an operation with a count of operands that it does not take, a child that
is not there, that is named twice, or that has a parent already. A builder is
made a tree when one node is above all others.
-/
import Reckon.Tree

namespace Reckon

/-- A node to be, not yet under a root. -/
structure Slot where
  item : Item
  children : List Nat := []
  parent : Option Nat := none
  position : Int := 0

/-- The nodes added so far. -/
structure Builder where
  slots : Array Slot := #[]

/-- Why a builder refuses a node or a root. -/
inductive BuildError where
  | operandCount (operation : String) (expected : OperandCount) (actual : Nat)
  | repeatedChild
  | unknownChild (index : Int)
  | secondParent (index : Int)
  | unknownRoot (index : Int)
  | rootWithParent (index : Int)
  | unreachable
  deriving DecidableEq, Repr

namespace BuildError

def message : BuildError → String
  | operandCount operation expected actual =>
    s!"Operation '{operation}' expects {expected.text} operand(s), got {actual}"
  | repeatedChild => "A node cannot appear twice among its parent's children"
  | unknownChild index => s!"Unknown child node {index}"
  | secondParent index => s!"Node {index} already has a parent"
  | unknownRoot index => s!"Unknown root node {index}"
  | rootWithParent index => s!"Root node {index} has a parent"
  | unreachable => "Tree contains nodes unreachable from the root"

def fault (e : BuildError) : Fault := ⟨.value, e.message⟩

end BuildError

namespace Builder

def size (b : Builder) : Nat := b.slots.size

/-- The slot of an index that may be out of range on either side. -/
def slot? (b : Builder) (index : Int) : Option Slot :=
  if index < 0 then none else b.slots[index.toNat]?

/-- Adds a leaf; its index comes back. -/
def addLeaf (b : Builder) (item : Item) (position : Int) : Nat × Builder :=
  (b.size, { slots := b.slots.push { item, position } })

@[simp] theorem size_addLeaf (b : Builder) (item : Item) (position : Int) :
    (b.addLeaf item position).2.size = b.size + 1 := by
  simp [addLeaf, size]

/-- Passes when every child is there and has no parent. -/
def checkChildren (b : Builder) : List Int → Except BuildError Unit
  | [] => .ok ()
  | child :: rest =>
    match b.slot? child with
    | none => .error (.unknownChild child)
    | some slot =>
      if slot.parent.isSome then .error (.secondParent child) else b.checkChildren rest

/-- Puts the children under a parent. -/
def adopt (slots : Array Slot) (parent : Nat) (children : List Nat) : Array Slot :=
  children.foldl (fun slots child => slots.modify child fun s => { s with parent := some parent })
    slots

@[simp] theorem size_adopt (slots : Array Slot) (parent : Nat) (children : List Nat) :
    (adopt slots parent children).size = slots.size := by
  unfold adopt
  induction children generalizing slots with
  | nil => rfl
  | cons child children ih => rw [List.foldl_cons, ih, Array.size_modify]

/-- Adds an operation over nodes that are there already; its index comes back. -/
def addOperation (b : Builder) (o : Operation) (children : List Int) (position : Int) :
    Except BuildError (Nat × Builder) := do
  if !o.accepts children.length then
    throw (.operandCount o.name o.operandCount children.length)
  if !decide children.Nodup then throw .repeatedChild
  b.checkChildren children
  let children := children.map Int.toNat
  let slots := b.slots.push { item := .operation o, children, position }
  return (b.size, { slots := adopt slots b.size children })

/-- Gives the children of a node one depth more than its own, if it has one. -/
def deepen (slots : Array Slot) (depths : Array (Option Nat)) (index : Nat) :
    Array (Option Nat) :=
  match slots[index]?, (depths[index]?).join with
  | some slot, some depth =>
    slot.children.foldl (fun depths child => depths.setIfInBounds child (some (depth + 1))) depths
  | _, _ => depths

/-- Hands depths down from the node of an index to that of index zero. Children stand before their
parents, so one pass reaches everything below. -/
def descend (slots : Array Slot) : Nat → Array (Option Nat) → Array (Option Nat)
  | 0, depths => deepen slots depths 0
  | index + 1, depths => descend slots index (deepen slots depths (index + 1))

/-- The depths of all nodes below a root and of the root itself, which is one. -/
def depthsFrom (slots : Array Slot) (root : Nat) : Array (Option Nat) :=
  descend slots root ((Array.replicate slots.size none).setIfInBounds root (some 1))

/-- The tree of all nodes under a root. -/
def build (b : Builder) (root : Int) (source : Option String) : Except BuildError Tree :=
  match b.slot? root with
  | none => .error (.unknownRoot root)
  | some slot =>
    if slot.parent.isSome then .error (.rootWithParent root)
    else
      let depths := depthsFrom b.slots root.toNat
      if depths.any Option.isNone then .error .unreachable
      else
        let depthAt (index : Nat) : Nat := ((depths[index]?).join).getD 1
        .ok {
          nodes := b.slots.mapIdx fun index slot => {
            index
            item := slot.item
            children := slot.children
            parent := slot.parent
            position := slot.position
            depth := depthAt index }
          root := root.toNat
          source
          depth := depths.foldl (fun most d => max most (d.getD 1)) 1 }

end Builder

end Reckon
