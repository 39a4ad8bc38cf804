import NetProfile.Yaml.Position
import NetProfile.Yaml.Tag

/-!
# Nodes of documents

A document as a tree, before its scalars are given types and its aliases are
followed. Where the text breaks off or is no document any more, the tree has a
broken node; nothing follows it, and the collections around it are unfinished.

## Main definitions

- `Node` — scalars, sequences, mappings, aliases, and where reading failed
- `Node.weight` — how much there is to read in a node
- `Node.anchored` — the nodes that aliases may refer to
- `Document` — a node that aliases are followed in
-/

namespace NetProfile

namespace Yaml

/-- What stands before a node. -/
structure Marks where
  /-- The number that aliases of the node carry. -/
  anchor : Option Nat := none
  /-- The full text of its tag. -/
  tag : Option Tag := none
  deriving DecidableEq, Repr, Inhabited

/-- A part of a document. -/
inductive Node where
  /-- Stands for the node with the anchor of this number. -/
  | alias (anchor : Nat)
  /-- A scalar; `plain` when it is written without quotes on its own line. -/
  | scalar (marks : Marks) (text : String) (plain : Bool)
  | sequence (marks : Marks) (items : List Node)
  /-- Keys with their values, in order, repeated keys included. -/
  | mapping (marks : Marks) (entries : List (Node × Node))
  /-- Where reading failed. It is the last item, or the last key and value, of
  every collection around it. -/
  | broken (e : SyntaxError)
  deriving Repr, Inhabited

namespace Node

/-- An absent node. -/
def empty : Node := .scalar {} "" true

/-- Whether reading failed here. -/
def isBroken : Node → Bool
  | .broken _ => true
  | .alias _ | .scalar .. | .sequence .. | .mapping .. => false

/-- How many ends a collection has whose last part is given: two, or one where
reading failed before the second. -/
def ends (last : Option Node) : Nat := if last.any isBroken then 1 else 2

mutual

/-- The number of scalars and aliases, with collections counted at both ends. -/
def weight : Node → Nat
  | .alias _ => 1
  | .scalar .. => 1
  | .sequence _ items => weightOfItems items + ends items.getLast?
  | .mapping _ entries => weightOfEntries entries + ends (entries.getLast?.map Prod.fst)
  | .broken _ => 0

/-- The weight of some items together. -/
def weightOfItems : List Node → Nat
  | [] => 0
  | item :: rest => weight item + weightOfItems rest

/-- The weight of some entries together. -/
def weightOfEntries : List (Node × Node) → Nat
  | [] => 0
  | (k, v) :: rest => weight k + weight v + weightOfEntries rest

end

/-- The node under the number of its anchor, if it has one. -/
def ownAnchor (marks : Marks) (node : Node) : List (Nat × Node) :=
  match marks.anchor with
  | some n => [(n, node)]
  | none => []

mutual

/-- The anchored nodes under their numbers, in the order in which they begin. -/
def anchored : Node → List (Nat × Node)
  | .alias _ | .broken _ => []
  | .scalar marks text plain => ownAnchor marks (.scalar marks text plain)
  | .sequence marks items => ownAnchor marks (.sequence marks items) ++ anchoredItems items
  | .mapping marks entries => ownAnchor marks (.mapping marks entries) ++ anchoredEntries entries

/-- The anchored nodes of some items. -/
def anchoredItems : List Node → List (Nat × Node)
  | [] => []
  | item :: rest => anchored item ++ anchoredItems rest

/-- The anchored nodes of some entries. -/
def anchoredEntries : List (Node × Node) → List (Nat × Node)
  | [] => []
  | (k, v) :: rest => anchored k ++ anchored v ++ anchoredEntries rest

end

end Node

/-- A node whose aliases are followed within it. -/
structure Document where
  root : Node
  /-- The anchored nodes, last one first. -/
  anchors : List (Nat × Node)
  deriving Repr, Inhabited

namespace Document

/-- The document with the given root. -/
def ofRoot (root : Node) : Document := ⟨root, root.anchored.reverse⟩

/-- The node that an alias stands for: of several anchors with one number the
last that begins. -/
def find? (d : Document) (n : Nat) : Option Node := d.anchors.lookup n

/-- How often aliases may be followed in all. -/
def aliasLimit (d : Document) : Nat := d.root.weight * 100

end Document

end Yaml

end NetProfile
