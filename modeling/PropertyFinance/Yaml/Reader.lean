import PropertyFinance.Yaml.Layout
import PropertyFinance.Yaml.Node
import PropertyFinance.Yaml.Scalar

/-! The JSON value of a YAML document. A reference stands for the node with its number. How deep
collections are nested and how often references are followed is limited. -/

namespace PropertyFinance
set_option autoImplicit false

namespace Yaml

/-- Levels of collections that can be read. -/
def maxDepth : Nat := 128

namespace Node

mutual

/-- How many parts a node is written with: two for a collection and those of its members. -/
def size : Node → Nat
  | list _ items => sizeOfItems items + 2
  | map _ entries => sizeOfEntries entries + 2
  | _ => 1

def sizeOfItems : List Node → Nat
  | [] => 0
  | item :: rest => size item + sizeOfItems rest

def sizeOfEntries : List (Node × Node) → Nat
  | [] => 0
  | (name, value) :: rest => size name + size value + sizeOfEntries rest

end

/-- A node under its number, if it has one. -/
def numbered (properties : Properties) (node : Node) : List (Nat × Node) :=
  match properties.anchor with
  | some number => [(number, node)]
  | none => []

mutual

/-- The nodes with numbers, in the order of the text. -/
def anchored : Node → List (Nat × Node)
  | list properties items => numbered properties (list properties items) ++ anchoredItems items
  | map properties entries =>
    numbered properties (map properties entries) ++ anchoredEntries entries
  | scalar properties isPlain text => numbered properties (scalar properties isPlain text)
  | reference _ => []

def anchoredItems : List Node → List (Nat × Node)
  | [] => []
  | item :: rest => anchored item ++ anchoredItems rest

def anchoredEntries : List (Node × Node) → List (Nat × Node)
  | [] => []
  | (name, value) :: rest => anchored name ++ anchored value ++ anchoredEntries rest

end

end Node

/-- Readings that use up a number of steps through references. -/
abbrev Following := StateT Nat Option

/-- The node that is meant, which takes a step for a reference. Of several nodes with a number the
last one is meant. -/
def follow (targets : List (Nat × Node)) : Node → Following Node
  | .reference number => fun steps =>
    match steps with
    | 0 => none
    | steps + 1 => (targets.reverse.lookup number).map fun node => (node, steps)
  | node => pure node

/-- The text of a key, which can be any scalar. -/
def keyText (targets : List (Nat × Node)) (node : Node) : Following String := do
  match ← follow targets node with
  | .scalar _ _ text => pure text
  | _ => failure

/-- The value of a node with so many levels of collections left. No collection has a private tag. -/
def valueOf (targets : List (Nat × Node)) (depth : Nat) (node : Node) : Following Json := do
  match ← follow targets node, depth with
  | .scalar properties isPlain text, _ => readScalar properties.tag isPlain text
  | .list properties items, depth + 1 =>
    if properties.tag.any isLocalTag then failure
    else return .array (← items.mapM (valueOf targets depth))
  | .map properties entries, depth + 1 =>
    if properties.tag.any isLocalTag then failure
    else
      let entries ← entries.mapM fun (name, value) =>
        return (← keyText targets name, ← valueOf targets depth value)
      return .object entries
  | _, _ => failure

/-- The value of a document. References may be followed a hundred times for each of its parts. -/
def Node.toJson? (node : Node) : Option Json := do
  let (value, _) ← (valueOf node.anchored maxDepth node).run (100 * node.size)
  some value

end Yaml

open Yaml in
/-- The value of a text with at most one YAML document. -/
def Json.ofYaml? (s : String) : Option Json := do
  match ← Node.ofTokens? (← Token.ofChars? s.toList) with
  | some node => (← node.toJson?).normal
  | none => some .null

end PropertyFinance
