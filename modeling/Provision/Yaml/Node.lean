import Provision.Yaml.Tag

namespace Provision.Yaml

inductive Node where
  | scalar (tag : Tag) (text : String)
  | sequence (tag : Tag) (items : List Nat)
  | mapping (tag : Tag) (entries : List (Nat × Nat))

namespace Node

def absent : Node := .scalar .null ""

instance : Inhabited Node := ⟨absent⟩

def tag : Node → Tag
  | .scalar t _ | .sequence t _ | .mapping t _ => t

def asText : Node → Node
  | .scalar _ s => .scalar .text s
  | .sequence _ items => .sequence .text items
  | .mapping _ entries => .mapping .text entries

end Node

abbrev Nodes := Array Node

namespace Nodes

def node (nodes : Nodes) (place : Nat) : Node :=
  nodes[place]?.getD .absent

def tagAt (nodes : Nodes) (place : Nat) : Tag :=
  (nodes.node place).tag

def entriesAt (nodes : Nodes) (place : Nat) : List (Nat × Nat) :=
  match nodes.node place with
  | .mapping _ entries => entries
  | _ => []

end Nodes

structure Graph where
  nodes : Nodes
  root : Nat

end Provision.Yaml
