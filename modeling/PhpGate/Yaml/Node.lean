import PhpGate.Yaml.TypeTag

/-!
The nodes of a document. Each is known by its place in a list, so that an alias is the place of the
node that it names, also inside that node itself.
-/

namespace PhpGate.Yaml

abbrev Place := Nat

/-- A key and its value. -/
abbrev Entry := Place × Place

inductive Content where
  | scalar (codes : Codes)
  | sequence (items : List Place)
  | mapping (entries : List Entry)
  deriving Repr, DecidableEq

structure Node where
  tag : TypeTag
  content : Content
  deriving Repr, DecidableEq

abbrev Graph := Array Node

namespace Graph

def tagAt (g : Graph) (p : Place) : TypeTag :=
  g[p]?.elim .unknown Node.tag

def setContent (g : Graph) (p : Place) (content : Content) : Graph :=
  g.modify p fun node => { node with content }

/-- The entries of a mapping. -/
def entries? (g : Graph) (p : Place) : Option (List Entry) :=
  match g[p]? with
  | some ⟨_, .mapping entries⟩ => some entries
  | _ => none

def entriesAt (g : Graph) (p : Place) : List Entry :=
  (g.entries? p).getD []

/-- The text of a scalar, or of the default value of a mapping. Default values that lead back to
themselves use up the `depth`. -/
def scalarText (g : Graph) : (depth : Nat) → Place → Except Fault Codes
  | 0, _ => .error .tooDeep
  | depth + 1, p =>
      match g[p]? with
      | some ⟨_, .scalar codes⟩ => .ok codes
      | some ⟨_, .mapping entries⟩ =>
          match entries.find? fun (key, _) => g.tagAt key == .defaultValue with
          | some (_, value) => g.scalarText depth value
          | none => .error .malformed
      | _ => .error .malformed

/-- The text of a node that a scalar is read from. -/
def textAt (g : Graph) (p : Place) : Except Fault Codes :=
  g.scalarText (g.size + 1) p

end Graph
end PhpGate.Yaml
