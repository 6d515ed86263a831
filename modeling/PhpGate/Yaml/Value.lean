import PhpGate.Yaml.Document
import PhpGate.Yaml.Merge
import PhpGate.Yaml.ScalarValue

/-!
The value of a YAML document. Scalars are read where they are met; what is in a collection is looked
at later, in the order in which the collections were met, so the first fault is the one met first in
that order. A tag that is not known, or that does not fit its node, makes the document malformed. Of
several entries with one key the last counts.
-/

namespace PhpGate.Yaml

open Text

/-- What a node has become: a value, or a collection whose members are nodes. -/
inductive Made where
  | value (v : Value)
  | waiting
  | list (items : List Place)
  | mapping (entries : List Entry)
  | set (entries : List Entry)
  | pairs (entries : List Entry)

/-- The nodes, what they have become, and the collections still to be looked into. -/
structure Construction where
  graph : Graph
  made : Array (Option Made)
  waiting : List Place

namespace Construction

def ofGraph (g : Graph) : Construction :=
  ⟨g, Array.replicate g.size none, []⟩

def madeAt (c : Construction) (p : Place) : Option Made :=
  (c.made[p]?).join

def setMade (c : Construction) (p : Place) (m : Made) : Construction :=
  { c with made := c.made.set! p (some m) }

/-- The value of a scalar, or of a mapping that has a default value in its stead. -/
def scalarAt (c : Construction) (p : Place) (node : Node) : Except Fault Value := do
  let codes ← c.graph.textAt p
  match node.tag, node.content with
  | .timestamp, .mapping _ => throw .timeInMapping
  | tag, _ => tag.scalarValue codes

/-- Meets a node, for the first time or again. -/
def meet (c : Construction) (p : Place) : Except Fault Construction :=
  match c.madeAt p, c.graph[p]? with
  | some _, _ => .ok c
  | none, none => .error .malformed
  | none, some node =>
      match node.tag with
      | .sequence | .mapping | .set | .orderedMap | .pairs =>
          .ok { c.setMade p .waiting with waiting := c.waiting ++ [p] }
      | .merge | .defaultValue | .unknown => .error .malformed
      | _ => (c.scalarAt p node).map fun v => c.setMade p (.value v)

/-- Meets a key and then its value. Collections are no keys. -/
def meetEntry (c : Construction) (e : Entry) : Except Fault Construction := do
  let c ← c.meet e.1
  match c.madeAt e.1 with
  | some (.value _) => c.meet e.2
  | _ => throw .malformed

/-- Meets the entry of a mapping that is one pair. -/
def meetPair (c : Construction) (p : Place) : Except Fault (Construction × Entry) := do
  match c.graph.entries? p with
  | some [(key, value)] =>
      let c ← c.meet key
      let c ← c.meet value
      return (c, (key, value))
  | _ => throw .malformed

/-- Does the merges of a mapping and meets its entries. -/
def enterMapping (c : Construction) (p : Place) : Except Fault (Construction × List Entry) := do
  let graph ← c.graph.mergeAt p
  let entries := graph.entriesAt p
  let c ← entries.foldlM meetEntry { c with graph }
  return (c, entries)

/-- Looks into a collection. -/
def enter (c : Construction) (p : Place) : Except Fault Construction := do
  match c.graph[p]? with
  | some ⟨.sequence, .sequence items⟩ => do
      let c ← items.foldlM meet c
      return c.setMade p (.list items)
  | some ⟨.orderedMap, .sequence items⟩ | some ⟨.pairs, .sequence items⟩ => do
      let (c, entries) ← items.foldlM (fun (c, entries) item => do
        let (c, e) ← c.meetPair item
        return (c, entries ++ [e])) (c, ([] : List Entry))
      return c.setMade p (.pairs entries)
  | some ⟨.mapping, .mapping _⟩ => do
      let (c, entries) ← c.enterMapping p
      return c.setMade p (.mapping entries)
  | some ⟨.set, .mapping _⟩ => do
      let (c, entries) ← c.enterMapping p
      return c.setMade p (.set entries)
  | _ => throw .malformed

/-- Looks into all collections that wait. Every node waits once at most. -/
def finish : (nodes : Nat) → Construction → Except Fault Construction
  | 0, c => .ok c
  | nodes + 1, c =>
      match c.waiting with
      | [] => .ok c
      | p :: rest => do
          let c ← { c with waiting := rest }.enter p
          finish nodes c

def ofRoot (g : Graph) (root : Place) : Except Fault Construction := do
  let c ← (ofGraph g).meet root
  c.finish (g.size + 1)

/-! The values of nodes that are all made. -/

/-- Whether the key at a place is the one NaN that has a name. -/
def isNamedNan (c : Construction) (p : Place) : Bool :=
  match c.graph.textAt p with
  | .ok codes => codes.text?.any namesNan
  | .error _ => false

def keyAt (c : Construction) (p : Place) : Value :=
  match c.madeAt p with
  | some (.value v) => v
  | _ => .null

/-- Whether the keys at two places are one. A NaN equals itself alone. -/
def sameKey (c : Construction) (p q : Place) : Bool :=
  p == q || (c.keyAt p).sameKey (c.keyAt q) ||
    match c.keyAt p, c.keyAt q with
    | .float .nan, .float .nan => c.isNamedNan p && c.isNamedNan q
    | _, _ => false

def insertEntry (c : Construction) (e : Entry) : List Entry → List Entry
  | [] => [e]
  | (key, value) :: r =>
      if c.sameKey key e.1 then (key, e.2) :: r else (key, value) :: c.insertEntry e r

/-- The entries of a mapping with one for each key: the first such key with the last value. -/
def distinctEntries (c : Construction) (entries : List Entry) : List Entry :=
  entries.foldl (fun m e => c.insertEntry e m) []

/-- Values by place, as far as they are known. -/
abbrev Known := Array (Option Value)

/-- The value of a node, given the collections around it; a node among them is a cycle. Nodes are as
deep inside one another as there are nodes at most. -/
def valueAt (c : Construction) : (depth : Nat) → (around : List Place) → Place → StateM Known Value
  | 0, _, _ => return .cycle
  | depth + 1, around, p => do
      if around.contains p then return .cycle
      match (← get)[p]?.join with
      | some v => return v
      | none => do
          let inside := c.valueAt depth (p :: around)
          let v ← match c.madeAt p with
            | some (.value v) => pure v
            | some (.list items) => Value.list <$> items.mapM inside
            | some (.mapping entries) =>
                Value.mapping <$> (c.distinctEntries entries).mapM fun (key, value) =>
                  return (c.keyAt key, ← inside value)
            | some (.set entries) =>
                pure (.set ((c.distinctEntries entries).map fun (key, _) => c.keyAt key))
            | some (.pairs entries) =>
                Value.list <$> entries.mapM fun (key, value) =>
                  return .pair (← inside key) (← inside value)
            | some .waiting | none => pure .null
          modify fun known => known.set! p (some v)
          return v

def freshValue (c : Construction) (p : Place) : Value :=
  (Id.run ((c.valueAt (c.graph.size + 1) [] p).run (Array.replicate c.graph.size none))).1

/-- The value of a document by its root. The values in a mapping are taken each by itself, so that
the mapping is seen inside them where it stands there again. -/
def rootValue (c : Construction) (root : Place) : Value :=
  match c.madeAt root with
  | some (.mapping entries) =>
      .mapping ((c.distinctEntries entries).map fun (key, value) =>
        (c.keyAt key, c.freshValue value))
  | _ => c.freshValue root

end Construction

/-- The value of a text: nothing where it holds no document. How deep collections may stand inside one
another is a limit of the machine. -/
def read (nestingLimit : Nat) (t : Text) : Except Fault Value := do
  match ← readDocument nestingLimit t with
  | none => return .null
  | some (graph, root) => do
      let c ← Construction.ofRoot graph root
      return c.rootValue root

end PhpGate.Yaml
