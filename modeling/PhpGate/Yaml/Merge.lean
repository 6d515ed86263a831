import PhpGate.Yaml.Node

/-!
Merge keys. A mapping takes in the entries of the mappings that its merge keys name, in front of its
own, so that its own come later and prevail. Merging takes the merge keys away for good, so it ends
even where a mapping is named inside itself.
-/

namespace PhpGate.Yaml.Graph

def isMergeEntry (g : Graph) (e : Entry) : Bool :=
  g.tagAt e.1 == .merge

/-- The number of entries in all mappings. -/
def entryCount (g : Graph) : Nat :=
  g.foldl (fun n node => n + match node.content with
    | .mapping entries => entries.length
    | _ => 0) 0

/-- The key of a default value counts as text once its mapping has been merged. -/
def settleKey (g : Graph) (e : Entry) : Graph :=
  if g.tagAt e.1 = .defaultValue then g.modify e.1 fun node => { node with tag := .string } else g

/-- Sets the entries of a mapping that has no merge key left. -/
def settle (g : Graph) (p : Place) (entries : List Entry) : Graph :=
  entries.foldl settleKey (g.setContent p (.mapping entries))

/-- Does the merges of a mapping. `merged` are the entries taken in so far. Of several mappings that
one key names the last comes first. Every merge takes one entry away, which bounds the `merges`. -/
def mergeInto : (merges : Nat) → (merged : List Entry) → Place → Graph → Except Fault Graph
  | 0, _, _, _ => .error .malformed
  | merges + 1, merged, p, g =>
      let entries := g.entriesAt p
      match entries.find? g.isMergeEntry with
      | none => .ok (g.settle p (merged ++ entries))
      | some (_, value) => do
          let g := g.setContent p (.mapping (entries.eraseP g.isMergeEntry))
          match g[value]?.map Node.content with
          | some (.mapping _) => do
              let g ← mergeInto merges [] value g
              mergeInto merges (merged ++ g.entriesAt value) p g
          | some (.sequence items) => do
              let (lists, g) ← items.foldlM (fun (lists, g) item => do
                if (g.entries? item).isNone then throw .malformed
                let g ← mergeInto merges [] item g
                return (g.entriesAt item :: lists, g)) (([] : List (List Entry)), g)
              mergeInto merges (merged ++ lists.flatten) p g
          | _ => .error .malformed

/-- The graph with all merges of a mapping done. -/
def mergeAt (g : Graph) (p : Place) : Except Fault Graph :=
  mergeInto (g.entryCount + 1) [] p g

end PhpGate.Yaml.Graph
