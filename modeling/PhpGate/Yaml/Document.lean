import PhpGate.Yaml.Node
import PhpGate.Yaml.Token

/-!
The document of a text, read from its tokens. Every node gets its full tag; an untagged plain scalar
gets the one that its text implies. A collection has its place before the nodes in it, so an alias
in it can name it.
-/

namespace PhpGate.Yaml

open Text

/-- The tokens to come, the tag handles in force, the places of the anchors so far, the nodes, and
how many collections are open. -/
structure Reading where
  tokens : List Token
  /-- The most collections that may stand inside one another. -/
  nestingLimit : Nat
  handles : List (Text × Text) := []
  anchors : List (Text × Place) := []
  graph : Graph := #[]
  depth : Nat := 0

abbrev Reader := StateT Reading (Except Fault)

namespace Reader

/-- The next token. A fault of the text comes up when it is reached. -/
def peek : Reader Token := do
  match (← get).tokens with
  | [] => throw .malformed
  | .fault f :: _ => throw f
  | t :: _ => return t

def skip : Reader Unit :=
  modify fun s => { s with tokens := s.tokens.drop 1 }

def standardHandles : List (Text × Text) :=
  [("!".toList, "!".toList), ("!!".toList, standardTags)]

/-- The full text of a tag; its handle has to be known. -/
def expand (tag : Tag) : Reader Text := do
  match tag.handle with
  | none => return tag.suffix
  | some handle =>
      match (← get).handles.lookup handle with
      | some start => return start ++ tag.suffix
      | none => throw .malformed

/-- The properties of a node: an anchor and a tag in either order. -/
structure Properties where
  anchor : Option Text := none
  tag : Option Text := none

namespace Properties

def isEmpty (p : Properties) : Bool :=
  p.anchor.isNone && p.tag.isNone

/-- The tag of a collection: its own, if it has one other than the plain exclamation mark. -/
def collectionTag (p : Properties) (standard : TypeTag) : TypeTag :=
  match p.tag with
  | none | some ['!'] => standard
  | some t => .ofText t

def scalarTag (p : Properties) (plain : Bool) (codes : Codes) : TypeTag :=
  match p.tag with
  | none => if plain then .implied codes else .string
  | some ['!'] => .implied codes
  | some t => .ofText t

end Properties

def readAnchor : Reader (Option Text) := do
  match ← peek with
  | .anchor a => do
      skip
      return some a
  | _ => return none

def readTag : Reader (Option Tag) := do
  match ← peek with
  | .tag t => do
      skip
      return some t
  | _ => return none

def readProperties : Reader Properties := do
  let anchor ← readAnchor
  let tag ← readTag
  let anchor ← if anchor.isNone && tag.isSome then readAnchor else pure anchor
  match tag with
  | none => return { anchor }
  | some t => return { anchor, tag := some (← expand t) }

/-- Adds a node. An anchor names one node only. -/
def addNode (anchor : Option Text) (node : Node) : Reader Place := do
  let s ← get
  let p := s.graph.size
  match anchor with
  | none => set { s with graph := s.graph.push node }
  | some a =>
      if (s.anchors.lookup a).isSome then throw .malformed
      set { s with graph := s.graph.push node, anchors := (a, p) :: s.anchors }
  return p

def addScalar (p : Properties) (codes : Codes) (plain : Bool) : Reader Place :=
  addNode p.anchor ⟨p.scalarTag plain codes, .scalar codes⟩

/-- An empty scalar where a node is left out. -/
def addEmpty : Reader Place :=
  addScalar {} [] true

/-- Adds a collection and reads what is in it. -/
def addCollection (anchor : Option Text) (tag : TypeTag) (empty : Content)
    (readContent : Reader Content) : Reader Place := do
  let place ← addNode anchor ⟨tag, empty⟩
  let { depth, nestingLimit, .. } ← get
  if nestingLimit ≤ depth then throw .tooDeep
  modify fun s => { s with depth := depth + 1 }
  let content ← readContent
  modify fun s => { s with depth, graph := s.graph.setContent place content }
  return place

def addSequence (p : Properties) (readItems : Reader (List Place)) : Reader Place :=
  addCollection p.anchor (p.collectionTag .sequence) (.sequence []) (.sequence <$> readItems)

def addMapping (p : Properties) (readEntries : Reader (List Entry)) : Reader Place :=
  addCollection p.anchor (p.collectionTag .mapping) (.mapping []) (.mapping <$> readEntries)

/-- Where a node may stand: in a block, in a block right after a key, where a sequence need not be
indented, or inside flow brackets. -/
inductive Position where
  | block | afterKey | flow
  deriving Repr, DecidableEq

/-- Tokens before which a node of a block sequence is left out. -/
def endsBlockEntry : Token → Bool
  | .blockEntry | .blockEnd => true
  | _ => false

def endsOpenEntry : Token → Bool
  | .blockEntry | .key | .value | .blockEnd => true
  | _ => false

def endsBlockKey : Token → Bool
  | .key | .value | .blockEnd => true
  | _ => false

def endsFlowKey (closing t : Token) : Bool :=
  t matches .value | .flowEntry || t == closing

def endsFlowValue (closing t : Token) : Bool :=
  t matches .flowEntry || t == closing

/-- Goes past the comma before all items but the first. -/
def skipComma (first : Bool) : Reader Unit := do
  if !first then
    match ← peek with
    | .flowEntry => skip
    | _ => throw .malformed

mutual

/-- A node and all in it. -/
def readNode (position : Position) : (fuel : Nat) → Reader Place
  | 0 => throw .malformed
  | fuel + 1 => do
      match ← peek with
      | .aliasOf a => do
          skip
          match (← get).anchors.lookup a with
          | some place => return place
          | none => throw .malformed
      | _ => do
          let p ← readProperties
          match position, ← peek with
          | _, .scalar codes plain => do
              skip
              addScalar p codes plain
          | .afterKey, .blockEntry => addSequence p (readOpenEntries fuel)
          | _, .flowSequenceStart => addSequence p (readFlowItems true fuel)
          | _, .flowMappingStart => addMapping p (readFlowEntries true fuel)
          | .block, .blockSequenceStart | .afterKey, .blockSequenceStart =>
              addSequence p (readEntries true fuel)
          | .block, .blockMappingStart | .afterKey, .blockMappingStart =>
              addMapping p (readKeys true fuel)
          | _, _ => if p.isEmpty then throw .malformed else addScalar p [] true

/-- A node, or an empty scalar before a token that leaves it out. -/
def readOptional (isAbsent : Token → Bool) (position : Position) : (fuel : Nat) → Reader Place
  | 0 => throw .malformed
  | fuel + 1 => do
      if isAbsent (← peek) then addEmpty else readNode position fuel

/-- The entries of a block sequence and its end. -/
def readEntries (first : Bool) : (fuel : Nat) → Reader (List Place)
  | 0 => throw .malformed
  | fuel + 1 => do
      if first then skip
      match ← peek with
      | .blockEntry => do
          skip
          let node ← readOptional endsBlockEntry .block fuel
          return node :: (← readEntries false fuel)
      | .blockEnd => do
          skip
          return []
      | _ => throw .malformed

/-- The entries of a sequence that is not indented; nothing marks its end. -/
def readOpenEntries : (fuel : Nat) → Reader (List Place)
  | 0 => throw .malformed
  | fuel + 1 => do
      match ← peek with
      | .blockEntry => do
          skip
          let node ← readOptional endsOpenEntry .block fuel
          return node :: (← readOpenEntries fuel)
      | _ => return []

/-- The entries of a block mapping and its end; a key without a value has an empty one. -/
def readKeys (first : Bool) : (fuel : Nat) → Reader (List Entry)
  | 0 => throw .malformed
  | fuel + 1 => do
      if first then skip
      match ← peek with
      | .key => do
          skip
          let key ← readOptional endsBlockKey .afterKey fuel
          let value ← readValue endsBlockKey .afterKey fuel
          return (key, value) :: (← readKeys false fuel)
      | .blockEnd => do
          skip
          return []
      | _ => throw .malformed

/-- The value after a key, or an empty one. -/
def readValue (isAbsent : Token → Bool) (position : Position) : (fuel : Nat) → Reader Place
  | 0 => throw .malformed
  | fuel + 1 => do
      match ← peek with
      | .value => do
          skip
          readOptional isAbsent position fuel
      | _ => addEmpty

/-- The items of a flow sequence and its end. A key among them makes a mapping of one entry. -/
def readFlowItems (first : Bool) : (fuel : Nat) → Reader (List Place)
  | 0 => throw .malformed
  | fuel + 1 => do
      if first then skip
      if (← peek) == .flowSequenceEnd then
        skip
        return []
      skipComma first
      match ← peek with
      | .key => do
          let node ← addMapping {} (readPair fuel)
          return node :: (← readFlowItems false fuel)
      | .flowSequenceEnd => do
          skip
          return []
      | _ => do
          let node ← readNode .flow fuel
          return node :: (← readFlowItems false fuel)

/-- The one entry of a mapping that stands in a flow sequence without brackets. -/
def readPair : (fuel : Nat) → Reader (List Entry)
  | 0 => throw .malformed
  | fuel + 1 => do
      skip
      let key ← readOptional (endsFlowKey .flowSequenceEnd) .flow fuel
      let value ← readValue (endsFlowValue .flowSequenceEnd) .flow fuel
      return [(key, value)]

/-- The entries of a flow mapping and its end. A node alone is a key with an empty value. -/
def readFlowEntries (first : Bool) : (fuel : Nat) → Reader (List Entry)
  | 0 => throw .malformed
  | fuel + 1 => do
      if first then skip
      if (← peek) == .flowMappingEnd then
        skip
        return []
      skipComma first
      match ← peek with
      | .key => do
          skip
          let key ← readOptional (endsFlowKey .flowMappingEnd) .flow fuel
          let value ← readValue (endsFlowValue .flowMappingEnd) .flow fuel
          return (key, value) :: (← readFlowEntries false fuel)
      | .flowMappingEnd => do
          skip
          return []
      | _ => do
          let key ← readNode .flow fuel
          let value ← addEmpty
          return (key, value) :: (← readFlowEntries false fuel)

end

/-- A node and all in it, outside all collections. Between two tokens that are taken at most three
readings start. -/
def readRoot : Reader Place := do
  readNode .block (4 * (← get).tokens.length + 4)

/-- The directives before a document: one version at most, and each handle once. -/
def takeDirectives (version : Bool) (handles : List (Text × Text)) :
    List Token → Except Fault (List (Text × Text) × List Token)
  | .fault f :: _ => .error f
  | .directive (.version major _) :: r =>
      if version || major != 1 then .error .malformed else takeDirectives true handles r
  | .directive (.tagHandle handle start) :: r =>
      if (handles.lookup handle).isSome then .error .malformed
      else takeDirectives version ((handle, start) :: handles) r
  | .directive .other :: r => takeDirectives version handles r
  | r => .ok (handles ++ standardHandles, r)

/-- The directives of a document and the line that opens it. -/
def readOpening : Reader Unit := do
  let (handles, tokens) ← takeDirectives false [] (← get).tokens
  modify fun s => { s with handles, tokens }
  match ← peek with
  | .documentStart => skip
  | _ => throw .malformed

/-- The content of a document after the line that opens it; it may be left out. -/
def readContent : Reader Place := do
  match ← peek with
  | .directive _ | .documentStart | .documentEnd | .streamEnd => addEmpty
  | _ => readRoot

/-- The end of a text after its document; no other document may follow. -/
def readEnd : Reader Unit := do
  let _ ← peek
  modify fun s => { s with tokens := s.tokens.dropWhile (· == .documentEnd) }
  match ← peek with
  | .streamEnd => return
  | _ => do
      readOpening
      throw .malformed

/-- The place of the root of the one document, if there is any. -/
def readStream : Reader (Option Place) := do
  match ← peek with
  | .streamEnd => return none
  | .directive _ | .documentStart => do
      readOpening
      let root ← readContent
      readEnd
      return some root
  | _ => do
      modify fun s => { s with handles := standardHandles }
      let root ← readRoot
      readEnd
      return some root

end Reader

/-- The nodes of a text and the place of the root. -/
def readDocument (nestingLimit : Nat) (t : Text) : Except Fault (Option (Graph × Place)) := do
  let (root, s) ← Reader.readStream.run { tokens := scanTokens t, nestingLimit }
  return root.map fun p => (s.graph, p)

end PhpGate.Yaml
