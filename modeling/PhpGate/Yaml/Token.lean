import PhpGate.Text.Utf8
import PhpGate.Yaml.Scalar

/-!
Tokens of a YAML text. Indentation opens and closes block collections. A key without a question mark
is known only at the colon after it, so the scanner remembers where one might have started and puts
the key in afterwards. A text that cannot be scanned to its end still gives the tokens that are
settled before the fault, and the fault as its last token.
-/

namespace PhpGate.Yaml

open Text

structure Tag where
  /-- The handle in front of the suffix; a verbatim tag has none. -/
  handle : Option Text
  suffix : Text
  deriving Repr, DecidableEq

inductive Directive where
  | version (major minor : Nat)
  | tagHandle (handle tagStart : Text)
  | other
  deriving Repr, DecidableEq

inductive Token where
  | directive (d : Directive)
  | documentStart | documentEnd | streamEnd
  | blockSequenceStart | blockMappingStart | blockEnd
  | flowSequenceStart | flowSequenceEnd | flowMappingStart | flowMappingEnd
  | blockEntry | flowEntry | key | value
  | aliasOf (name : Text)
  | anchor (name : Text)
  | tag (t : Tag)
  | scalar (codes : Codes) (plain : Bool)
  | fault (f : Fault)
  deriving Repr, DecidableEq

/-- A place where a key may have started: how many tokens stand before it. A required key has to
prove one. -/
structure CandidateKey where
  tokensBefore : Nat
  required : Bool
  index : Nat
  line : Nat
  column : Nat

/-- The state of the scanner. `indents` are the indentations of the block collections around the
innermost one; candidates are kept for each depth of flow brackets. -/
structure Scanner where
  cursor : Cursor
  tokens : Array Token
  indent : Int
  indents : List Int
  flowLevel : Nat
  allowKey : Bool
  candidates : List (Nat × CandidateKey)

namespace Scanner

def initial (t : Text) : Scanner :=
  ⟨⟨t, 0, 0, 0⟩, #[], -1, [], 0, true, []⟩

def push (s : Scanner) (token : Token) : Scanner :=
  { s with tokens := s.tokens.push token }

def column (s : Scanner) : Int :=
  s.cursor.column

/-- Takes a token of `n` characters. -/
def take (s : Scanner) (n : Nat) (token : Token) : Scanner :=
  { s.push token with cursor := s.cursor.advance n }

/-- Closes block collections that are indented deeper than a column. -/
def unwindTo (s : Scanner) (column : Int) : Scanner :=
  if s.flowLevel ≠ 0 then s else go s s.indents
where
  go (s : Scanner) : List Int → Scanner
    | [] => s
    | outer :: rest =>
        if column < s.indent then go { s.push .blockEnd with indent := outer, indents := rest } rest
        else s

/-- Opens a block collection unless one is open at this column. -/
def openBlock (s : Scanner) (token : Token) : Scanner :=
  if s.indent < s.column then
    { s.push token with indents := s.indent :: s.indents, indent := s.column }
  else s

/-- Forgets the candidate of this depth; a required one may not be forgotten. -/
def dropCandidate (s : Scanner) : Except Fault Scanner :=
  match s.candidates.lookup s.flowLevel with
  | none => .ok s
  | some key =>
      if key.required then .error .malformed
      else .ok { s with candidates := s.candidates.filter (·.1 != s.flowLevel) }

/-- A key stands on one line and within 1024 characters. -/
def isStale (s : Scanner) (key : CandidateKey) : Bool :=
  key.line != s.cursor.line || 1024 < s.cursor.index - key.index

def dropStale (s : Scanner) : Except Fault Scanner :=
  if s.candidates.any fun (_, key) => s.isStale key && key.required then .error .malformed
  else .ok { s with candidates := s.candidates.filter fun (_, key) => !s.isStale key }

/-- The tokens that no colon to come can change: those before the first candidate. -/
def settled (s : Scanner) : List Token :=
  let live := s.candidates.filter fun (_, key) => !s.isStale key
  s.tokens.toList.take ((live.map fun (_, key) => key.tokensBefore).foldl min s.tokens.size)

def saveCandidate (s : Scanner) : Except Fault Scanner :=
  if s.allowKey then do
    let required := s.flowLevel = 0 && s.indent = s.column
    let s ← s.dropCandidate
    let c := s.cursor
    return { s with
      candidates :=
        (s.flowLevel, ⟨s.tokens.size, required, c.index, c.line, c.column⟩) :: s.candidates }
  else .ok s

/-- Skips white space, comments and line breaks; after a line break a key may start in a block. -/
def skipToToken : (fuel : Nat) → Scanner → Scanner
  | 0, s => s
  | fuel + 1, s =>
      let c := s.cursor.skipSpaces.skipComment
      match c.lineBreak? with
      | some (_, after) =>
          skipToToken fuel
            { s with cursor := after, allowKey := s.allowKey || s.flowLevel == 0 }
      | none => { s with cursor := c }

/-- Leaves all block collections, before a line that belongs to no document. -/
def leaveBlocks (s : Scanner) : Except Fault Scanner := do
  let s ← (s.unwindTo (-1)).dropCandidate
  return { s with allowKey := false }

def startFlow (s : Scanner) (token : Token) : Except Fault Scanner := do
  let s ← s.saveCandidate
  return { s.take 1 token with flowLevel := s.flowLevel + 1, allowKey := true }

def endFlow (s : Scanner) (token : Token) : Except Fault Scanner := do
  let s ← s.dropCandidate
  return { s.take 1 token with flowLevel := s.flowLevel - 1, allowKey := false }

def flowEntry (s : Scanner) : Except Fault Scanner := do
  let s ← s.dropCandidate
  return { s.take 1 .flowEntry with allowKey := true }

/-- In a block, an entry or key with an indicator opens its collection. -/
def beginInBlock (s : Scanner) (token : Token) : Except Fault Scanner :=
  if s.flowLevel ≠ 0 then .ok s
  else if s.allowKey then .ok (s.openBlock token)
  else .error .malformed

def blockEntry (s : Scanner) : Except Fault Scanner := do
  let s ← (← s.beginInBlock .blockSequenceStart).dropCandidate
  return { s.take 1 .blockEntry with allowKey := true }

def explicitKey (s : Scanner) : Except Fault Scanner := do
  let s ← (← s.beginInBlock .blockMappingStart).dropCandidate
  return { s.take 1 .key with allowKey := s.flowLevel == 0 }

def insertToken (s : Scanner) (n : Nat) (token : Token) : Scanner :=
  { s with tokens := s.tokens.insertIdxIfInBounds n token }

/-- A colon: the candidate of this depth, if there is one, turns out to be a key. -/
def valueMark (s : Scanner) : Except Fault Scanner :=
  match s.candidates.lookup s.flowLevel with
  | some key =>
      let s := { s with candidates := s.candidates.filter (·.1 != s.flowLevel) }
      let s := s.insertToken key.tokensBefore .key
      let s :=
        if s.flowLevel = 0 && s.indent < (key.column : Int) then
          { s.insertToken key.tokensBefore .blockMappingStart with
            indents := s.indent :: s.indents, indent := key.column }
        else s
      .ok { s.take 1 .value with allowKey := false }
  | none => do
      let s ← (← s.beginInBlock .blockMappingStart).dropCandidate
      return { s.take 1 .value with allowKey := s.flowLevel == 0 }

def isWordChar (c : Char) : Bool :=
  c.isAlphanum || c == '-' || c == '_'

/-- The name of an alias or an anchor after its indicator. -/
def readName (t : Text) : Except Fault (Text × Text) :=
  let name := t.takeWhile isWordChar
  let rest := t.drop name.length
  if name.isEmpty then .error .malformed
  else if endsWord rest.head? || (rest.head?.any fun c => "?:,]\x7d%@\x60".toList.contains c) then
    .ok (name, rest)
  else .error .malformed

/-- A tag handle: an exclamation mark, alone or around a word. -/
def readHandle (t : Text) : Except Fault (Text × Text) :=
  match t with
  | '!' :: r =>
      let word := r.takeWhile isWordChar
      match r.drop word.length with
      | '!' :: rest => .ok (['!'] ++ word ++ ['!'], rest)
      | rest => if r.head? = some ' ' then .ok (['!'], rest) else .error .malformed
  | _ => .error .malformed

def isUriChar (c : Char) : Bool :=
  c.isAlphanum || "-;/?:@&=+$,_.!~*'()[]".toList.contains c

/-- The bytes that percent signs and pairs of hexadecimal digits write. -/
def readUriBytes : (fuel : Nat) → Text → Except Fault (Bytes × Text)
  | 0, t => .ok ([], t)
  | fuel + 1, '%' :: r =>
      match hexCode? 2 r with
      | some n => do
          let (bytes, rest) ← readUriBytes fuel (r.drop 2)
          return (n.toUInt8 :: bytes, rest)
      | none => .error .malformed
  | _ + 1, t => .ok ([], t)

def readUri : (fuel : Nat) → Text → Except Fault (Text × Text)
  | 0, t => .ok ([], t)
  | _ + 1, [] => .ok ([], [])
  | fuel + 1, c :: r =>
      if c = '%' then do
        let (bytes, rest) ← readUriBytes (r.length + 1) (c :: r)
        match decodeStrict? bytes with
        | some t => do
            let (more, rest) ← readUri fuel rest
            return (t ++ more, rest)
        | none => throw .malformed
      else if isUriChar c then do
        let (more, rest) ← readUri fuel r
        return (c :: more, rest)
      else .ok ([], c :: r)

def readSuffix (t : Text) : Except Fault (Text × Text) := do
  let (uri, rest) ← readUri (t.length + 1) t
  if uri.isEmpty then throw .malformed
  return (uri, rest)

/-- Whether a second exclamation mark follows within the word, so that the first opens a handle. -/
def namesHandle (t : Text) : Bool :=
  (t.takeWhile fun c => !endsName (some c)).contains '!'

/-- A tag after its exclamation mark. -/
def readTag (t : Text) : Except Fault (Tag × Text) := do
  let (tag, rest) ←
    match t with
    | '<' :: r => do
        let (uri, rest) ← readSuffix r
        if rest.head? ≠ some '>' then throw .malformed
        pure ((⟨none, uri⟩ : Tag), rest.drop 1)
    | t =>
        if endsWord t.head? then pure ((⟨none, ['!']⟩ : Tag), t)
        else do
          let (handle, rest) ← if namesHandle t then readHandle ('!' :: t) else pure (['!'], t)
          let (uri, rest) ← readSuffix rest
          pure ((⟨some handle, uri⟩ : Tag), rest)
  if endsName rest.head? then return (tag, rest)
  throw .malformed

def readNumber (t : Text) : Except Fault (Nat × Text) :=
  let digits := t.takeWhile Char.isDigit
  if digits.isEmpty then .error .malformed
  else
    match readDigits? digits with
    | some n => .ok (n, t.drop digits.length)
    | none => .error .unreadableNumber

def skipSpacesIn (t : Text) : Text :=
  t.dropWhile (· == ' ')

/-- A directive after its percent sign, without the rest of its line. -/
def readDirective (t : Text) : Except Fault (Directive × Text) := do
  let name := t.takeWhile isWordChar
  let rest := t.drop name.length
  if name.isEmpty || !endsName rest.head? then throw .malformed
  if name = "YAML".toList then
    let (major, rest) ← readNumber (skipSpacesIn rest)
    if rest.head? ≠ some '.' then throw .malformed
    let (minor, rest) ← readNumber (rest.drop 1)
    if !endsName rest.head? then throw .malformed
    return (.version major minor, rest)
  else if name = "TAG".toList then
    let (handle, rest) ← readHandle (skipSpacesIn rest)
    if rest.head? ≠ some ' ' then throw .malformed
    let (uri, rest) ← readSuffix (skipSpacesIn rest)
    if !endsName rest.head? then throw .malformed
    return (.tagHandle handle uri, rest)
  else return (.other, rest.dropWhile fun c => !isBreak c)

def directive (s : Scanner) : Except Fault Scanner := do
  let s ← s.leaveBlocks
  let (d, rest) ← readDirective (s.cursor.rest.drop 1)
  let cursor ← (s.cursor.upTo rest).finishLine
  return { s.push (.directive d) with cursor }

def separator (s : Scanner) (token : Token) : Except Fault Scanner := do
  return (← s.leaveBlocks).take 3 token

/-- A token that can be a key by itself, read by `read` after its first character. -/
def keyLike {α : Type} (s : Scanner) (read : Text → Except Fault (α × Text)) (token : α → Token) :
    Except Fault Scanner := do
  let s ← s.saveCandidate
  let (x, rest) ← read (s.cursor.rest.drop 1)
  return { s.push (token x) with cursor := s.cursor.upTo rest, allowKey := false }

def quotedScalar (s : Scanner) (quote : Char) : Except Fault Scanner :=
  s.keyLike (fun t => readQuoted quote (t.length + 1) t) fun codes => .scalar codes false

def plainScalar (s : Scanner) : Except Fault Scanner := do
  let s ← s.saveCandidate
  let (t, cursor, crossed) :=
    readPlain (s.flowLevel != 0) (s.indent + 1) (s.cursor.rest.length + 1) [] false s.cursor
  return { s.push (.scalar (.ofText t) true) with cursor, allowKey := crossed }

def blockScalar (s : Scanner) (folded : Bool) : Except Fault Scanner := do
  let s ← s.dropCandidate
  let (t, cursor) ← readBlock folded s.indent s.cursor.next
  return { s.push (.scalar (.ofText t) false) with cursor, allowKey := true }

/-- Characters that begin a plain scalar. Three indicators do so too before a character that is no
white space, two of them outside flow brackets only. -/
def startsPlain (s : Scanner) (c : Char) : Bool :=
  (!endsWord (some c) && !"-?:,[]\x7b\x7d#&*!|>'\"%@\x60".toList.contains c)
    || (!endsWord (s.cursor.peekAt 1) && (c == '-' || (s.flowLevel == 0 && (c == '?' || c == ':'))))

/-- One token, from the place where it starts with `c`. -/
def scanToken (s : Scanner) (c : Char) : Except Fault Scanner :=
  let atLineStart := s.cursor.column == 0
  let inFlow := s.flowLevel != 0
  let wordEnds := endsWord (s.cursor.peekAt 1)
  if c = '%' ∧ atLineStart then s.directive
  else if atLineStart && isSeparator documentStart s.cursor.rest then s.separator .documentStart
  else if atLineStart && isSeparator documentEnd s.cursor.rest then s.separator .documentEnd
  else if c = '[' then s.startFlow .flowSequenceStart
  else if c = '{' then s.startFlow .flowMappingStart
  else if c = ']' then s.endFlow .flowSequenceEnd
  else if c = '}' then s.endFlow .flowMappingEnd
  else if c = ',' then s.flowEntry
  else if c = '-' ∧ wordEnds then s.blockEntry
  else if c = '?' ∧ (inFlow || wordEnds) then s.explicitKey
  else if c = ':' ∧ (inFlow || wordEnds) then s.valueMark
  else if c = '*' then s.keyLike readName .aliasOf
  else if c = '&' then s.keyLike readName .anchor
  else if c = '!' then s.keyLike readTag .tag
  else if c = '|' ∧ !inFlow then s.blockScalar false
  else if c = '>' ∧ !inFlow then s.blockScalar true
  else if c = '\'' ∨ c = '"' then s.quotedScalar c
  else if s.startsPlain c then s.plainScalar
  else .error .malformed

/-- Goes on by one token or more. Nothing is left to scan where the end of the text was reached. -/
def step (s : Scanner) : Except Fault (Scanner × Bool) := do
  let s := skipToToken (s.cursor.rest.length + 1) s
  let s := (← s.dropStale).unwindTo s.column
  match s.cursor.peek with
  | none => return ((← s.leaveBlocks).push .streamEnd, true)
  | some c => return (← s.scanToken c, false)

def scan : (fuel : Nat) → Scanner → List Token
  | 0, s => s.settled ++ [.fault .malformed]
  | fuel + 1, s =>
      match s.step with
      | .error f => s.settled ++ [.fault f]
      | .ok (s, true) => s.tokens.toList
      | .ok (s, false) => scan fuel s

end Scanner

/-- Characters that a text may hold at all. -/
def isAllowed (c : Char) : Bool :=
  inRanges [(0x09, 0x0a), (0x0d, 0x0d), (0x20, 0x7e), (0x85, 0x85), (0xa0, 0xd7ff),
    (0xe000, 0xfffd), (0x10000, 0x10ffff)] c.toNat

/-- The tokens of a text; the last one is its end or a fault. -/
def scanTokens (t : Text) : List Token :=
  if t.all isAllowed then
    let t := if t.head? = some '\ufeff' then t.drop 1 else t
    Scanner.scan (t.length + 1) (Scanner.initial t)
  else [.fault .malformed]

end PhpGate.Yaml
