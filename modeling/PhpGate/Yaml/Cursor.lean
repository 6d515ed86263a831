import PhpGate.Text.Codes

/-!
Why a YAML text gives no value, a place in such a text and the characters that matter there. Carriage returns are gone from the
text; a line ends in a line feed or in one of three Unicode line breaks, of which the next-line
character counts as a line feed.
-/

namespace PhpGate.Yaml

open Text

/-- Why a text gives no value. -/
inductive Fault where
  /-- The text is no document, or a tag does not fit its node. -/
  | malformed
  /-- A number is written wrongly or lies out of its range. -/
  | unreadableNumber
  | numberTooLarge
  /-- A number without a single character. -/
  | emptyNumber
  /-- No truth value is called by this word. -/
  | unknownTruth (word : Codes)
  /-- What should be a point in time is not written like one. -/
  | noTime
  /-- A point in time is the default value of a mapping. -/
  | timeInMapping
  /-- Nodes stand too deep inside one another. -/
  | tooDeep
  deriving Repr, DecidableEq

structure Cursor where
  rest : Text
  index : Nat
  line : Nat
  column : Nat
  deriving Repr, DecidableEq

def isBreak (c : Char) : Bool :=
  c == '\n' || c == '\u0085' || c == '\u2028' || c == '\u2029'

/-- A line break as it counts in a value. -/
def breakValue (c : Char) : Char :=
  if c = '\u0085' then '\n' else c

def isSpaceOrTab (c : Char) : Bool :=
  c == ' ' || c == '\t'

/-- The end of a line or of the text. -/
def endsLine : Option Char → Bool
  | none => true
  | some c => isBreak c

def endsName : Option Char → Bool
  | some ' ' => true
  | c => endsLine c

def endsWord : Option Char → Bool
  | some '\t' => true
  | c => endsName c

/-- The line that separates documents, or the one that ends a document, at the start of a text. -/
def isSeparator (marker t : Text) : Bool :=
  marker.isPrefixOf t && endsWord (t.drop 3).head?

def documentStart : Text := "---".toList
def documentEnd : Text := "...".toList

def startsSeparator (t : Text) : Bool :=
  isSeparator documentStart t || isSeparator documentEnd t

namespace Cursor

def peek (c : Cursor) : Option Char :=
  c.rest.head?

def peekAt (c : Cursor) (n : Nat) : Option Char :=
  (c.rest.drop n).head?

def next (c : Cursor) : Cursor :=
  match c.rest with
  | [] => c
  | x :: r =>
      if isBreak x then ⟨r, c.index + 1, c.line + 1, 0⟩
      else ⟨r, c.index + 1, c.line, if x = '\ufeff' then c.column else c.column + 1⟩

def advance (c : Cursor) : Nat → Cursor
  | 0 => c
  | n + 1 => c.next.advance n

/-- Goes on to a text that is left over from this one. -/
def upTo (c : Cursor) (rest : Text) : Cursor :=
  c.advance (c.rest.length - rest.length)

def skipWhile (c : Cursor) (p : Char → Bool) : Cursor :=
  c.advance (c.rest.takeWhile p).length

def skipSpaces (c : Cursor) : Cursor :=
  c.skipWhile (· == ' ')

/-- Skips a comment, up to the end of its line. -/
def skipComment (c : Cursor) : Cursor :=
  if c.peek == some '#' then c.skipWhile fun x => !isBreak x else c

/-- The line break here, if there is one, and the place after it. -/
def lineBreak? (c : Cursor) : Option (Char × Cursor) :=
  match c.peek with
  | some x => if isBreak x then some (breakValue x, c.next) else none
  | none => none

/-- The rest of a line that may hold a comment and nothing else. -/
def finishLine (c : Cursor) : Except Fault Cursor :=
  let c := c.skipSpaces.skipComment
  if endsLine c.peek then .ok ((c.lineBreak?.map Prod.snd).getD c) else .error .malformed

end Cursor
end PhpGate.Yaml
