import PhpGate.Text.Basic

/-!
Patterns for file names. A star stands for any text, a question mark for one character, and a class
in brackets for one character inside or outside a set. A whole name has to match.
-/

namespace PhpGate

namespace Text

/-- All suffixes of a text, longest first. -/
def suffixes : Text → List Text
  | [] => [[]]
  | c :: r => (c :: r) :: suffixes r

end Text

namespace Glob

inductive Member where
  | only (c : Char)
  | range (low high : Char)
  deriving Repr, DecidableEq

def Member.contains (c : Char) : Member → Bool
  | only x => c == x
  | range low high => low.toNat ≤ c.toNat && c.toNat ≤ high.toNat

/-- One element of a pattern. -/
inductive Symbol where
  | char (c : Char)
  | anyChar
  | anyText
  | oneOf (members : List Member)
  | noneOf (members : List Member)
  deriving Repr, DecidableEq

/-- The members that the text of a class names; a hyphen between two characters makes a range. -/
def members : Text → List Member
  | low :: '-' :: high :: r => .range low high :: members r
  | c :: r => .only c :: members r
  | [] => []

def Member.isReversed : Member → Bool
  | only _ => false
  | range low high => high.toNat < low.toNat

/-- The members of the text of a class, in which a leading exclamation mark begins no range.
Reversed ranges name nothing. -/
def classMembers (t : Text) : List Member :=
  let all : List Member := match t with
    | '!' :: r => .only '!' :: members r
    | t => members t
  all.filter (!·.isReversed)

/-- A class whose members begin with an exclamation mark matches the other characters. -/
def classSymbol (t : Text) : Symbol :=
  match classMembers t with
  | .only '!' :: rest => .noneOf rest
  | .range '!' high :: rest => .noneOf (.only '-' :: .only high :: rest)
  | all => .oneOf all

/-- The text of the class that begins a text, if its closing bracket is there. A bracket in first
place does not close the class. -/
def classText? (t : Text) : Option Text :=
  let lead := match t with
    | '!' :: ']' :: _ => 2
    | '!' :: _ | ']' :: _ => 1
    | _ => 0
  let rest := t.drop lead
  if rest.contains ']' then some (t.take lead ++ rest.takeWhile (· != ']')) else none

/-- The symbols of a pattern whose next `skip` characters belong to a class already read. -/
def symbolsAfter : (skip : Nat) → Text → List Symbol
  | _, [] => []
  | skip + 1, _ :: r => symbolsAfter skip r
  | 0, c :: r =>
      if c = '*' then .anyText :: symbolsAfter 0 r
      else if c = '?' then .anyChar :: symbolsAfter 0 r
      else if c = '[' then
        match classText? r with
        | some t => classSymbol t :: symbolsAfter (t.length + 1) r
        | none => .char '[' :: symbolsAfter 0 r
      else .char c :: symbolsAfter 0 r

def symbols (pattern : Text) : List Symbol :=
  symbolsAfter 0 pattern

/-- Whether a symbol for one character admits it. -/
def Symbol.admits (c : Char) : Symbol → Bool
  | char x => c == x
  | anyChar => true
  | anyText => false
  | oneOf ms => ms.any (·.contains c)
  | noneOf ms => !ms.any (·.contains c)

/-- What can be left of a name after one more symbol, given what could be left before: suffixes of
the name, longest first. -/
def advance (rests : List Text) (s : Symbol) : List Text :=
  match s with
  | .anyText => (rests.head?.map Text.suffixes).getD []
  | s => rests.filterMap fun
      | c :: r => if s.admits c then some r else none
      | [] => none

/-- Whether a name as a whole matches a pattern. -/
def matchesName (pattern name : Text) : Bool :=
  ((symbols pattern).foldl advance [name]).any List.isEmpty

end Glob
end PhpGate
