import PhpGate.Token.Lexer

/-!
What is said about a place where lexing stops. The description ends in the line it started on, and
the report splits that line off again.
-/

namespace PhpGate

open Text

inductive LexicalFault where
  | unterminatedComment | unterminatedString | unexpectedCharacter (c : Char) | unexpectedEnd
  deriving Repr, DecidableEq

namespace LexicalFault

def message : LexicalFault → Text
  | unterminatedComment => "Unterminated comment".toList
  | unterminatedString => "Unterminated string".toList
  | unexpectedCharacter c =>
      "Unexpected character in input: '".toList ++ [c] ++ "' (ASCII=".toList ++ ofNat c.toNat
        ++ ")".toList
  | unexpectedEnd => "Unexpected end of input".toList

def startingLine : Text := " starting line ".toList

def describe (fault : LexicalFault) (line : Int) : Text :=
  fault.message ++ startingLine ++ ofInt line

def ofCharacter (c : Char) (opensComment : Bool) : LexicalFault :=
  if opensComment then unterminatedComment
  else if c = '\'' ∨ c = '"' ∨ c = '\x60' then unterminatedString
  else unexpectedCharacter c

/-- The fault at an offset of a text. Outside the text the first character of `fallback` counts. -/
def ofOffset (t : Text) (offset : Option Int) (fallback : Text) : LexicalFault :=
  match offset.filter fun (k : Int) => 0 ≤ k && k < (t.length : Int) with
  | some k =>
      match t.drop k.toNat with
      | c :: r => ofCharacter c (c == '/' && r.head? == some '*')
      | [] => unexpectedEnd
  | none =>
      match fallback with
      | c :: _ => ofCharacter c false
      | [] => unexpectedEnd

end LexicalFault

/-- A report with its line; 0 if none is known. -/
structure LexicalReport where
  message : Text
  line : Nat
  deriving Repr, DecidableEq

/-- The digits of a text of the form `starting line 12`, in which white space may stand between the
parts and after them and case is ignored. -/
def startingLineDigits? (t : Text) : Option Text :=
  if beginsWith "starting".toList t then
    let t := trimStart (t.drop 8)
    if beginsWith "line".toList t then
      let t := trimStart (t.drop 4)
      let digits := t.takeWhile Char.isDigit
      if !digits.isEmpty && (t.drop digits.length).all isBlank then some digits else none
    else none
  else none

/-- A number with more digits than may be read. -/
inductive NumberFault where
  | tooManyDigits
  deriving Repr, DecidableEq

/-- The last place where the line number of a description starts, with what stands before it. -/
def splitStartingLine (before : Text) : Text → Option (Text × Text)
  | [] => none
  | c :: r =>
      match splitStartingLine (c :: before) r with
      | some found => some found
      | none => (startingLineDigits? (c :: r)).map fun digits => (before.reverse, digits)

namespace LexicalReport

/-- Splits a description into message and line. A text without a line is kept as it is. -/
def ofDescription (t : Text) : Except NumberFault LexicalReport :=
  match splitStartingLine [] t with
  | none => .ok ⟨t, 0⟩
  | some (message, digits) =>
      match readDigits? digits with
      | some n => .ok ⟨trim message, n⟩
      | none => .error .tooManyDigits

end LexicalReport

/-- The report on a source that the lexer does not consume. -/
def lexicalReport? (t : Text) : Except NumberFault (Option LexicalReport) :=
  match (Lexing.of t).stop? with
  | none => .ok none
  | some stop =>
      let fault := LexicalFault.ofOffset t (some stop.offset) [stop.char]
      (LexicalReport.ofDescription (fault.describe stop.line)).map some

end PhpGate
