import PhpGate.Token.Pattern

/-!
The lexer. At each place the first terminal in order that matches takes its text; where none matches
lexing stops. Lexemes include blanks and comments, tokens do not.
-/

namespace PhpGate

open Text

/-- The terminal that wins at a place, with the length of its text. -/
def Terminal.first? (before t : Text) : Option (Terminal × Nat) :=
  Terminal.inOrder.findSome? fun k => (k.length? before t).map fun n => (k, n)

/-- The lexemes of a text, and what is left from the first place where no terminal matches. -/
structure Lexing where
  lexemes : List Lexeme
  rest : Text
  deriving Repr, DecidableEq

namespace Lexing

def add (l : Lexeme) (s : Lexing) : Lexing :=
  { s with lexemes := l :: s.lexemes }

/-- Lexes a text whose next `skip` characters belong to a lexeme already taken. -/
def scanAfter (before : Text) : (skip : Nat) → Text → Lexing
  | _, [] => ⟨[], []⟩
  | skip + 1, c :: r => scanAfter (c :: before) skip r
  | 0, c :: r =>
      match Terminal.first? before (c :: r) with
      | some (k, n + 1) => add ⟨k, c :: r.take n⟩ (scanAfter (c :: before) n r)
      | _ => ⟨[], c :: r⟩

def of (t : Text) : Lexing :=
  scanAfter [] 0 t

/-- Every lexeme with its place, the first at the given offset and line. -/
def locateFrom (offset line : Nat) : List Lexeme → List Token
  | [] => []
  | l :: ls => ⟨l, offset, line⟩ :: locateFrom (offset + l.text.length) (line + l.text.newlines) ls

def tokens (s : Lexing) : List Token :=
  (locateFrom 0 1 s.lexemes).filter fun token => !token.terminal.isTrivia

/-- The text that the lexemes cover. -/
def consumed (s : Lexing) : Text :=
  s.lexemes.flatMap Lexeme.text

def complete (s : Lexing) : Bool :=
  s.rest.isEmpty

end Lexing

/-- Where lexing stopped: the character that no terminal takes, its offset and its line. -/
structure LexicalStop where
  char : Char
  offset : Nat
  line : Nat
  deriving Repr, DecidableEq

namespace Lexing

def stop? (s : Lexing) : Option LexicalStop :=
  s.rest.head?.map fun c => ⟨c, s.consumed.length, s.consumed.newlines + 1⟩

end Lexing

def tokens (t : Text) : List Token :=
  (Lexing.of t).tokens

end PhpGate
