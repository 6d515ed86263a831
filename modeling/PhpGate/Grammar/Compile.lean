import PhpGate.Grammar.Machine
import PhpGate.Token.Lexer

/-!
Compiling a source without running it: its tokens drive the machine, and the first token, character
or end of file that cannot stand where it stands is the failure.
-/

namespace PhpGate

open Text

inductive CompileFault where
  | unexpectedEnd
  | unexpectedCharacter (c : Char)
  | unexpectedToken (lexeme : Lexeme)
  deriving Repr, DecidableEq

namespace Terminal

/-- How a terminal is called in messages. -/
def label : Terminal → Text
  | variableName => "variable".toList
  | number => "number".toList
  | singleQuoted => "single-quoted string".toList
  | doubleQuoted => "double-quoted string".toList
  | backtick => "backtick string".toList
  | heredoc => "heredoc".toList
  | name => "identifier".toList
  | _ => "token".toList

end Terminal

namespace Lexeme

/-- The text of a lexeme as messages show it: markup by its closing tag alone. -/
def shownText (l : Lexeme) : Text :=
  match l.terminal with
  | .inlineHtml => "?>".toList
  | .openTag => l.text.map Char.toLower
  | _ => l.text

def snippetLimit : Nat := 30

/-- The first line of the text, cut to the limit. -/
def snippet (l : Lexeme) : Text :=
  let first := (lines l.shownText).headD []
  if first.length > snippetLimit then first.take snippetLimit ++ "...".toList else first

end Lexeme

namespace CompileFault

def subject : CompileFault → Text
  | unexpectedEnd => "end of file".toList
  | unexpectedCharacter c => "character '".toList ++ [c] ++ "'".toList
  | unexpectedToken l => l.terminal.label ++ " \"".toList ++ l.snippet ++ "\"".toList

def message (fault : CompileFault) : Text :=
  "syntax error, unexpected ".toList ++ fault.subject

end CompileFault

structure CompileFailure where
  fault : CompileFault
  line : Nat
  deriving Repr, DecidableEq

/-- Runs the machine over tokens up to the first it cannot take. -/
def Machine.run (m : Machine) : List Token → Except Token Machine
  | [] => .ok m
  | token :: rest =>
      match m.step? token.terminal with
      | some next => next.run rest
      | none => .error token

/-- A misplaced token is reported before a character that no terminal takes, because it stands
before it; the end of the file lies on the line after the last line feed. -/
def compile (t : Text) : Except CompileFailure Unit :=
  let lexing := Lexing.of t
  match Machine.initial.run lexing.tokens with
  | .error token => .error ⟨.unexpectedToken token.toLexeme, token.line⟩
  | .ok m =>
      match lexing.stop? with
      | some stop => .error ⟨.unexpectedCharacter stop.char, stop.line⟩
      | none => if m.accepts then .ok () else .error ⟨.unexpectedEnd, t.newlines + 1⟩

end PhpGate
