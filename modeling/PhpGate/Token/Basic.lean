import PhpGate.Text.Basic

/-!
Terminals of PHP source as a structural check sees it, and tokens: a terminal, its text and where it
stands.
-/

namespace PhpGate

inductive Terminal where
  | inlineHtml | openTag | heredoc | anonymousClass | lineComment | blockComment
  | doubleQuoted | backtick | singleQuoted | keywordOperator | classKeyword | matchKeyword
  | name | number | variableName | ellipsis | increment | colon | operator | expressionBrace
  | blank | attributeBracket | comma | openBrace | openParen | openBracket
  | closeBrace | closeParen | closeBracket | semicolon
  deriving Repr, DecidableEq, Inhabited

namespace Terminal

/-- The order in which terminals are tried; the first that matches wins, not the longest. -/
def inOrder : List Terminal :=
  [inlineHtml, openTag, heredoc, anonymousClass, lineComment, blockComment,
   doubleQuoted, backtick, singleQuoted, keywordOperator, classKeyword, matchKeyword,
   name, number, variableName, ellipsis, increment, colon, operator, expressionBrace,
   blank, attributeBracket, comma, openBrace, openParen, openBracket,
   closeBrace, closeParen, closeBracket, semicolon]

/-- Blanks and comments separate tokens and are none themselves. -/
def isTrivia : Terminal → Bool
  | blank | lineComment | blockComment => true
  | _ => false

end Terminal

structure Lexeme where
  terminal : Terminal
  text : Text
  deriving Repr, DecidableEq

/-- A lexeme with the number of characters before it and its line, counted from 1. -/
structure Token extends Lexeme where
  offset : Nat
  line : Nat
  deriving Repr, DecidableEq

end PhpGate
