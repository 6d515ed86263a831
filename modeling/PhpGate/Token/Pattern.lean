import PhpGate.Text.Word
import PhpGate.Text.Digit
import PhpGate.Text.Pieces
import PhpGate.Token.Basic

/-!
What each terminal matches. A pattern answers with the length of its match at the start of a text;
some also look at the text before, which is given in reverse. No pattern needs to reconsider a
choice: at every place at most one way of going on can succeed.
-/

namespace PhpGate

open Text

/-- The open tag of PHP code, in the long form or as an echo. -/
def openTagLength? : Text → Option Nat
  | '<' :: '?' :: '=' :: _ => some 3
  | '<' :: '?' :: r => if beginsWith "php".toList r then some 5 else none
  | _ => none

/-- Markup runs up to the next open tag, which it takes along, or to the end of the text. -/
def markupLength : Text → Nat
  | [] => 0
  | c :: r =>
      match openTagLength? (c :: r) with
      | some n => n
      | none => markupLength r + 1

def isIdentifierStart (c : Char) : Bool :=
  c.isAlpha || c == '_' || (0x80 ≤ c.toNat && c.toNat ≤ 0xffff)

def isIdentifierPart (c : Char) : Bool :=
  isWord c || (0x80 ≤ c.toNat && c.toNat ≤ 0xffff)

def identifierLength? : Text → Option Nat
  | c :: r => if isIdentifierStart c then some ((r.takeWhile isIdentifierPart).length + 1) else none
  | [] => none

/-- What follows the first identifier of a qualified name: separators, each with or without a
further identifier. `afterSeparator` says whether an identifier would start here. -/
def qualifiedTail : (afterSeparator : Bool) → Text → Nat
  | _, [] => 0
  | afterSeparator, c :: r =>
      if c = '\\' then qualifiedTail true r + 1
      else if (if afterSeparator then isIdentifierStart c else isIdentifierPart c) then
        qualifiedTail false r + 1
      else 0

def nameLength? : Text → Option Nat
  | '\\' :: c :: r => if isIdentifierStart c then some (qualifiedTail false r + 2) else none
  | c :: r => if isIdentifierStart c then some (qualifiedTail false r + 1) else none
  | [] => none

/-- A quoted text up to its closing quote; a backslash takes the next character along. -/
def quotedLength? (quote : Char) : Text → Option Nat
  | [] => none
  | '\\' :: _ :: r => (quotedLength? quote r).map (· + 2)
  | c :: r =>
      if c = quote then some 1
      else if c = '\\' then none
      else (quotedLength? quote r).map (· + 1)

/-- The states inside a double-quoted text: plain text, or an interpolation that runs to the next
closing brace whatever quotes it holds. -/
inductive Interpolation where
  | outside | inside
  deriving Repr, DecidableEq

def interpolatedLength? : Interpolation → Text → Option Nat
  | _, [] => none
  | .inside, c :: r =>
      (interpolatedLength? (if c = '}' then .outside else .inside) r).map (· + 1)
  | .outside, '\\' :: _ :: r => (interpolatedLength? .outside r).map (· + 2)
  | .outside, '{' :: '$' :: r => (interpolatedLength? .inside r).map (· + 2)
  | .outside, c :: r =>
      if c = '"' then some 1
      else if c = '\\' then none
      else (interpolatedLength? .outside r).map (· + 1)

/-- The rest of a line comment ends before a line feed, a carriage return or a closing tag. -/
def lineCommentTail : Text → Nat
  | [] => 0
  | '?' :: '>' :: _ => 0
  | c :: r => if c = '\r' ∨ c = '\n' then 0 else lineCommentTail r + 1

/-- The rest of a block comment, its end included. -/
def blockCommentTail? : Text → Option Nat
  | [] => none
  | '*' :: '/' :: _ => some 2
  | _ :: r => (blockCommentTail? r).map (· + 1)

def lineCommentLength? : Text → Option Nat
  | '/' :: '/' :: r => some (lineCommentTail r + 2)
  | '#' :: '[' :: _ => none
  | '#' :: r => some (lineCommentTail r + 1)
  | _ => none

def blockCommentLength? : Text → Option Nat
  | '/' :: '*' :: r => (blockCommentTail? r).map (· + 2)
  | _ => none

def isTabOrSpace (c : Char) : Bool :=
  c == ' ' || c == '\t'

def lineBreakLength? : Text → Option Nat
  | '\n' :: _ => some 1
  | '\r' :: '\n' :: _ => some 2
  | _ => none

/-- The opening line of a heredoc: its label and the length up to and including the line break. -/
def heredocOpening? : Text → Option (Text × Nat)
  | '<' :: '<' :: '<' :: r =>
      let indent := (r.takeWhile isTabOrSpace).length
      let quote : Text := (r.drop indent).head?.toList.filter fun c => c == '"' || c == '\''
      let body := r.drop (indent + quote.length)
      (identifierLength? body).bind fun n =>
        let rest := body.drop n
        if quote.isPrefixOf rest then
          (lineBreakLength? (rest.drop quote.length)).map fun k =>
            (body.take n, 3 + indent + quote.length + n + quote.length + k)
        else none
  | _ => none

/-- The closing label of a heredoc at the start of a line, which may be indented. -/
def heredocClosing? (label t : Text) : Option Nat :=
  let indent := (t.takeWhile isTabOrSpace).length
  let n := indent + label.length
  if label.isPrefixOf (t.drop indent) && isBoundary label.getLast? (t.drop n).head? then some n
  else none

/-- The lines of a heredoc up to and including the first closing label. -/
def heredocBody? (label : Text) : (lineStart : Bool) → Text → Option Nat
  | _, [] => none
  | lineStart, c :: r =>
      match if lineStart then heredocClosing? label (c :: r) else none with
      | some n => some n
      | none => (heredocBody? label (c == '\n') r).map (· + 1)

def heredocLength? (t : Text) : Option Nat :=
  (heredocOpening? t).bind fun (label, n) => (heredocBody? label true (t.drop n)).map (n + ·)

/-- A text that stands right after `->` or `::`. -/
def followsMember : (before : Text) → Bool
  | '>' :: '-' :: _ | ':' :: ':' :: _ => true
  | _ => false

/-- Keywords start no word, variable, qualified name or member name already begun. -/
def startsKeyword (before : Text) : Bool :=
  !(before.head?.any fun c => isWord c || c == '$' || c == '\\') && !followsMember before

/-- The first of some words that stands at the start of a text as a whole word. -/
def wordLength? (words : List Text) (t : Text) : Option Nat :=
  words.findSome? fun w =>
    if beginsWith w t && !(t.drop w.length).head?.any isWord then some w.length else none

def keywordOperators : List Text :=
  ["and", "or", "xor", "as", "instanceof", "insteadof"].map String.toList

def classKeywords : List Text :=
  ["class", "interface", "trait"].map String.toList

/-- A colon that is not half of a scope operator. -/
def startsColon : Text → Bool
  | ':' :: ':' :: _ => false
  | ':' :: _ => true
  | _ => false

def anonymousClassLength? (before t : Text) : Option Nat :=
  if startsKeyword before && beginsWith "new".toList t then
    match blankLength (t.drop 3) with
    | 0 => none
    | n => (wordLength? ["class".toList] (t.drop (3 + n))).map (3 + n + ·)
  else none

def keywordOperatorLength? (before t : Text) : Option Nat :=
  if startsKeyword before then wordLength? keywordOperators t else none

/-- A class keyword before a colon is the name of an argument. -/
def classKeywordLength? (before t : Text) : Option Nat :=
  if startsKeyword before then
    (wordLength? classKeywords t).filter fun n => !startsColon (trimStart (t.drop n))
  else none

/-- A function may be called `match`. -/
def followsFunction (before : Text) : Bool :=
  (before.take 9).reverse.map foldCase == "function ".toList

def matchKeywordLength? (before t : Text) : Option Nat :=
  if startsKeyword before && !followsFunction before && beginsWith "match".toList t
      && (trimStart (t.drop 5)).head? == some '(' then some 5
  else none

/-- The exponent of a number; without digits there is none. -/
def exponentLength : Text → Nat
  | [] => 0
  | e :: r =>
      let sign := if r.head? == some '+' || r.head? == some '-' then 1 else 0
      let digits := ((r.drop sign).takeWhile isDecimalDigit).length
      if (e == 'e' || e == 'E') && digits != 0 then 1 + sign + digits else 0

def fractionLength : Text → Nat
  | '.' :: r => (r.takeWhile isDecimalDigit).length + 1
  | _ => 0

/-- A number starts with a digit, or with a point and a digit. In the first form letters may follow
the digits; a fraction and an exponent come after them. -/
def numberLength? : Text → Option Nat
  | [] => none
  | '.' :: d :: r => if isDecimalDigit d then some ((r.takeWhile isWord).length + 2) else none
  | d :: r =>
      if isDecimalDigit d then
        let whole := (r.takeWhile isWord).length
        let fraction := fractionLength (r.drop whole)
        some (1 + whole + fraction + exponentLength (r.drop (whole + fraction)))
      else none

def variableLength? : Text → Option Nat
  | '$' :: r =>
      let more := (r.takeWhile (· == '$')).length
      some (1 + more + (identifierLength? (r.drop more)).getD 0)
  | _ => none

/-- Characters of operators; a question mark must not close the tag nor a slash open a comment. -/
def continuesOperator (c : Char) (next : Option Char) : Bool :=
  if c == '?' then next != some '>'
  else if c == '/' then next != some '*' && next != some '/'
  else "-+*%=<>!&|^~.:@".toList.contains c

def operatorRun : Text → Nat
  | [] => 0
  | c :: r => if continuesOperator c r.head? then operatorRun r + 1 else 0

/-- Braces that open an expression follow an arrow, a scope operator, a dollar or a backslash. -/
def followsExpression (before : Text) : Bool :=
  followsMember before || before.head? == some '$' || before.head? == some '\\'

/-- The length of a fixed text, if it stands here. -/
def fixedLength? (word t : Text) : Option Nat :=
  if word.isPrefixOf t then some word.length else none

/-- A length that counts as no match when it is zero. -/
def someLength (n : Nat) : Option Nat :=
  if n = 0 then none else some n

/-- How many characters a terminal takes at the start of `t`, if it matches there. -/
def Terminal.length? (before t : Text) : Terminal → Option Nat
  | inlineHtml => match t with
      | '?' :: '>' :: r => some (markupLength r + 2)
      | _ => none
  | openTag => openTagLength? t
  | heredoc => heredocLength? t
  | anonymousClass => anonymousClassLength? before t
  | lineComment => lineCommentLength? t
  | blockComment => blockCommentLength? t
  | doubleQuoted => match t with
      | '"' :: r => (interpolatedLength? .outside r).map (· + 1)
      | _ => none
  | backtick => match t with
      | '\x60' :: r => (quotedLength? '\x60' r).map (· + 1)
      | _ => none
  | singleQuoted => match t with
      | '\'' :: r => (quotedLength? '\'' r).map (· + 1)
      | _ => none
  | keywordOperator => keywordOperatorLength? before t
  | classKeyword => classKeywordLength? before t
  | matchKeyword => matchKeywordLength? before t
  | name => nameLength? t
  | number => numberLength? t
  | variableName => variableLength? t
  | ellipsis => fixedLength? "...".toList t
  | increment => if ("++".toList.isPrefixOf t) || ("--".toList.isPrefixOf t) then some 2 else none
  | colon => if startsColon t then some 1 else none
  | operator => someLength (operatorRun t)
  | expressionBrace => if followsExpression before then fixedLength? ['{'] t else none
  | blank => someLength (blankLength t)
  | attributeBracket => fixedLength? "#[".toList t
  | comma => fixedLength? [','] t
  | openBrace => fixedLength? ['{'] t
  | openParen => fixedLength? ['('] t
  | openBracket => fixedLength? ['['] t
  | closeBrace => fixedLength? ['}'] t
  | closeParen => fixedLength? [')'] t
  | closeBracket => fixedLength? [']'] t
  | semicolon => fixedLength? [';'] t

end PhpGate
