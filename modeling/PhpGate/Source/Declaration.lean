import PhpGate.Diagnostic
import PhpGate.Source.Filter

/-!
Namespace and use declarations, as they are found in raw text: the keyword, white space, a path and
a semicolon. Group use, aliases and the use clause of a closure are no declarations in this sense.
-/

namespace PhpGate.Source

open Text

def declarationKeywords : List Text :=
  ["namespace", "use"].map String.toList

/-- Characters of a path; white space and the brackets and separators of other clauses end it. -/
def isPathChar (c : Char) : Bool :=
  !isBlank c && !";{}(),".toList.contains c

structure Declaration where
  keyword : Text
  space : Text
  path : Text
  tail : Text
  deriving Repr, DecidableEq

namespace Declaration

def text (d : Declaration) : Text :=
  d.keyword ++ d.space ++ d.path ++ d.tail

/-- Reads a declaration at the start of a text, its semicolon included. -/
def read? (t : Text) : Option Declaration :=
  (declarationKeywords.find? (beginsWith · t)).bind fun keyword =>
    let afterKeyword := t.drop keyword.length
    let space := afterKeyword.takeWhile isBlank
    let afterSpace := afterKeyword.drop space.length
    let path := afterSpace.takeWhile isPathChar
    let afterPath := afterSpace.drop path.length
    let gap := afterPath.takeWhile isBlank
    if space.isEmpty || path.isEmpty || (afterPath.drop gap.length).head? != some ';' then none
    else some ⟨t.take keyword.length, space, path, gap ++ [';']⟩

/-- A keyword does not continue a word, a variable or a qualified name. -/
def pattern : Pattern := fun before t =>
  if before.head?.any fun c => isWord c || c == '$' || c == '\\' then none
  else (read? t).map fun d => d.text.length

/-- The declarations of a text, each with its offset. -/
def all (t : Text) : List (Nat × Declaration) :=
  (hits pattern t).filterMap fun (offset, found) => (read? found).map (offset, ·)

end Declaration

def isIdentifierHead (c : Char) : Bool :=
  c.isAlpha || c == '_'

def isIdentifierTail (c : Char) : Bool :=
  c.isAlphanum || c == '_'

/-- Identifiers separated by single backslashes; `opens` says that one has to start here. A line
feed may end the text. -/
def isPathFrom : (opens : Bool) → Text → Bool
  | opens, [] => !opens
  | opens, c :: r =>
      if opens then isIdentifierHead c && isPathFrom false r
      else if c = '\\' then isPathFrom true r
      else if c = '\n' then r.isEmpty
      else isIdentifierTail c && isPathFrom false r

def isValidPath : Text → Bool
  | '\\' :: r => isPathFrom true r
  | t => isPathFrom true t

/-- Rejects the first declaration of the filtered text whose path is no path. The line is that of
the same words in the full text. -/
def checkDeclarations (stripped full : Text) (file : Option Text) : Except Rejection Unit :=
  match (Declaration.all (blankStrings stripped)).find? fun (_, d) => !isValidPath d.path with
  | none => .ok ()
  | some (_, d) =>
      .error (Rejection.of .parse ("Error syntax on: \x60".toList ++ d.text ++ "\x60".toList) file
        (lineOf d.text full))

/-- A declaration reduced to its keyword, with as many line feeds as it had. -/
def bareKeyword (found : Text) : Text :=
  match Declaration.read? found with
  | some d => d.keyword ++ [';'] ++ keepNewlines found
  | none => found

def neutralizeDeclarations (t : Text) : Text :=
  substitute Declaration.pattern bareKeyword t

/-- The length of a declare directive at the start of a text. -/
def declareLength? (t : Text) : Option Nat :=
  if beginsWith "declare".toList t then
    let open_ := 7 + blankLength (t.drop 7)
    if (t.drop open_).head? = some '(' then
      let arguments := ((t.drop (open_ + 1)).takeWhile (· != ')')).length
      let close := open_ + 1 + arguments
      if (t.drop close).head? = some ')' then
        let finish := close + 1 + blankLength (t.drop (close + 1))
        if (t.drop finish).head? = some ';' then some (finish + 1) else none
      else none
    else none
  else none

/-- Drops a declare directive right after the open tag and keeps its line feeds. -/
def stripLeadingDeclare (t : Text) : Text :=
  if beginsWith "<?php".toList t then
    let head := 5 + blankLength (t.drop 5)
    match declareLength? (t.drop head) with
    | some n => t.take head ++ keepNewlines ((t.drop head).take n) ++ t.drop (head + n)
    | none => t
  else t

end PhpGate.Source
