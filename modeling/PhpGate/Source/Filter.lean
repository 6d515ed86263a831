import PhpGate.Diagnostic
import PhpGate.Text.Pieces
import PhpGate.Token.Pattern

/-!
What is done with raw text before any token is known. One filter removes comments and one empties
quoted strings; both keep every line feed and read heredocs and markup as if they were code. A source
has to begin with the long open tag, and nothing may follow a final closing tag.
-/

namespace PhpGate.Source

open Text

/-- A string in single or double quotes; interpolation is not looked at. -/
def stringLength? : Text → Option Nat
  | c :: r => if c = '\'' ∨ c = '"' then (quotedLength? c r).map (· + 1) else none
  | [] => none

def stringPattern : Pattern := fun _ t => stringLength? t

/-- Strings are found as well as comments, so that a comment does not start inside one. -/
def commentOrStringPattern : Pattern := fun _ t =>
  match stringLength? t with
  | some n => some n
  | none =>
      match blockCommentLength? t with
      | some n => some n
      | none => lineCommentLength? t

/-- A string stays, a block comment leaves its line feeds and a line comment nothing. -/
def dropComment (t : Text) : Text :=
  if t.head? = some '\'' ∨ t.head? = some '"' then t else keepNewlines t

def stripComments (t : Text) : Text :=
  substitute commentOrStringPattern dropComment t

/-- The quotes of a string around its line feeds. -/
def emptyString (t : Text) : Text :=
  t.head?.toList ++ keepNewlines t ++ t.getLast?.toList

def blankStrings (t : Text) : Text :=
  substitute stringPattern emptyString t

def openTag : Text := "<?php".toList
def closeTag : Text := "?>".toList

def checkOpenTag (t : Text) (file : Option Text) : Except Rejection Unit :=
  if (t.take openTag.length).map Char.toLower = openTag then .ok ()
  else
    .error (Rejection.of .openTag
      "Invalid open tag that not start with <?php or maybe contains white space".toList file 1)

/-- The offset after which text goes on behind the last closing tag, if the text without comments
ends in that tag and the text itself does not. -/
def trailingBuffer? (t stripped : Text) : Option Nat :=
  if endsWith closeTag (trimEnd stripped) && !endsWith closeTag t then
    some ((findLast? closeTag t).elim 0 (· + 1))
  else none

def checkTrailingBuffer (t stripped : Text) (file : Option Text) : Except Rejection Unit :=
  match trailingBuffer? t stripped with
  | none => .ok ()
  | some offset =>
      .error (Rejection.of .buffer "File content buffer on after closing php tag".toList file
        offset)

end PhpGate.Source
