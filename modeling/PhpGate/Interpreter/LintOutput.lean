import PhpGate.Text.Digit
import PhpGate.Text.Pieces

/-!
What an interpreter says about a source it was given to check. Only the first line that is not blank
counts. A label in front and the place of the checked file are taken away, the line number is kept.
-/

namespace PhpGate

open Text

structure LintReport where
  message : Text
  line : Nat
  deriving Repr, DecidableEq

namespace LintReport

def firstLine (output : Text) : Text :=
  (((lines output).map trim).find? (!·.isEmpty)).getD []

/-- Skips white space, one character of it at least. -/
def afterBlanks? (t : Text) : Option Text :=
  match blankLength t with
  | 0 => none
  | n => some (t.drop n)

/-- The digits of a phrase of the form `on line 12`, in any case, at the start of a text. -/
def onLineDigits? (t : Text) : Option Text := do
  let t ← if beginsWith "on".toList t then afterBlanks? (t.drop 2) else none
  let t ← if beginsWith "line".toList t then afterBlanks? (t.drop 4) else none
  let digits := t.takeWhile isDecimalDigit
  if digits.isEmpty then none else some digits

def firstLineNumber? : Text → Option Text
  | [] => none
  | c :: r =>
      match onLineDigits? (c :: r) with
      | some digits => some digits
      | none => firstLineNumber? r

def isLabelChar (c : Char) : Bool :=
  c.isAlpha || c == ' '

/-- Drops a label: letters and spaces, a colon, and white space. -/
def dropLabel (t : Text) : Text :=
  let label := (t.takeWhile isLabelChar).length
  if t.head?.any Char.isAlpha && (t.drop label).head? == some ':' then
    (afterBlanks? (t.drop (label + 1))).getD t
  else t

/-- The length of `on line 12` after white space, in lower case. -/
def lineSuffixLength (t : Text) : Nat :=
  let found : Option Nat := do
    let rest ← afterBlanks? t
    let rest ← if "on".toList.isPrefixOf rest then afterBlanks? (rest.drop 2) else none
    let rest ← if "line".toList.isPrefixOf rest then afterBlanks? (rest.drop 4) else none
    let digits := (rest.takeWhile isDecimalDigit).length
    if digits = 0 then none else some (t.length - rest.length + digits)
  found.getD 0

/-- The place of the checked file: white space, `in`, white space, the path, and perhaps a line. The
path may itself begin with white space, so the second gap is tried from its longest extent down. -/
def placePattern (path : Text) : Pattern := fun _ t =>
  match blankLength t with
  | 0 => none
  | before =>
      let rest := t.drop before
      if "in".toList.isPrefixOf rest then
        let rest := rest.drop 2
        let gap := (List.range (blankLength rest)).reverse.find? fun n =>
          path.isPrefixOf (rest.drop (n + 1))
        gap.map fun n =>
          let length := before + 2 + (n + 1) + path.length
          length + lineSuffixLength (t.drop length)
      else none

def dropPlace (path t : Text) : Text :=
  substitute (placePattern path) (fun _ => []) t

/-- Reads the output on the file at `path`; nothing is answered if its line number has too many
digits. -/
def read? (path output : Text) : Option LintReport :=
  match firstLine output with
  | [] => some ⟨"Syntax check failed".toList, 0⟩
  | first =>
      let message := trim (dropPlace path (dropLabel first))
      match firstLineNumber? first with
      | none => some ⟨message, 0⟩
      | some digits => (readDigits? digits).map fun line => ⟨message, line⟩

end LintReport
end PhpGate
