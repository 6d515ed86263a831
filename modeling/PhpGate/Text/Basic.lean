/-!
Texts are lists of code points. Here stand the classes and searches that every other module uses:
white space, comparison that ignores case, substring search, and lines.
-/

namespace PhpGate

abbrev Text := List Char

namespace Text

/-- Membership in a list of inclusive ranges of code points. -/
def inRanges (ranges : List (Nat × Nat)) (n : Nat) : Bool :=
  ranges.any fun r => r.1 ≤ n && n ≤ r.2

/-- White space in the sense of Unicode, the separators U+001C to U+001F included. -/
def isBlank (c : Char) : Bool :=
  inRanges [(0x09, 0x0d), (0x1c, 0x20), (0x85, 0x85), (0xa0, 0xa0), (0x1680, 0x1680),
    (0x2000, 0x200a), (0x2028, 0x2029), (0x202f, 0x202f), (0x205f, 0x205f),
    (0x3000, 0x3000)] c.toNat

/-- The number of white-space characters a text begins with. -/
def blankLength (t : Text) : Nat :=
  (t.takeWhile isBlank).length

def trimStart (t : Text) : Text :=
  t.dropWhile isBlank

def trimEnd (t : Text) : Text :=
  t.reverse.dropWhile isBlank |>.reverse

def trim (t : Text) : Text :=
  t.trimStart.trimEnd

/-- The lower-case ASCII letter that a character stands for when case is ignored. Besides the
capitals these are the long s, the Kelvin sign and the dotted and dotless i. -/
def foldCase (c : Char) : Char :=
  if c = 'ſ' then 's'
  else if c = '\u212a' then 'k'
  else if c = 'İ' ∨ c = 'ı' then 'i'
  else c.toLower

/-- Whether a text begins with a lower-case word, case ignored. -/
def beginsWith : (word t : Text) → Bool
  | [], _ => true
  | _ :: _, [] => false
  | w :: ws, c :: cs => foldCase c == w && beginsWith ws cs

/-- The offset of the first place where `needle` stands. -/
def find? (needle : Text) : Text → Option Nat
  | [] => if needle.isEmpty then some 0 else none
  | c :: cs =>
      if needle.isPrefixOf (c :: cs) then some 0 else (find? needle cs).map (· + 1)

/-- The offset of the last place where `needle` stands. -/
def findLast? (needle : Text) : Text → Option Nat
  | [] => if needle.isEmpty then some 0 else none
  | c :: cs =>
      match findLast? needle cs with
      | some n => some (n + 1)
      | none => if needle.isPrefixOf (c :: cs) then some 0 else none

def endsWith (tail t : Text) : Bool :=
  tail.isSuffixOf t

/-- The number of line feeds. -/
def newlines (t : Text) : Nat :=
  t.count '\n'

/-- A number in decimal digits. -/
def ofNat (n : Nat) : Text :=
  Nat.toDigits 10 n

def ofInt : Int → Text
  | .ofNat n => ofNat n
  | .negSucc n => '-' :: ofNat (n + 1)

/-- As many line feeds as `t` holds and nothing else. -/
def keepNewlines (t : Text) : Text :=
  List.replicate t.newlines '\n'

/-! Lines. A line ends at any of the Unicode line boundaries, and a carriage return with the line
feed after it is one boundary. Line numbers of tokens count line feeds only; `lineOf` mixes the two
notions, as its comment says. -/

def isLineBreak (c : Char) : Bool :=
  inRanges [(0x0a, 0x0d), (0x1c, 0x1e), (0x85, 0x85), (0x2028, 0x2029)] c.toNat

/-- The lines of a text after its first `current` characters, which are given in reverse. A
boundary at the very end opens no further line. -/
def linesAfter (current : Text) : Text → List Text
  | [] => if current.isEmpty then [] else [current.reverse]
  | '\r' :: '\n' :: r => current.reverse :: linesAfter [] r
  | c :: r =>
      if isLineBreak c then current.reverse :: linesAfter [] r else linesAfter (c :: current) r

def lines (t : Text) : List Text :=
  linesAfter [] t

/-- The number of the first line that holds `needle`. A needle that no single line holds is placed
by the line feeds before it; an empty or absent one gets 0. -/
def lineOf (needle t : Text) : Nat :=
  if needle.isEmpty then 0
  else match t.lines.findIdx? fun line => (find? needle line).isSome with
    | some n => n + 1
    | none => match find? needle t with
      | some n => newlines (t.take n) + 1
      | none => 0

end Text
end PhpGate
