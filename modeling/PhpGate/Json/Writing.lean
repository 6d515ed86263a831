import PhpGate.Json.Basic
import PhpGate.Number.Writing

/-!
JSON text with sorted keys: a compact form in ASCII, which serves as the canonical text of a value,
and an indented form that keeps other characters as they are.
-/

namespace PhpGate.Json

open Text

def hexDigits (width n : Nat) : Text :=
  let digits := Nat.toDigits 16 n
  List.replicate (width - digits.length) '0' ++ digits

def unicodeEscape (n : Nat) : Text :=
  "\\u".toList ++ hexDigits 4 n

/-- A character above U+FFFF is written as a pair of surrogates. -/
def escapeBeyondAscii (c : Char) : Text :=
  if c.toNat < 0x10000 then unicodeEscape c.toNat
  else
    let n := c.toNat - 0x10000
    unicodeEscape (0xd800 + n / 0x400) ++ unicodeEscape (0xdc00 + n % 0x400)

def escapeChar (ascii : Bool) (c : Char) : Text :=
  match c with
  | '"' => "\\\"".toList
  | '\\' => "\\\\".toList
  | '\n' => "\\n".toList
  | '\r' => "\\r".toList
  | '\t' => "\\t".toList
  | '\x08' => "\\b".toList
  | '\x0c' => "\\f".toList
  | c =>
      if c.toNat < 0x20 then unicodeEscape c.toNat
      else if ascii && 0x7f ≤ c.toNat then escapeBeyondAscii c
      else [c]

def quote (ascii : Bool) (t : Text) : Text :=
  ['"'] ++ t.flatMap (escapeChar ascii) ++ ['"']

def writeFloat : Binary64 → Text
  | .nan => "NaN".toList
  | .infinite negative => (if negative then ['-'] else []) ++ "Infinity".toList
  | x => x.text

def writeScalar (ascii : Bool) : Json → Text
  | null => "null".toList
  | bool true => "true".toList
  | bool false => "false".toList
  | int n => ofInt n
  | float x => writeFloat x
  | string t => quote ascii t
  | array _ | object _ => []

/-- Sorts the members of every object by key. -/
def sorted : Json → Json
  | array items => array (sortedItems items)
  | object members => object (sortKeys (sortedMembers members))
  | scalar => scalar
where
  sortedItems : List Json → List Json
    | [] => []
    | x :: xs => x.sorted :: sortedItems xs
  sortedMembers : List (Text × Json) → List (Text × Json)
    | [] => []
    | (k, v) :: r => (k, v.sorted) :: sortedMembers r

/-- The compact text of a value as it stands, without any space. -/
def compact (ascii : Bool) : Json → Text
  | array items => ['['] ++ compactItems items ++ [']']
  | object members => ['{'] ++ compactMembers members ++ ['}']
  | scalar => writeScalar ascii scalar
where
  compactItems : List Json → Text
    | [] => []
    | [x] => x.compact ascii
    | x :: xs => x.compact ascii ++ [','] ++ compactItems xs
  compactMembers : List (Text × Json) → Text
    | [] => []
    | [(k, v)] => quote ascii k ++ [':'] ++ v.compact ascii
    | (k, v) :: r => quote ascii k ++ [':'] ++ v.compact ascii ++ [','] ++ compactMembers r

/-- The canonical text: equal for values that differ only in the order of members. -/
def canonical (j : Json) : Text :=
  j.sorted.compact true

def newLine (depth : Nat) : Text :=
  '\n' :: List.replicate (2 * depth) ' '

/-- The text of a value as it stands, with one item or member a line, indented by two. Empty
containers stay on their line. -/
def indented (depth : Nat) : Json → Text
  | array [] => "[]".toList
  | object [] => "\x7b\x7d".toList
  | array items => ['['] ++ indentedItems items ++ newLine depth ++ [']']
  | object members => ['{'] ++ indentedMembers members ++ newLine depth ++ ['}']
  | scalar => writeScalar false scalar
where
  indentedItems : List Json → Text
    | [] => []
    | [x] => newLine (depth + 1) ++ x.indented (depth + 1)
    | x :: xs => newLine (depth + 1) ++ x.indented (depth + 1) ++ [','] ++ indentedItems xs
  indentedMembers : List (Text × Json) → Text
    | [] => []
    | [(k, v)] => newLine (depth + 1) ++ quote false k ++ ": ".toList ++ v.indented (depth + 1)
    | (k, v) :: r =>
        newLine (depth + 1) ++ quote false k ++ ": ".toList ++ v.indented (depth + 1) ++ [',']
          ++ indentedMembers r

/-- The text of a written file: sorted, indented, with a line feed at its end. -/
def document (j : Json) : Text :=
  j.sorted.indented 0 ++ ['\n']

end PhpGate.Json
