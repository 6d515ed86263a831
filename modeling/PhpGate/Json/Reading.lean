import PhpGate.Json.Basic
import PhpGate.Number.Reading

/-!
Reading JSON text. Of several members with one key the last gives the value and the first the place.
A number with a point or an exponent is a floating-point number, any other a whole number. NaN and
the infinities are read by their names.
-/

namespace PhpGate.Json

open Text

def isSpace (c : Char) : Bool :=
  c == ' ' || c == '\n' || c == '\r' || c == '\t'

def skipSpace (t : Text) : Text :=
  t.dropWhile isSpace

/-- Four hexadecimal digits. -/
def readUnit? : Text → Option (Nat × Text)
  | a :: b :: c :: d :: r => do
      let a ← hexDigit? a
      let b ← hexDigit? b
      let c ← hexDigit? c
      let d ← hexDigit? d
      return (((a * 16 + b) * 16 + c) * 16 + d, r)
  | _ => none

/-- The character after a backslash; two units that form a surrogate pair are one character. -/
def readEscape? : Text → Option (Char × Text)
  | '"' :: r => some ('"', r)
  | '\\' :: r => some ('\\', r)
  | '/' :: r => some ('/', r)
  | 'n' :: r => some ('\n', r)
  | 'r' :: r => some ('\r', r)
  | 't' :: r => some ('\t', r)
  | 'b' :: r => some ('\x08', r)
  | 'f' :: r => some ('\x0c', r)
  | 'u' :: r =>
      (readUnit? r).bind fun (unit, r) =>
        if 0xd800 ≤ unit ∧ unit < 0xdc00 then
          match r with
          | '\\' :: 'u' :: r =>
              (readUnit? r).bind fun (low, r) =>
                if 0xdc00 ≤ low ∧ low < 0xe000 then
                  some (Char.ofNat (0x10000 + (unit - 0xd800) * 0x400 + (low - 0xdc00)), r)
                else none
          | _ => none
        else if 0xdc00 ≤ unit ∧ unit < 0xe000 then none
        else some (Char.ofNat unit, r)
  | _ => none

/-- The rest of a string after its opening quote. -/
def readString? : (fuel : Nat) → Text → Option (Text × Text)
  | 0, _ => none
  | _ + 1, [] => none
  | _ + 1, '"' :: r => some ([], r)
  | fuel + 1, '\\' :: r => do
      let (c, r) ← readEscape? r
      let (cs, r) ← readString? fuel r
      return (c :: cs, r)
  | fuel + 1, c :: r =>
      if c.toNat < 0x20 then none
      else do
        let (cs, r) ← readString? fuel r
        return (c :: cs, r)

def isNumberChar (c : Char) : Bool :=
  c.isDigit || "+-.eE".toList.contains c

/-- A number from the characters that can be part of one. -/
def readNumber? (t : Text) : Option Json :=
  let (negative, magnitude) := splitSign t
  if !magnitude.isEmpty && magnitude.all Char.isDigit then
    some (.int (if negative then -digitsValue magnitude else digitsValue magnitude))
  else (Numeral.unsigned? negative magnitude).map fun n => .float n.value

def keyword? (word : String) (value : Json) (t : Text) : Option (Json × Text) :=
  if word.toList.isPrefixOf t then some (value, t.drop word.length) else none

mutual

def readValue? : (fuel : Nat) → Text → Option (Json × Text)
  | 0, _ => none
  | fuel + 1, t =>
      match skipSpace t with
      | '"' :: r => (readString? (r.length + 1) r).map fun (s, r) => (.string s, r)
      | '[' :: r =>
          match skipSpace r with
          | ']' :: r => some (.array [], r)
          | r => (readItems? fuel r).map fun (xs, r) => (.array xs, r)
      | '{' :: r =>
          match skipSpace r with
          | '}' :: r => some (.object [], r)
          | r => (readMembers? fuel [] r).map fun (ms, r) => (.object ms, r)
      | 'n' :: r => keyword? "null" .null ('n' :: r)
      | 't' :: r => keyword? "true" (.bool true) ('t' :: r)
      | 'f' :: r => keyword? "false" (.bool false) ('f' :: r)
      | 'N' :: r => keyword? "NaN" (.float .nan) ('N' :: r)
      | 'I' :: r => keyword? "Infinity" (.float (.infinite false)) ('I' :: r)
      | '-' :: 'I' :: r => keyword? "-Infinity" (.float (.infinite true)) ('-' :: 'I' :: r)
      | r =>
          let digits := r.takeWhile isNumberChar
          (readNumber? digits).map fun n => (n, r.drop digits.length)

def readItems? : (fuel : Nat) → Text → Option (List Json × Text)
  | 0, _ => none
  | fuel + 1, t => do
      let (x, r) ← readValue? fuel t
      match skipSpace r with
      | ',' :: r => do
          let (xs, r) ← readItems? fuel r
          return (x :: xs, r)
      | ']' :: r => return ([x], r)
      | _ => none

def readMembers? : (fuel : Nat) → List (Text × Json) → Text → Option (List (Text × Json) × Text)
  | 0, _, _ => none
  | fuel + 1, members, t => do
      let '"' :: r := skipSpace t | none
      let (key, r) ← readString? (r.length + 1) r
      let ':' :: r := skipSpace r | none
      let (value, r) ← readValue? fuel r
      let members := insertKey key value members
      match skipSpace r with
      | ',' :: r => readMembers? fuel members r
      | '}' :: r => return (members, r)
      | _ => none

end

/-- Reads a whole text as one value. -/
def read? (t : Text) : Option Json :=
  match readValue? (2 * t.length + 2) t with
  | some (value, r) => if (skipSpace r).isEmpty then some value else none
  | none => none

end PhpGate.Json
