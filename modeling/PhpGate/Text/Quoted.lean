import PhpGate.Text.Printable
import PhpGate.Text.Utf8

/-!
Text in quotes, as error messages show it. Single quotes are used unless the text holds one and no
double quote; the quote in use, the backslash and all that cannot be printed is escaped.
-/

namespace PhpGate.Text

def hexPadded (width n : Nat) : Text :=
  let digits := Nat.toDigits 16 n
  List.replicate (width - digits.length) '0' ++ digits

/-- An unprintable character by its code, in the shortest of three widths. -/
def escapeCode (n : Nat) : Text :=
  if n < 0x100 then "\\x".toList ++ hexPadded 2 n
  else if n < 0x10000 then "\\u".toList ++ hexPadded 4 n
  else "\\U".toList ++ hexPadded 8 n

def escapeQuoted (quote c : Char) : Text :=
  if c = quote ∨ c = '\\' then ['\\', c]
  else if c = '\n' then "\\n".toList
  else if c = '\r' then "\\r".toList
  else if c = '\t' then "\\t".toList
  else if isPrintable c then [c]
  else escapeCode c.toNat

def quoteFor (t : Text) : Char :=
  if t.contains '\'' && !t.contains '"' then '"' else '\''

def quoted (t : Text) : Text :=
  let quote := quoteFor t
  [quote] ++ t.flatMap (escapeQuoted quote) ++ [quote]

/-- Bytes in quotes; every byte that is not printable ASCII is escaped. -/
def quotedBytes (bytes : Bytes) : Text :=
  let t : Text := bytes.map fun b => Char.ofNat b.toNat
  let quote := quoteFor t
  let escape (c : Char) : Text :=
    if c.toNat < 0x80 then escapeQuoted quote c else escapeCode c.toNat
  ['b', quote] ++ t.flatMap escape ++ [quote]

end PhpGate.Text
