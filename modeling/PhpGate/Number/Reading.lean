import PhpGate.Number.Binary64

/-!
Numbers read from text. White space may stand around a number and its digits may come from any
script. Single underscores may stand between the digits of a floating-point number.
-/

namespace PhpGate

open Text

/-- The decimal numeral `± digits · 10 ^ exponent`. -/
structure Numeral where
  negative : Bool
  digits : Text
  exponent : Int
  deriving Repr, DecidableEq

namespace Numeral

def value (n : Numeral) : Binary64 :=
  Binary64.ofDecimal n.negative (digitsValue n.digits) n.exponent

/-- The exponent part of a numeral, which has to reach the end of the text. -/
def exponent? : Text → Option Int
  | [] => some 0
  | e :: r =>
      if e = 'e' ∨ e = 'E' then
        let negative := r.head? == some '-'
        let digits := if negative || r.head? == some '+' then r.drop 1 else r
        if !digits.isEmpty && digits.all Char.isDigit then
          some (if negative then -digitsValue digits else digitsValue digits)
        else none
      else none

/-- An unsigned numeral: digits with or without a point, one digit at least, and an exponent. -/
def unsigned? (negative : Bool) (t : Text) : Option Numeral :=
  let whole := t.takeWhile Char.isDigit
  let rest := t.drop whole.length
  let fraction := if rest.head? == some '.' then (rest.drop 1).takeWhile Char.isDigit else []
  let rest := if rest.head? == some '.' then rest.drop (fraction.length + 1) else rest
  if whole.isEmpty && fraction.isEmpty then none
  else (exponent? rest).map fun e => ⟨negative, whole ++ fraction, e - fraction.length⟩

end Numeral

/-- The sign of a number, with the text after it. -/
def splitSign : Text → Bool × Text
  | '-' :: r => (true, r)
  | '+' :: r => (false, r)
  | t => (false, t)

/-- Digits of other scripts become ASCII and white space above ASCII becomes a space. -/
def toAsciiNumeral (c : Char) : Char :=
  if c.toNat < 0x80 then c
  else match digitValue? c with
    | some d => Nat.digitChar d
    | none => if isBlank c then ' ' else c

/-- The white space that may surround a number once it is ASCII. -/
def isNumberSpace (c : Char) : Bool :=
  c == ' ' || (0x09 ≤ c.toNat && c.toNat ≤ 0x0d)

/-- A numeral in ASCII without the white space around it. -/
def bareNumeral (t : Text) : Text :=
  let t := (t.map toAsciiNumeral).dropWhile isNumberSpace
  (t.reverse.dropWhile isNumberSpace).reverse

/-- Drops the mark of a base, a zero and a letter in either case, where a base has one. -/
def dropBaseMark (base : Nat) (t : Text) : Text :=
  match t with
  | '0' :: c :: r =>
      let letter := c.toLower
      if (base = 16 ∧ letter = 'x') ∨ (base = 8 ∧ letter = 'o') ∨ (base = 2 ∧ letter = 'b') then r
      else t
  | t => t

/-- A whole number in a base up to 16, with a sign and the mark of its base if they are there. Only
decimal digits are limited in number. -/
def readWhole? (base : Nat) (t : Text) : Option Int :=
  let (negative, magnitude) := splitSign (bareNumeral t)
  match (dropBaseMark base magnitude).mapM fun c => (hexDigit? c).filter (· < base) with
  | some (d :: ds) =>
      if base = 10 ∧ digitLimit < ds.length + 1 then none
      else
        let n := (d :: ds).foldl (fun n d => base * n + d) 0
        some (if negative then -n else n)
  | _ => none

namespace Binary64

/-- Drops underscores, each of which must stand between two digits. -/
def dropUnderscores : (afterDigit : Bool) → Text → Option Text
  | _, [] => some []
  | afterDigit, '_' :: c :: r =>
      if afterDigit && c.isDigit then (dropUnderscores true r).map (c :: ·) else none
  | _, c :: r => if c = '_' then none else (dropUnderscores c.isDigit r).map (c :: ·)

def read? (t : Text) : Option Binary64 :=
  (dropUnderscores false (bareNumeral t)).bind fun t =>
    let (negative, magnitude) := splitSign t
    let word := magnitude.map Char.toLower
    if word = "nan".toList then some nan
    else if word = "inf".toList ∨ word = "infinity".toList then some (infinite negative)
    else (Numeral.unsigned? negative magnitude).map Numeral.value

end Binary64
end PhpGate
