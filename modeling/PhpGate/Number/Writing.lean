import PhpGate.Number.Binary64

/-!
Numbers written as text: with six significant digits, and with the fewest digits that read back.
Both choose between positional notation and an exponent by the size of the number.
-/

namespace PhpGate.Binary64

open Text

/-- A positive decimal `digits · 10 ^ (exponent - places + 1)`: its digits and the exponent of the
first of them. -/
structure Decimal where
  digits : Text
  exponent : Int
  deriving Repr, DecidableEq

/-- How a decimal is laid out. -/
structure Layout where
  /-- Exponents from here on are written out. -/
  firstLarge : Int
  /-- Whether a whole number shows a point and a zero. -/
  showsPoint : Bool

/-- The exponent of ten of the first digit of `num / den`. -/
def decimalExponent (num den : Nat) : Int :=
  let guess : Int := (Nat.toDigits 10 num).length - (Nat.toDigits 10 den).length
  let (n, d) := scale 10 1 guess
  if n * den ≤ num * d then guess else guess - 1

/-- The decimals of a number of significant digits next to `num / den`, the nearer one first and of
two equally near ones the even one. -/
def neighbours (places num den : Nat) : List Decimal :=
  let e := decimalExponent num den
  let (n, d) := scale 10 1 (e - places + 1)
  let below := num * d / (den * n)
  let nearest := roundQuotient (num * d) (den * n)
  [nearest, if nearest = below then below + 1 else below].map fun q =>
    let digits := Nat.toDigits 10 q
    ⟨digits, e + digits.length - places⟩

def Decimal.withoutTrailingZeros (d : Decimal) : Decimal :=
  { d with digits := (d.digits.reverse.dropWhile (· == '0')).reverse }

/-- The digits before and after the point; nothing stands for a missing fraction. -/
def Decimal.positional (d : Decimal) (showsPoint : Bool) : Text :=
  let zeros (k : Int) : Text := List.replicate k.toNat '0'
  let whole : Text :=
    if d.exponent < 0 then ['0']
    else d.digits.take (d.exponent.toNat + 1) ++ zeros (d.exponent + 1 - d.digits.length)
  let fraction : Text :=
    if d.exponent < 0 then zeros (-d.exponent - 1) ++ d.digits
    else d.digits.drop (d.exponent.toNat + 1)
  if fraction.isEmpty then whole ++ (if showsPoint then ".0".toList else [])
  else whole ++ ['.'] ++ fraction

/-- One digit, the others after a point, and an exponent of two digits at least. -/
def Decimal.exponential (d : Decimal) : Text :=
  let exponent := ofNat d.exponent.natAbs
  d.digits.take 1 ++ (if d.digits.length > 1 then '.' :: d.digits.drop 1 else [])
    ++ (if d.exponent < 0 then "e-".toList else "e+".toList)
    ++ (if exponent.length < 2 then '0' :: exponent else exponent)

def Decimal.layOut (layout : Layout) (d : Decimal) : Text :=
  if d.exponent < -4 ∨ layout.firstLarge ≤ d.exponent then d.exponential
  else d.positional layout.showsPoint

/-- Writes a number whose magnitude, if it is not zero, is given by a decimal. -/
def writeWith (layout : Layout) (decimal : Nat → Nat → Decimal) : Binary64 → Text
  | nan => "nan".toList
  | infinite negative => (if negative then ['-'] else []) ++ "inf".toList
  | finite negative m e =>
      let (num, den) := scale 2 m e
      (if negative then ['-'] else []) ++
        (if m = 0 then Decimal.positional ⟨['0'], 0⟩ layout.showsPoint
         else (decimal num den).layOut layout)

/-- Six significant digits without trailing zeros, positional from 0.0001 up to a million. -/
def general (x : Binary64) : Text :=
  writeWith ⟨6, false⟩
    (fun num den => ((neighbours 6 num den).headD ⟨[], 0⟩).withoutTrailingZeros) x

def Decimal.value (d : Decimal) : Binary64 :=
  ofDecimal false (digitsValue d.digits) (d.exponent - d.digits.length + 1)

/-- The decimal of the fewest digits that reads back as the number, the nearest of that length.
Seventeen digits always do. -/
def shortest (num den : Nat) : Decimal :=
  let target := round false num den
  let candidates := (List.range 17).flatMap fun n => neighbours (n + 1) num den
  ((candidates.find? fun d => d.value = target).getD ⟨[], 0⟩).withoutTrailingZeros

/-- The shortest text that reads back, positional from 0.0001 up to 10 ^ 16. -/
def text (x : Binary64) : Text :=
  writeWith ⟨16, true⟩ shortest x

end PhpGate.Binary64
