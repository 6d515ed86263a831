import PhpGate.Text.Digit

/-!
Binary floating-point numbers of 64 bits, held as sign, significand and exponent so that comparison
and rounding are exact integer arithmetic. Rounding goes to the nearest number, ties to an even
significand.
-/

namespace PhpGate

inductive Binary64 where
  | nan
  | infinite (negative : Bool)
  /-- The number `± significand · 2 ^ exponent`. -/
  | finite (negative : Bool) (significand : Nat) (exponent : Int)
  deriving Repr, DecidableEq

namespace Binary64

def leastExponent : Int := -1074
def greatestExponent : Int := 971

/-- The least integer of 53 binary digits. -/
def leastNormal : Nat := 0x10000000000000

def zero (negative : Bool) : Binary64 :=
  finite negative 0 leastExponent

/-- The fraction `m · base ^ e` as numerator and denominator. -/
def scale (base m : Nat) (e : Int) : Nat × Nat :=
  if 0 ≤ e then (m * Nat.pow base e.toNat, 1) else (m, Nat.pow base (-e).toNat)

/-- `num / den` rounded to a natural number, a tie to the even one. -/
def roundQuotient (num den : Nat) : Nat :=
  let q := num / den
  let r := num % den
  if 2 * r < den ∨ (2 * r = den ∧ q % 2 = 0) then q else q + 1

/-- The exponent of the last place of a number of the size of `num / den`. -/
def lastPlace (num den : Nat) : Int :=
  let e : Int := (Nat.log2 num : Int) - Nat.log2 den - 53
  let (n, d) := scale 2 1 (e + 53)
  max leastExponent (if n * den ≤ num * d then e + 1 else e)

/-- The number nearest to `± num / den`. -/
def round (negative : Bool) (num den : Nat) : Binary64 :=
  if num = 0 then zero negative
  else
    let e := lastPlace num den
    let (n, d) := scale 2 1 e
    let q := roundQuotient (num * d) (den * n)
    let (q, e) := if q = 2 * leastNormal then (leastNormal, e + 1) else (q, e)
    if greatestExponent < e then infinite negative
    else if q = 0 then zero negative
    else finite negative q e

/-- The number nearest to `± m · 10 ^ e`. The exponent is compared with the digits of `m` first, so
that no power out of range is computed. -/
def ofDecimal (negative : Bool) (m : Nat) (e : Int) : Binary64 :=
  let size := e + (Nat.toDigits 10 m).length
  if m = 0 ∨ size < -400 then zero negative
  else if 400 < size then infinite negative
  else
    let (num, den) := scale 10 m e
    round negative num den

def ofInt (n : Int) : Binary64 :=
  round (n < 0) n.natAbs 1

/-- A number in exact form, or an infinity. -/
inductive Exact where
  | fraction (num : Int) (den : Nat)
  | infinite (negative : Bool)
  deriving Repr, DecidableEq

def toExact? : Binary64 → Option Exact
  | nan => none
  | infinite negative => some (.infinite negative)
  | finite negative m e =>
      let (n, d) := scale 2 m e
      some (.fraction (if negative then -n else n) d)

def Exact.compare : Exact → Exact → Ordering
  | .fraction a b, .fraction c d => Ord.compare (a * d) (c * b)
  | .infinite a, .infinite b => if a = b then .eq else if a then .lt else .gt
  | .infinite negative, .fraction _ _ => if negative then .lt else .gt
  | .fraction _ _, .infinite negative => if negative then .gt else .lt

/-- Greater than zero; a NaN is not. -/
def isPositive : Binary64 → Bool
  | nan => false
  | infinite negative => !negative
  | finite negative m _ => !negative && m != 0

/-- At most zero; a NaN is not. -/
def isNonPositive : Binary64 → Bool
  | nan => false
  | infinite negative => negative
  | finite negative m _ => negative || m == 0

def neg : Binary64 → Binary64
  | nan => nan
  | infinite negative => infinite !negative
  | finite negative m e => finite (!negative) m e

/-- The sum, rounded once; an exact zero is positive unless both terms are negative zeros. -/
def add (x y : Binary64) : Binary64 :=
  match x, y with
  | nan, _ | _, nan => nan
  | infinite a, infinite b => if a == b then infinite a else nan
  | infinite a, _ | _, infinite a => infinite a
  | finite a m e, finite b n f =>
      let low := min e f
      let left : Int := m * Nat.pow 2 (e - low).toNat
      let right : Int := n * Nat.pow 2 (f - low).toNat
      let sum := (if a then -left else left) + (if b then -right else right)
      if sum = 0 then zero (a && b)
      else
        let (num, den) := scale 2 sum.natAbs low
        round (sum < 0) num den

/-- The product, rounded once. -/
def mul (x y : Binary64) : Binary64 :=
  match x, y with
  | nan, _ | _, nan => nan
  | infinite a, infinite b => infinite (a != b)
  | infinite a, finite b m _ | finite a m _, infinite b => if m = 0 then nan else infinite (a != b)
  | finite a m e, finite b n f =>
      let (num, den) := scale 2 (m * n) (e + f)
      round (a != b) num den

end Binary64
end PhpGate
