import PhpGate.Number.Reading
import PhpGate.Text.Case
import PhpGate.Value.Basic
import PhpGate.Yaml.TypeTag

/-!
The values of scalars. Every type has its own reading of the text.
-/

namespace PhpGate.Yaml

open Text

def dropUnderscores (t : Text) : Text :=
  t.filter (· != '_')

def readWhole (base : Nat) (t : Text) : Except Fault Int :=
  match readWhole? base t with
  | some n => .ok n
  | none => .error .unreadableNumber

/-- A whole number after its sign: binary, hexadecimal, octal, in base sixty or decimal. -/
def readMagnitude (t : Text) : Except Fault Int :=
  match t with
  | [] => .error .emptyNumber
  | ['0'] => .ok 0
  | '0' :: 'b' :: r => readWhole 2 r
  | '0' :: 'x' :: r => readWhole 16 r
  | '0' :: r => readWhole 8 ('0' :: r)
  | t =>
      if t.contains ':' then do
        let parts ← (colonParts [] t).mapM (readWhole 10)
        return parts.foldl (fun n d => 60 * n + d) 0
      else readWhole 10 t

def readInt (t : Text) : Except Fault Int := do
  let (negative, magnitude) := splitSign (dropUnderscores t)
  let n ← readMagnitude magnitude
  return if negative then -n else n

def readFloatPart (t : Text) : Except Fault Binary64 :=
  match Binary64.read? t with
  | some x => .ok x
  | none => .error .unreadableNumber

/-- The sum of the parts of a number in base sixty, from the last one on. Powers of sixty that no
floating-point number reaches are refused. -/
def sexagesimalSum : (power : Nat) → (sum : Binary64) → List Binary64 → Except Fault Binary64
  | _, sum, [] => .ok sum
  | power, sum, x :: xs =>
      match Binary64.ofInt power with
      | .infinite _ => .error .numberTooLarge
      | factor => sexagesimalSum (60 * power) (sum.add (x.mul factor)) xs

/-- The sign of a floating-point number and the text after it, in lower case. -/
def splitFloat (t : Text) : Bool × Text :=
  splitSign ((dropUnderscores t).map Char.toLower)

def readFloat (t : Text) : Except Fault Binary64 := do
  if (dropUnderscores t).isEmpty then throw .emptyNumber
  let (negative, magnitude) := splitFloat t
  let x ←
    if magnitude = ".inf".toList then pure (.infinite false)
    else if magnitude = ".nan".toList then pure .nan
    else if magnitude.contains ':' then do
      let parts ← (colonParts [] magnitude).mapM readFloatPart
      sexagesimalSum 1 (Binary64.zero false) parts.reverse
    else readFloatPart magnitude
  return if negative then x.neg else x

/-- Whether a text is the name of the one NaN, of which all keys are the same. -/
def namesNan (t : Text) : Bool :=
  (splitFloat t).2 == ".nan".toList

def readTruth (codes : Codes) : Except Fault Bool :=
  let word := codes.lower
  if ["yes", "true", "on"].any fun s => word == .ofText s.toList then .ok true
  else if ["no", "false", "off"].any fun s => word == .ofText s.toList then .ok false
  else .error (.unknownTruth word)

/-- Minutes east of Greenwich; `Z` stands for none. -/
def zoneOffset : Option (Bool × Text × Text) → Int
  | none => 0
  | some (west, hours, minutes) =>
      let offset : Int := digitsValue hours * 60 + digitsValue minutes
      if west then -offset else offset

/-- The date or moment of some parts, if the calendar has it. -/
def TimeParts.value? (parts : TimeParts) : Option Value := do
  let date ← Date.of? (digitsValue parts.year) (digitsValue parts.month) (digitsValue parts.day)
  match parts.clock with
  | none => return .date date
  | some (hour, minute, second, fraction) =>
      let microsecond := digitsValue ((fraction ++ List.replicate 6 '0').take 6)
      let m ← Moment.of? date (digitsValue hour) (digitsValue minute) (digitsValue second)
        microsecond (parts.zone.map zoneOffset)
      return .moment m

def readTime (t : Text) : Except Fault Value :=
  match readTime? (dropFinalBreak t) with
  | none => .error .noTime
  | some parts =>
      match parts.value? with
      | some v => .ok v
      | none => .error .unreadableNumber

def base64Value? (c : Char) : Option Nat :=
  if 'A' ≤ c ∧ c ≤ 'Z' then some (c.toNat - 'A'.toNat)
  else if 'a' ≤ c ∧ c ≤ 'z' then some (c.toNat - 'a'.toNat + 26)
  else if c.isDigit then some (c.toNat - '0'.toNat + 52)
  else if c = '+' then some 62
  else if c = '/' then some 63
  else none

/-- Bytes in base 64. Other characters are passed over; the padding has to complete the last group,
and ends the text there. `place` counts the digits of a group and `pads` the padding after them. -/
def readBase64? : (place bits pads : Nat) → Text → Option Bytes
  | place, _, _, [] => if place = 0 then some [] else none
  | place, bits, pads, c :: r =>
      if c = '=' then
        if 2 ≤ place ∧ 4 ≤ place + pads + 1 then some [] else readBase64? place bits (pads + 1) r
      else
        match base64Value? c with
        | none => readBase64? place bits pads r
        | some d =>
            match place with
            | 0 => readBase64? 1 d 0 r
            | 1 => (readBase64? 2 (d % 16) 0 r).map ((bits * 4 + d / 16).toUInt8 :: ·)
            | 2 => (readBase64? 3 (d % 4) 0 r).map ((bits * 16 + d / 4).toUInt8 :: ·)
            | _ => (readBase64? 0 0 0 r).map ((bits * 64 + d).toUInt8 :: ·)

def readBinary (codes : Codes) : Except Fault Value :=
  match codes.text? with
  | some t =>
      match if t.all (·.toNat < 0x80) then readBase64? 0 0 0 t else none with
      | some b => .ok (.bytes b)
      | none => .error .malformed
  | none => .error .malformed

/-- Reads a text without surrogates; others are refused in the way of their type. -/
def onText (fault : Fault) (read : Text → Except Fault Value) (codes : Codes) :
    Except Fault Value :=
  codes.text?.elim (.error fault) read

/-- The value of a scalar of a type. -/
def TypeTag.scalarValue (tag : TypeTag) (codes : Codes) : Except Fault Value :=
  match tag with
  | .null => .ok .null
  | .bool => (readTruth codes).map .bool
  | .int => onText .unreadableNumber (fun t => (readInt t).map .int) codes
  | .float => onText .unreadableNumber (fun t => (readFloat t).map .float) codes
  | .timestamp => onText .noTime readTime codes
  | .binary => readBinary codes
  | .string => .ok (codes.text?.elim (.brokenText codes) .text)
  | _ => .error .malformed

end PhpGate.Yaml
