import PhpGate.Yaml.Scalar

/-!
Types of nodes. A tag names the type, or the text of a scalar implies it: numbers, truth values,
null and points in time are told from other texts by the way they are written. A line feed at the
end of such a text makes no difference.
-/

namespace PhpGate.Yaml

open Text

/-- Tags with a meaning of their own; all others are unknown. -/
inductive TypeTag where
  | null | bool | int | float | binary | timestamp | string
  | sequence | mapping | set | orderedMap | pairs
  | merge | defaultValue | unknown
  deriving Repr, DecidableEq

/-- The namespace of the tags of the standard. -/
def standardTags : Text := "tag:yaml.org,2002:".toList

def TypeTag.ofText (t : Text) : TypeTag :=
  if standardTags.isPrefixOf t then
    match String.ofList (t.drop standardTags.length) with
    | "null" => null
    | "bool" => bool
    | "int" => int
    | "float" => float
    | "binary" => binary
    | "timestamp" => timestamp
    | "str" => string
    | "seq" => sequence
    | "map" => mapping
    | "set" => set
    | "omap" => orderedMap
    | "pairs" => pairs
    | "merge" => merge
    | "value" => defaultValue
    | _ => unknown
  else unknown

def isDigitOrUnderscore (c : Char) : Bool :=
  c.isDigit || c == '_'

def truthWords : List Text :=
  ["yes", "Yes", "YES", "no", "No", "NO", "true", "True", "TRUE", "false", "False", "FALSE",
   "on", "On", "ON", "off", "Off", "OFF"].map String.toList

def nullWords : List Text :=
  ["~", "null", "Null", "NULL", ""].map String.toList

def dropSign : Text → Text
  | '+' :: r | '-' :: r => r
  | t => t

/-- The signed exponent of a float, or nothing at all. -/
def isExponent : Text → Bool
  | [] => true
  | e :: s :: digits =>
      (e == 'e' || e == 'E') && (s == '+' || s == '-') && !digits.isEmpty
        && digits.all Char.isDigit
  | _ => false

/-- One or two digits below sixty. -/
def isSixtieth : Text → Bool
  | [d] => d.isDigit
  | [t, d] => '0' ≤ t && t ≤ '5' && d.isDigit
  | _ => false

def startsWithDigit (t : Text) : Bool :=
  t.head?.any Char.isDigit

/-- Digits before a point, with underscores among them. -/
def isFloatWhole (t : Text) : Bool :=
  startsWithDigit t && t.all isDigitOrUnderscore

/-- The parts of a number in base sixty: a whole number and at least one part below sixty. -/
def isSexagesimal (isHead : Text → Bool) (parts : List Text) : Bool :=
  match parts with
  | head :: second :: rest => isHead head && (second :: rest).all isSixtieth
  | _ => false

/-- The parts of a text between colons. -/
def colonParts (current : Text) : Text → List Text
  | [] => [current.reverse]
  | c :: r =>
      if c = ':' then current.reverse :: colonParts [] r else colonParts (c :: current) r

def impliesFloat (t : Text) : Bool :=
  let unsigned := dropSign t
  let whole := unsigned.takeWhile (· != '.')
  match unsigned.drop whole.length with
  | '.' :: r =>
      let fraction := r.takeWhile isDigitOrUnderscore
      let rest := r.drop fraction.length
      (isFloatWhole whole && isExponent rest)
        || (whole.isEmpty && unsigned == t && startsWithDigit r && isExponent rest)
        || (isSexagesimal isFloatWhole (colonParts [] whole) && rest.isEmpty)
        || (whole.isEmpty && ["inf", "Inf", "INF"].any (·.toList == r))
        || (whole.isEmpty && unsigned == t && ["nan", "NaN", "NAN"].any (·.toList == r))
  | _ => false

def impliesInt (t : Text) : Bool :=
  let isPositive (t : Text) := startsWithDigit t && t.head? != some '0' && t.all isDigitOrUnderscore
  match dropSign t with
  | '0' :: 'b' :: r => !r.isEmpty && r.all fun c => c == '0' || c == '1' || c == '_'
  | '0' :: 'x' :: r => !r.isEmpty && r.all fun c => (hexDigit? c).isSome || c == '_'
  | '0' :: r => r.all fun c => ('0' ≤ c && c ≤ '7') || c == '_'
  | r => isPositive r || isSexagesimal isPositive (colonParts [] r)

/-- Between one and two digits at the start of a text, with the text after them. -/
def shortNumber? (t : Text) : Option (Text × Text) :=
  match t with
  | a :: b :: r =>
      if a.isDigit then if b.isDigit then some ([a, b], r) else some ([a], b :: r) else none
  | [a] => if a.isDigit then some ([a], []) else none
  | [] => none

def exactNumber? (n : Nat) (t : Text) : Option (Text × Text) :=
  if (t.take n).length = n && (t.take n).all Char.isDigit then some (t.take n, t.drop n) else none

def expect? (c : Char) : Text → Option Text
  | x :: r => if x = c then some r else none
  | [] => none

/-- The parts of a point in time, as they are written. -/
structure TimeParts where
  year : Text
  month : Text
  day : Text
  /-- Hour, minute, second and fraction. -/
  clock : Option (Text × Text × Text × Text) := none
  /-- A zone with sign, hours and minutes; `Z` has neither. -/
  zone : Option (Option (Bool × Text × Text)) := none

/-- The zone at the end of a point in time. -/
def readZone? : Text → Option (Option (Option (Bool × Text × Text)))
  | [] => some none
  | ['Z'] => some (some none)
  | sign :: r =>
      if sign = '+' ∨ sign = '-' then
        (shortNumber? r).bind fun (hours, r) =>
          match r with
          | [] => some (some (some (sign == '-', hours, [])))
          | ':' :: minutes =>
              if (exactNumber? 2 minutes).any (·.2.isEmpty) then
                some (some (some (sign == '-', hours, minutes)))
              else none
          | _ => none
      else none

/-- The clock and the zone after a date. -/
def readClock? (date : TimeParts) (t : Text) : Option TimeParts := do
  let (hour, t) ← shortNumber? t
  let (minute, t) ← exactNumber? 2 (← expect? ':' t)
  let (second, t) ← exactNumber? 2 (← expect? ':' t)
  let (fraction, t) := match t with
    | '.' :: r => (r.takeWhile Char.isDigit, r.dropWhile Char.isDigit)
    | t => ([], t)
  let zone := t.dropWhile isSpaceOrTab
  if zone.isEmpty && !t.isEmpty then none
  else
    let zone ← readZone? zone
    return { date with clock := some (hour, minute, second, fraction), zone }

/-- Reads a point in time. -/
def readTime? (t : Text) : Option TimeParts := do
  let (year, t) ← exactNumber? 4 t
  let (month, t) ← shortNumber? (← expect? '-' t)
  let (day, t) ← shortNumber? (← expect? '-' t)
  let date : TimeParts := { year, month, day }
  match t with
  | [] => return date
  | c :: r =>
      if c = 'T' ∨ c = 't' then readClock? date r
      else if isSpaceOrTab c then readClock? date (r.dropWhile isSpaceOrTab)
      else none

/-- Whether a text implies a point in time: a date alone has two digits each for month and day. -/
def impliesTime (t : Text) : Bool :=
  match readTime? t with
  | some parts => parts.clock.isSome || (parts.month.length == 2 && parts.day.length == 2)
  | none => false

/-- The type that a text implies. -/
def TypeTag.ofContent (t : Text) : TypeTag :=
  if truthWords.contains t then bool
  else if impliesFloat t then float
  else if impliesInt t then int
  else if t = "<<".toList then merge
  else if nullWords.contains t then null
  else if impliesTime t then timestamp
  else if t = "=".toList then defaultValue
  else if t = "!".toList ∨ t = "&".toList ∨ t = "*".toList then unknown
  else string

/-- A text without one line feed at its end. -/
def dropFinalBreak (t : Text) : Text :=
  if t.getLast? = some '\n' then t.dropLast else t

/-- The type that codes imply. A lone line feed is text, and so is all that holds a surrogate. -/
def TypeTag.implied (codes : Codes) : TypeTag :=
  match codes.text? with
  | none => string
  | some t => if t = ['\n'] then string else .ofContent (dropFinalBreak t)

end PhpGate.Yaml
