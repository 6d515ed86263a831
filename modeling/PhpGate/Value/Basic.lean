import PhpGate.Json.Basic
import PhpGate.Number.Writing
import PhpGate.Text.Codes
import PhpGate.Value.Calendar

/-!
Plain values as settings files hold them: scalars, points in time, and collections. Here stand the
questions that settings ask of a value: whether it counts as empty, how it is shown, and how keys
are told apart and ordered.
-/

namespace PhpGate

open Text

inductive Value where
  | null
  | bool (b : Bool)
  | int (n : Int)
  | float (x : Binary64)
  | text (t : Text)
  /-- Text with surrogates in it. -/
  | brokenText (codes : Codes)
  | bytes (b : Bytes)
  | date (d : Date)
  | moment (m : Moment)
  | list (items : List Value)
  | pair (first second : Value)
  | mapping (entries : List (Value × Value))
  | set (members : List Value)
  /-- A collection inside itself. -/
  | cycle
  deriving Repr, Inhabited

namespace Value

/-- Empty texts and collections, zeros, false and null count as unset. -/
def isEmpty : Value → Bool
  | null => true
  | bool b => !b
  | int n => n == 0
  | float (.finite _ m _) => m == 0
  | text t => t.isEmpty
  | bytes b => b.isEmpty
  | list items => items.isEmpty
  | mapping entries => entries.isEmpty
  | set members => members.isEmpty
  | _ => false

/-- The text that a value is, with surrogates in it repaired. -/
def asText? : Value → Option Text
  | text t => some t
  | brokenText codes => some codes.repaired
  | _ => none

def asCodes? : Value → Option Codes
  | text t => some (.ofText t)
  | brokenText codes => some codes
  | _ => none

def commaJoin (ts : List Text) : Text :=
  joined ts
where
  joined : List Text → Text
    | [] => []
    | [t] => t
    | t :: ts => t ++ ", ".toList ++ joined ts

def showDate (d : Date) : List Text :=
  [ofNat d.year, ofNat d.month, ofNat d.day]

/-- A span of minutes as days and seconds, of which only the days may be negative. -/
def showSpan (minutes : Int) : Text :=
  let days := minutes.fdiv 1440
  let seconds := minutes.fmod 1440 * 60
  let parts := (if days ≠ 0 then ["days=".toList ++ ofInt days] else [])
    ++ (if seconds ≠ 0 then ["seconds=".toList ++ ofInt seconds] else [])
  "datetime.timedelta(".toList ++ commaJoin parts ++ ")".toList

def showZone (minutes : Int) : Text :=
  if minutes = 0 then "datetime.timezone.utc".toList
  else "datetime.timezone(".toList ++ showSpan minutes ++ ")".toList

def showMoment (m : Moment) : Text :=
  let tail : List Text :=
    if m.microsecond ≠ 0 then [ofNat m.second, ofNat m.microsecond]
    else if m.second ≠ 0 then [ofNat m.second]
    else []
  let zone : List Text := m.zone.toList.map fun z => "tzinfo=".toList ++ showZone z
  "datetime.datetime(".toList
    ++ commaJoin (showDate m.date ++ [ofNat m.hour, ofNat m.minute] ++ tail ++ zone)
    ++ ")".toList

/-- A whole number in digits, if it keeps to the limit. -/
def showInt? (n : Int) : Option Text :=
  if n.natAbs < Nat.pow 10 digitLimit then some (ofInt n) else none

/-- A value as messages show it; a number with too many digits cannot be shown. -/
def shown? : Value → Option Text
  | null => some "None".toList
  | bool b => some (if b then "True".toList else "False".toList)
  | int n => showInt? n
  | float x => some x.text
  | text t => some (Text.quoted t)
  | brokenText codes => some codes.quoted
  | bytes b => some (quotedBytes b)
  | date d => some ("datetime.date(".toList ++ commaJoin (showDate d) ++ ")".toList)
  | moment m => some (showMoment m)
  | list items => (showItems? items).map fun ts => "[".toList ++ commaJoin ts ++ "]".toList
  | pair a b => do
      let a ← a.shown?
      let b ← b.shown?
      return "(".toList ++ commaJoin [a, b] ++ ")".toList
  | mapping entries =>
      (showEntries? entries).map fun ts => "\x7b".toList ++ commaJoin ts ++ "\x7d".toList
  | set [] => some "set()".toList
  | set members => (showItems? members).map fun ts => "\x7b".toList ++ commaJoin ts ++ "\x7d".toList
  | cycle => some "...".toList
where
  showItems? : List Value → Option (List Text)
    | [] => some []
    | x :: xs => do
        let t ← x.shown?
        let ts ← showItems? xs
        return t :: ts
  showEntries? : List (Value × Value) → Option (List Text)
    | [] => some []
    | (k, v) :: r => do
        let k ← k.shown?
        let v ← v.shown?
        let ts ← showEntries? r
        return (k ++ ": ".toList ++ v) :: ts

/-- The number that a value is; truth values count as 1 and 0. -/
def asNumber? : Value → Option Binary64.Exact
  | bool b => some (.fraction (if b then 1 else 0) 1)
  | int n => some (.fraction n 1)
  | float x => x.toExact?
  | _ => none

/-- Whether two values are one key. Numbers are compared by value whatever their type, and moments
with a zone by the instant they stand for. -/
def sameKey (a b : Value) : Bool :=
  match a.asNumber?, b.asNumber? with
  | some x, some y => x.compare y == .eq
  | _, _ =>
      match a, b with
      | null, null => true
      | text s, text t => s == t
      | brokenText s, brokenText t => s == t
      | bytes s, bytes t => s == t
      | date d, date e => d == e
      | moment m, moment n => m.zone.isSome == n.zone.isSome && m.position == n.position
      | _, _ => false

/-- Kinds of keys that can be put in order among themselves. -/
inductive OrderKind where
  | number | text | bytes | date | moment | zonedMoment | none
  deriving Repr, DecidableEq

def orderKind : Value → OrderKind
  | bool _ | int _ | float _ => .number
  | text _ | brokenText _ => .text
  | bytes _ => .bytes
  | date _ => .date
  | moment m => if m.zone.isSome then .zonedMoment else .moment
  | _ => .none

def bytesBefore (a b : Bytes) : Bool :=
  Text.before (a.map fun x => Char.ofNat x.toNat) (b.map fun x => Char.ofNat x.toNat)

/-- The order of keys of one kind. -/
def before (a b : Value) : Bool :=
  match a, b with
  | text s, text t => Text.before s t
  | bytes s, bytes t => bytesBefore s t
  | date d, date e => d.ordinal ≤ e.ordinal
  | moment m, moment n => m.position ≤ n.position
  | a, b =>
      match a.asNumber?, b.asNumber?, a.asCodes?, b.asCodes? with
      | some x, some y, _, _ => x.compare y != .gt
      | _, _, some s, some t => s.before t
      | _, _, _, _ => true

/-- Keys in order, if they are all of one kind that has an order; one key needs none. -/
def sortKeys? (keys : List Value) : Option (List Value) :=
  match keys with
  | [] | [_] => some keys
  | key :: rest =>
      if key.orderKind ≠ .none ∧ rest.all fun k => k.orderKind = key.orderKind then
        some (keys.mergeSort before)
      else none

end Value
end PhpGate
