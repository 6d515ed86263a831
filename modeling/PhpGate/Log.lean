import PhpGate.Text.Basic

/-!
Log records and the level from which on they are shown.
-/

namespace PhpGate

inductive LogLevel where
  | debug | info | warning | error
  deriving Repr, DecidableEq

namespace LogLevel

def number : LogLevel → Nat
  | debug => 10
  | info => 20
  | warning => 30
  | error => 40

def name : LogLevel → Text
  | debug => "DEBUG".toList
  | info => "INFO".toList
  | warning => "WARNING".toList
  | error => "ERROR".toList

end LogLevel

structure LogRecord where
  level : LogLevel
  source : Text
  message : Text
  deriving Repr, DecidableEq

namespace LogRecord

def of (level : LogLevel) (source : String) (message : Text) : LogRecord :=
  ⟨level, source.toList, message⟩

def line (r : LogRecord) : Text :=
  r.level.name ++ [' '] ++ r.source ++ ": ".toList ++ r.message

end LogRecord

/-- Why a name gives no threshold: it names a text or a table. -/
inductive ThresholdFault where
  | isText | isTable
  deriving Repr, DecidableEq

namespace Threshold

/-- The capitals of a character, as far as they are letters of names of levels. -/
def capitals (c : Char) : Text :=
  if c = 'ı' then ['I']
  else if c = 'ſ' then ['S']
  else if c = 'ﬅ' ∨ c = 'ﬆ' then ['S', 'T']
  else [c.toUpper]

/-- The threshold for the name of a level, in any case. A name that nothing is called by stands for
warnings. -/
def ofName (name : Text) : Except ThresholdFault Nat :=
  match String.ofList (name.flatMap capitals) with
  | "NOTSET" => .ok 0
  | "DEBUG" => .ok 10
  | "INFO" => .ok 20
  | "ERROR" => .ok 40
  | "CRITICAL" | "FATAL" => .ok 50
  | "BASIC_FORMAT" => .error .isText
  | "_STYLES" => .error .isTable
  | _ => .ok 30

end Threshold

/-- The lines of the records that reach a threshold. -/
def shownLines (threshold : Nat) (records : List LogRecord) : List Text :=
  (records.filter fun r => threshold ≤ r.level.number).map LogRecord.line

end PhpGate
