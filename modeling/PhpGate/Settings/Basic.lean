import PhpGate.Files.Store
import PhpGate.Interpreter.Check
import PhpGate.Number.Reading
import PhpGate.Value.Basic

/-!
Settings of a check, and how plain values are read into them. Each setting has a reading of its own;
what it refuses is an error of the source the value came from.
-/

namespace PhpGate

open Text

structure Settings where
  program : Option Text := none
  knownProgram : Text := "/usr/bin/php".toList
  externalEnabled : Bool := true
  timeout : Binary64 := Binary64.ofInt 10
  temporaryDirectory : Option Path := none
  patterns : List Text := ["*.php".toList]
  deriving Repr, DecidableEq

def Settings.interpreter (s : Settings) : InterpreterSettings :=
  ⟨s.program, s.knownProgram, s.timeout, s.temporaryDirectory⟩

inductive Setting where
  | program | knownProgram | externalEnabled | timeout | temporaryDirectory | patterns
  deriving Repr, DecidableEq

namespace Setting

def all : List Setting :=
  [program, knownProgram, externalEnabled, timeout, temporaryDirectory, patterns]

def key : Setting → Text
  | program => "php_binary".toList
  | knownProgram => "known_binary".toList
  | externalEnabled => "external_enabled".toList
  | timeout => "timeout_seconds".toList
  | temporaryDirectory => "temp_dir".toList
  | patterns => "include".toList

def ofKey? (t : Text) : Option Setting :=
  all.find? fun s => s.key = t

end Setting

/-- What a setting asks of its value. -/
inductive Requirement where
  | number | positive | boolean | patterns | nonEmptyText
  deriving Repr, DecidableEq

def Requirement.text : Requirement → Text
  | number => "must be a number".toList
  | positive => "must be > 0".toList
  | boolean => "must be a boolean".toList
  | patterns => "must be a list of glob patterns".toList
  | nonEmptyText => "must be a non-empty string".toList

/-- Why settings could not be determined. The first five are errors of configuration and have a
message; the others are values that the reading of a setting was not made for. -/
inductive SettingsError where
  | requirement (source : Text) (setting : Setting) (r : Requirement)
  | unknownKeys (source : Text) (shownKeys : Text)
  | cannotRead (path : Text) (error : FileError)
  | cannotParse (path : Text)
  | notAMapping (name : Text)
  | timeoutOption
  /-- A value that is no path or no number, or keys that have no order. -/
  | wrongType
  /-- A number with too many digits, or none at all. -/
  | unreadableNumber
  | numberTooLarge
  /-- A number without a single character. -/
  | emptyNumber
  | notUtf8
  /-- No truth value is called by a word, which is shown in quotes. -/
  | unknownTruth (shownWord : Text)
  /-- What should be a point in time is not written like one. -/
  | noTime
  | tooDeep
  deriving Repr, DecidableEq

namespace SettingsError

/-- The message of an error of configuration. -/
def message? : SettingsError → Option Text
  | requirement source setting r =>
      some (source ++ ": ".toList ++ setting.key ++ [' '] ++ r.text ++ ['.'])
  | unknownKeys source keys => some (source ++ ": unknown config keys ".toList ++ keys ++ ['.'])
  | cannotRead path e => some ("Failed to read ".toList ++ path ++ ": ".toList ++ e.message)
  | cannotParse path => some ("Failed to parse ".toList ++ path)
  | notAMapping name => some (name ++ " must be a mapping.".toList)
  | timeoutOption => some "--timeout must be > 0.".toList
  | _ => none

end SettingsError

namespace Settings

def trueWords : List Text := ["1", "true", "yes", "on"].map String.toList
def falseWords : List Text := ["0", "false", "no", "off", ""].map String.toList

/-- Reads a truth value: one itself, or a word for it in any case. -/
def readBool (v : Value) : Except (Option Requirement) Bool :=
  match v with
  | .bool b => .ok b
  | v =>
      match v.asText?.or v.shown? with
      | none => .error none
      | some t =>
          let word := (trim t).map Char.toLower
          if trueWords.contains word then .ok true
          else if falseWords.contains word then .ok false
          else .error (some .boolean)

inductive NumberError where
  | notANumber | tooLarge
  deriving Repr, DecidableEq

/-- A number as a floating-point number; texts and bytes are read as numbers. -/
def readFloat (v : Value) : Except NumberError Binary64 :=
  let read (t : Text) : Except NumberError Binary64 :=
    match Binary64.read? t with
    | some x => .ok x
    | none => .error .notANumber
  match v with
  | .bool b => .ok (Binary64.ofInt (if b then 1 else 0))
  | .int n =>
      match Binary64.ofInt n with
      | .infinite _ => .error .tooLarge
      | x => .ok x
  | .float x => .ok x
  | .text t => read t
  | .bytes b =>
      if b.all (·.toNat < 0x80) then read (b.map fun x => Char.ofNat x.toNat)
      else .error .notANumber
  | _ => .error .notANumber

def texts? (items : List Value) : Option (List Text) :=
  items.mapM Value.asText?

/-- The settings with one of them set to a value. -/
def set (s : Settings) (source : Text) (setting : Setting) (v : Value) :
    Except SettingsError Settings :=
  let refuse (r : Requirement) : Except SettingsError Settings :=
    .error (.requirement source setting r)
  match setting with
  | .externalEnabled =>
      match readBool v with
      | .ok b => .ok { s with externalEnabled := b }
      | .error (some r) => refuse r
      | .error none => .error .unreadableNumber
  | .timeout =>
      match readFloat v with
      | .error .notANumber => refuse .number
      | .error .tooLarge => .error .numberTooLarge
      | .ok x => if x.isNonPositive then refuse .positive else .ok { s with timeout := x }
  | .temporaryDirectory =>
      if v.isEmpty then .ok { s with temporaryDirectory := none }
      else match v.asText? with
        | some t => .ok { s with temporaryDirectory := some (Path.of t) }
        | none => .error .wrongType
  | .patterns =>
      match v, v.asText? with
      | _, some t => .ok { s with patterns := [t] }
      | .list items, none =>
          match texts? items with
          | some ts => .ok { s with patterns := ts }
          | none => refuse .patterns
      | _, none => refuse .patterns
  | .program =>
      match v, v.asText? with
      | .null, _ => .ok { s with program := none }
      | _, some (c :: t) => .ok { s with program := some (c :: t) }
      | _, _ => refuse .nonEmptyText
  | .knownProgram =>
      match v.asText? with
      | some (c :: t) => .ok { s with knownProgram := c :: t }
      | _ => refuse .nonEmptyText

def settingOf? (v : Value) : Option Setting :=
  v.asText?.bind Setting.ofKey?

/-- Refuses keys that are no settings, naming all of them in order. -/
def checkKeys (source : Text) (entries : List (Value × Value)) : Except SettingsError Unit :=
  match (entries.map Prod.fst).filter fun k => (settingOf? k).isNone with
  | [] => .ok ()
  | unknown =>
      match Value.sortKeys? unknown with
      | none => .error .wrongType
      | some keys =>
          match (Value.list keys).shown? with
          | none => .error .unreadableNumber
          | some shown => .error (.unknownKeys source shown)

/-- Sets every entry in turn. -/
def apply (s : Settings) (source : Text) (entries : List (Value × Value)) :
    Except SettingsError Settings := do
  checkKeys source entries
  entries.foldlM (fun s (k, v) =>
    match settingOf? k with
    | some setting => s.set source setting v
    | none => .ok s) s

end Settings
end PhpGate
