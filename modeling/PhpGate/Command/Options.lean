import PhpGate.Number.Reading
import PhpGate.Settings.Load
import PhpGate.Text.Digit

/-!
The options of the command line. An option may be shortened as long as it stays unique, its value
may be the next argument or follow an equals sign, and all arguments after a double hyphen are
paths. A double hyphen after an equals sign leaves the option without a value. The paths stand
together: a path after an option that interrupts them belongs to nothing.
-/

namespace PhpGate

inductive OptionName where
  | help | config | out | summary | noExternal | timeout | logLevel
  deriving Repr, DecidableEq

/-- Why arguments cannot be understood. A request for help is answered in the same way. -/
inductive UsageFault where
  | ambiguous | missingValue | unexpectedValue | notANumber | unrecognized | help
  deriving Repr, DecidableEq

structure Options where
  paths : List Text := [['.']]
  config : Option Text := none
  out : Option Text := none
  summary : Bool := false
  noExternal : Bool := false
  timeout : Settings.TimeoutOverride := .unset
  logLevel : Text := "WARNING".toList
  deriving Repr, DecidableEq

def Options.overrides (o : Options) : Settings.Overrides :=
  ⟨o.config, o.noExternal, o.timeout⟩

/-- What an argument is. -/
inductive Argument where
  | value
  | separator
  | option (name : OptionName) (attached : Option Text)
  | unknownOption
  deriving Repr, DecidableEq

namespace Argument

def spellings : List (Text × OptionName) :=
  [("-h".toList, .help), ("--help".toList, .help), ("--config".toList, .config),
    ("--out".toList, .out), ("--summary".toList, .summary), ("--no-external".toList, .noExternal),
    ("--timeout".toList, .timeout), ("--log-level".toList, .logLevel)]

/-- The text before the first equals sign, and what follows it if there is one. -/
def cutAtEquals (t : Text) : Text × Option Text :=
  let stem := t.takeWhile (· != '=')
  (stem, if stem.length < t.length then some (t.drop (stem.length + 1)) else none)

/-- A hyphen with digits after it, with or without a point; a line feed may follow. -/
def isNegativeNumber (t : Text) : Bool :=
  let body := t.drop 1
  let body := if body.getLast? = some '\n' then body.dropLast else body
  let whole := body.takeWhile Text.isDecimalDigit
  match body.drop whole.length with
  | [] => !whole.isEmpty
  | c :: fraction => c == '.' && !fraction.isEmpty && fraction.all Text.isDecimalDigit

/-- The request for help by its letter, with what follows that letter. The letter may be repeated;
anything else is a value that it does not take. -/
def letterHelp (attached : Text) : Argument :=
  .option .help (if !attached.isEmpty && attached.all (· == 'h') then none else some attached)

/-- The options that an argument of unknown spelling can be short for. -/
def expansions (t : Text) : List Argument :=
  if "--".toList.isPrefixOf t then
    let (stem, attached) := cutAtEquals t
    (spellings.filter fun s => stem.isPrefixOf s.1).map fun s => .option s.2 attached
  else if "-h".toList.isPrefixOf t then [letterHelp (t.drop 2)]
  else []

/-- The option that an argument spells out in front of an equals sign. -/
def assigned? (t : Text) : Option Argument :=
  match cutAtEquals t with
  | (stem, some attached) =>
      if stem = "-h".toList then some (letterHelp attached)
      else (spellings.lookup stem).map fun name => .option name (some attached)
  | (_, none) => none

def classify (t : Text) : Except UsageFault Argument :=
  if t.head? ≠ some '-' ∨ t.length = 1 then .ok .value
  else
    match spellings.lookup t with
    | some name => .ok (.option name none)
    | none =>
        match assigned? t with
        | some a => .ok a
        | none =>
            match expansions t with
            | [a] => .ok a
            | _ :: _ :: _ => .error .ambiguous
            | [] =>
                if isNegativeNumber t || t.contains ' ' then .ok .value else .ok .unknownOption

/-- What each argument is. Behind a separator all arguments are values. -/
def classifyAll : List Text → Except UsageFault (List (Text × Argument))
  | [] => .ok []
  | t :: ts =>
      if t = "--".toList then .ok ((t, .separator) :: ts.map fun t => (t, .value))
      else do
        let a ← classify t
        let rest ← classifyAll ts
        return (t, a) :: rest

end Argument

namespace Options

/-- The run of paths: not begun, going on, or ended by an option. -/
inductive PathRun where
  | notBegun
  | goingOn (paths : List Text)
  | ended (paths : List Text)

def PathRun.paths : PathRun → List Text
  | notBegun => []
  | goingOn paths | ended paths => paths

structure Progress where
  options : Options := {}
  run : PathRun := .notBegun
  /-- Some argument belongs to nothing. -/
  hasStray : Bool := false

def Progress.addPaths (p : Progress) (paths : List Text) : Progress :=
  match p.run with
  | .notBegun => { p with run := .goingOn paths }
  | .goingOn before => { p with run := .goingOn (before ++ paths) }
  | .ended _ => { p with hasStray := true }

def Progress.endRun (p : Progress) : Progress :=
  match p.run with
  | .goingOn paths => { p with run := .ended paths }
  | _ => p

/-- Sets an option without a value. -/
def setFlag (o : Options) : OptionName → Except UsageFault Options
  | .help => .error .help
  | .summary => .ok { o with summary := true }
  | .noExternal => .ok { o with noExternal := true }
  | _ => .error .missingValue

/-- Sets an option that is left without a value: most are as if they had not been given. -/
def setBlank (o : Options) : OptionName → Except UsageFault Options
  | .config => .ok { o with config := none }
  | .out => .ok { o with out := none }
  | .logLevel => .ok { o with logLevel := ({} : Options).logLevel }
  | .timeout => .ok { o with timeout := .blank }
  | .help | .summary | .noExternal => .error .unexpectedValue

def setValue (o : Options) (name : OptionName) (value : Text) : Except UsageFault Options :=
  if value = "--".toList then o.setBlank name
  else
    match name with
    | .config => .ok { o with config := some value }
    | .out => .ok { o with out := some value }
    | .logLevel => .ok { o with logLevel := value }
    | .timeout =>
        match Binary64.read? value with
        | some x => .ok { o with timeout := .seconds x }
        | none => .error .notANumber
    | .help | .summary | .noExternal => .error .unexpectedValue

def OptionName.takesValue : OptionName → Bool
  | .help | .summary | .noExternal => false
  | _ => true

/-- Reads arguments in order. -/
def readArguments (p : Progress) : List (Text × Argument) → Except UsageFault Progress
  | [] => .ok p
  | (t, .value) :: r => readArguments (p.addPaths [t]) r
  | (_, .separator) :: r => readArguments (p.addPaths []) r
  | (_, .unknownOption) :: r => readArguments { p.endRun with hasStray := true } r
  | (_, .option name (some value)) :: r => do
      let o ← p.options.setValue name value
      readArguments { p.endRun with options := o } r
  | (_, .option name none) :: r =>
      if OptionName.takesValue name then
        match r with
        | (value, .value) :: r => do
            let o ← p.options.setValue name value
            readArguments { p.endRun with options := o } r
        | _ => .error .missingValue
      else do
        let o ← p.options.setFlag name
        readArguments { p.endRun with options := o } r

/-- The options that arguments give. Without a path it is the current directory. -/
def ofArguments (args : List Text) : Except UsageFault Options := do
  let p ← readArguments {} (← Argument.classifyAll args)
  if p.hasStray then throw .unrecognized
  match p.run.paths with
  | [] => return p.options
  | paths => return { p.options with paths }

end Options
end PhpGate
