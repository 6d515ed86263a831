import PhpGate.Settings.Basic
import PhpGate.Yaml.Value

/-!
Settings from their sources: the defaults, a YAML file, and variables of the environment, each over
the one before. Options of a command line come last.
-/

namespace PhpGate

open Text

abbrev Environment := List (Text × Text)

namespace Settings

/-- A variable that is set to an empty text counts as unset. -/
def setVariable (env : Environment) (name : String) : Option Text :=
  (env.lookup name.toList).filter (!·.isEmpty)

def byteOrderMark : Bytes :=
  [0xef, 0xbb, 0xbf]

/-- The text of some bytes after the byte order mark, which may be left out. Bytes that end within
the mark are an empty text. -/
def readMarked? (content : Bytes) : Option Text :=
  if content.isPrefixOf byteOrderMark then some []
  else
    let content := if byteOrderMark.isPrefixOf content then content.drop 3 else content
    (decodeStrict? content).map unifyLineBreaks

/-- What a document that does not give settings is refused with. -/
def ofFault (path : Path) : Yaml.Fault → SettingsError
  | .malformed => .cannotParse path.text
  | .unreadableNumber => .unreadableNumber
  | .numberTooLarge => .numberTooLarge
  | .emptyNumber => .emptyNumber
  | .unknownTruth word => .unknownTruth word.quoted
  | .noTime => .noTime
  | .timeInMapping => .wrongType
  | .tooDeep => .tooDeep

/-- The entries of a YAML file. An empty document has none. -/
def readFile (nestingLimit : Nat) (files : Store) (path : Path) :
    Except SettingsError (List (Value × Value)) :=
  match files.read path with
  | .error .embeddedNull => .error .unreadableNumber
  | .error e => .error (.cannotRead path.text e)
  | .ok content =>
      match readMarked? content with
      | none => .error .notUtf8
      | some t =>
          match Yaml.read nestingLimit t with
          | .error fault => .error (ofFault path fault)
          | .ok .null => .ok []
          | .ok (.mapping entries) => .ok entries
          | .ok _ => .error (.notAMapping path.name)

/-- The settings that variables of the environment give. The switch for the external checker counts
even when it is empty. -/
def environmentEntries (env : Environment) : List (Value × Value) :=
  let entry (setting : Setting) (value : Option Text) : List (Value × Value) :=
    value.toList.map fun t => (.text setting.key, .text t)
  entry .program (setVariable env "PHPCHECK_PHP_BINARY")
    ++ entry .knownProgram (setVariable env "PHPCHECK_KNOWN_BINARY")
    ++ entry .externalEnabled (env.lookup "PHPCHECK_EXTERNAL".toList)
    ++ entry .timeout (setVariable env "PHPCHECK_TIMEOUT_SECONDS")
    ++ entry .temporaryDirectory (setVariable env "PHPCHECK_TMPDIR")

def configPath? (path : Option Text) (env : Environment) : Option Text :=
  (path.filter (!·.isEmpty)).or (setVariable env "PHPCHECK_CONFIG")

/-- Defaults, file and environment. The file is named by `path` or by the environment. -/
def load (nestingLimit : Nat) (files : Store) (path : Option Text) (env : Environment) :
    Except SettingsError Settings := do
  let s ← match configPath? path env with
    | none => pure {}
    | some source => do
        let entries ← readFile nestingLimit files (Path.of source)
        ({} : Settings).apply source entries
  s.apply "environment".toList (environmentEntries env)

/-- What a command line says about the timeout. -/
inductive TimeoutOverride where
  | unset
  /-- The option is there, but no number with it. -/
  | blank
  | seconds (x : Binary64)
  deriving Repr, DecidableEq

/-- Options of a command line that bear on settings. -/
structure Overrides where
  configPath : Option Text := none
  noExternal : Bool := false
  timeout : TimeoutOverride := .unset

/-- The settings of a command: all sources, and the options over them. -/
def resolve (nestingLimit : Nat) (files : Store) (env : Environment) (o : Overrides) :
    Except SettingsError Settings := do
  let s ← load nestingLimit files o.configPath env
  let s := if o.noExternal then { s with externalEnabled := false } else s
  match o.timeout with
  | .unset => return s
  | .blank => throw .wrongType
  | .seconds x =>
      if x.isNonPositive then throw .timeoutOption else return { s with timeout := x }

end Settings
end PhpGate
