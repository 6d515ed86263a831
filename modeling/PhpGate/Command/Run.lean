import PhpGate.Command.Options
import PhpGate.Interpreter.Log
import PhpGate.Validation.Index

/-!
The command: it checks the files at some paths, prints what it found and writes an index on request.
A run is a function of the machine, the environment, the files and the arguments.
-/

namespace PhpGate

/-- An error that a run ends with outside its own exit codes. -/
inductive CommandError where
  | threshold (fault : ThresholdFault)
  | settings (error : SettingsError)
  | check (error : CheckError)
  | files (error : FileError)
  deriving Repr, DecidableEq

inductive CommandEnding where
  | exit (code : Nat)
  | usage (fault : UsageFault)
  | failed (error : CommandError)
  deriving Repr, DecidableEq

/-- What a run leaves: how it ended, the lines it logged and printed, the files, and the runs of
interpreters it made. -/
structure CommandOutcome where
  ending : CommandEnding
  log : List Text := []
  output : List Text := []
  files : Store
  runs : List Interpreter.Run := []
  deriving Repr

/-- Where a command runs. -/
structure Surroundings where
  host : Host
  environment : Environment
  files : Store
  /-- The time of the run, as the index shows it. -/
  time : Text
  /-- How deep collections may stand inside one another in a file of settings. -/
  nestingLimit : Nat

namespace Command

def source : String := "phpcheck.validate"

/-- The evaluator that settings ask for. -/
def evaluatorOf (s : Surroundings) (settings : Settings) : Evaluator :=
  if settings.externalEnabled then
    { external := some (Interpreter.checker s.host settings.interpreter s.files) }
  else {}

/-- The checks by an interpreter that calls of backends stand for. -/
def interpreterChecks (s : Surroundings) (settings : Settings) (calls : List Call) :
    List Interpreter.Outcome :=
  (calls.filter (·.backend == .external)).map fun call =>
    Interpreter.check s.host settings.interpreter s.files call.content call.file

/-- The candidates at the given paths, in order, and a warning for each path without any. -/
def gather (files : Store) (patterns : List Text) :
    List Text → Except FileError (List Candidate × List LogRecord)
  | [] => .ok ([], [])
  | raw :: rest => do
      let found ← Candidate.discover files (Path.of raw) patterns
      let (others, records) ← gather files patterns rest
      let warning : List LogRecord :=
        if found.isEmpty then [.of .warning source ("no sources found under ".toList ++ raw)]
        else []
      return (found ++ others, warning ++ records)

def unreadableRecord (path : Path) (e : FileError) : LogRecord :=
  .of .warning "phpcheck.report"
    ("Failed to read ".toList ++ path.text ++ ": ".toList ++ e.message)

def checkRecords (s : Surroundings) (settings : Settings) (calls : List Call) : List LogRecord :=
  (interpreterChecks s settings calls).flatMap (·.records)

def validationRecords (s : Surroundings) (settings : Settings) (v : Validation) : List LogRecord :=
  checkRecords s settings v.calls
    ++ v.unreadable.toList.map (unreadableRecord v.candidate.path)

def countLine (results : List ValidationResult) : Text :=
  let valid := (results.filter (·.isValid)).length
  "files_found=".toList ++ Text.ofNat results.length ++ " valid=".toList ++ Text.ofNat valid
    ++ " invalid=".toList ++ Text.ofNat (results.length - valid)

def showOption (t : Option Text) : Text :=
  t.getD "None".toList

def invalidLine (r : ValidationResult) : Text :=
  "invalid:".toList ++ r.path ++ [':'] ++ showOption (r.line.map Text.ofInt) ++ ": ".toList
    ++ showOption r.kind ++ [' '] ++ showOption r.message

/-- Kinds with their counts, frequent ones first and equally frequent ones by name. -/
def kindCounts (results : List ValidationResult) : List (Text × Nat) :=
  (sortKeys (Index.tally (results.filterMap (·.kind)))).mergeSort fun a b => b.2 ≤ a.2

def summaryLines (results : List ValidationResult) : List Text :=
  let valid := (results.filter (·.isValid)).length
  let kinds := match kindCounts results with
    | [] => ["    (none)".toList]
    | counts => counts.map fun (kind, n) => "    ".toList ++ kind ++ ": ".toList ++ Text.ofNat n
  ["summary:".toList,
    "  total_files=".toList ++ Text.ofNat results.length,
    "  total_valid=".toList ++ Text.ofNat valid,
    "  total_invalid=".toList ++ Text.ofNat (results.length - valid),
    "  kinds:".toList] ++ kinds

def outputLines (options : Options) (results : List ValidationResult) : List Text :=
  countLine results :: (results.filter (!·.isValid)).map invalidLine
    ++ (if options.summary then summaryLines results else [])

/-- The end of a run whose results are known: the index is written if it is asked for. -/
def finish (s : Surroundings) (options : Options) (results : List ValidationResult) :
    CommandEnding × List LogRecord × Store :=
  let ending := CommandEnding.exit (if results.all (·.isValid) then 0 else 1)
  match options.out.filter (!·.isEmpty) with
  | none => (ending, [], s.files)
  | some directory =>
      match (Index.ofResults s.time results).write s.files (Path.of directory) with
      | (.error e, files) => (.failed (.files e), [], files)
      | (.ok place, files) =>
          (ending, [.of .info source ("wrote ".toList ++ place.text)], files)

/-- A run with settings: the files are gathered, validated and reported. -/
def checkFiles (s : Surroundings) (options : Options) (threshold : Nat) (settings : Settings) :
    CommandOutcome :=
  match gather s.files settings.patterns options.paths with
  | .error e => { ending := .failed (.files e), files := s.files }
  | .ok (candidates, warnings) =>
      let (validations, breakdown) := Validation.all (evaluatorOf s settings) s.files candidates
      let calls := validations.flatMap (·.calls) ++ breakdown.toList.flatMap (·.calls)
      let runs := (interpreterChecks s settings calls).flatMap (·.runs)
      let records := warnings ++ validations.flatMap (validationRecords s settings)
        ++ breakdown.toList.flatMap fun b => checkRecords s settings b.calls
      match breakdown with
      | some b =>
          { ending := .failed (.check b.error), log := shownLines threshold records,
            files := s.files, runs }
      | none =>
          let results := validations.map (·.result)
          let (ending, written, files) := finish s options results
          { ending, log := shownLines threshold (records ++ written),
            output := outputLines options results, files, runs }

/-- A run with options that were understood. -/
def runWith (s : Surroundings) (options : Options) : CommandOutcome :=
  match Threshold.ofName options.logLevel with
  | .error fault => { ending := .failed (.threshold fault), files := s.files }
  | .ok threshold =>
      match Settings.resolve s.nestingLimit s.files s.environment options.overrides with
      | .ok settings => checkFiles s options threshold settings
      | .error e =>
          match e.message? with
          | none => { ending := .failed (.settings e), files := s.files }
          | some m =>
              { ending := .exit 2, log := shownLines threshold [.of .error source m],
                files := s.files }

def run (s : Surroundings) (args : List Text) : CommandOutcome :=
  match Options.ofArguments args with
  | .error fault => { ending := .usage fault, files := s.files }
  | .ok options => runWith s options

end Command
end PhpGate
