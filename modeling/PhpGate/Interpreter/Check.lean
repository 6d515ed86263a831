import PhpGate.Evaluation
import PhpGate.Files.Change
import PhpGate.Interpreter.LintOutput
import PhpGate.Number.Writing
import PhpGate.Text.Codes

/-!
The check by an interpreter. The source is written to a temporary file, the candidate programs are
run on it in turn until one accepts it or runs out of time, and the file is removed whatever they
say. What programs do and whether the file can be written is given by a host, so a check is a
function of host and files.
-/

namespace PhpGate

open Text

/-- What a program prints, with holes where the path of the checked file goes. -/
inductive OutputPart where
  | words (t : Text)
  | checkedPath
  deriving Repr, DecidableEq

abbrev OutputTemplate := List OutputPart

def OutputTemplate.fill (path : Text) (template : OutputTemplate) : Text :=
  List.flatMap (fun | .words t => t | .checkedPath => path) template

/-- What happens when a program is started. -/
inductive Behaviour where
  | exits (code : Int) (output : OutputTemplate)
  | timesOut
  | cannotStart
  deriving Repr, DecidableEq

/-- The machine a check runs on: how program names are looked up, what the programs do and where
temporary files go by default. -/
structure Host where
  lookup : Text → Option Text
  behaviour : Text → Behaviour
  temporaryDirectory : Path
  /-- What the next temporary file is called, and what else if that name is taken. -/
  temporaryName : Text
  otherNames : List Text := []
  /-- What the writing of a temporary file ends with, if it fails. -/
  writeFailure : Option FileError := none

structure InterpreterSettings where
  program : Option Text
  knownProgram : Text
  timeout : Binary64
  temporaryDirectory : Option Path
  deriving Repr, DecidableEq

namespace Interpreter

def defaultProgram : Text := "php".toList

/-- The programs to try: the configured one or `php`, then the known one, as far as they are found,
each once. -/
def candidates (host : Host) (settings : InterpreterSettings) : List Text :=
  let program := match settings.program with
    | none | some [] => defaultProgram
    | some name => name
  let found := [program, settings.knownProgram].filterMap fun name =>
    (host.lookup name).filter (!·.isEmpty)
  found.foldl (fun list path => if list.contains path then list else list ++ [path]) []

/-- One run of a program: what it was and what it saw in the file it was given. -/
structure Run where
  binary : Text
  seen : Option Bytes
  behaviour : Behaviour
  deriving Repr, DecidableEq

/-- Why no program gave an answer. -/
inductive Unavailability where
  | noInterpreter | noneStarted | noFreeName
  | noTemporaryFile (error : FileError)
  | unwritten (error : FileError)
  deriving Repr, DecidableEq

namespace Unavailability

def message : Unavailability → Text
  | noInterpreter => "no php interpreter found".toList
  | noneStarted => "no php interpreter could be started".toList
  | noFreeName =>
      "cannot create temp file: [Errno 17] No usable temporary file name found".toList
  | noTemporaryFile e => "cannot create temp file: ".toList ++ e.message
  | unwritten e => "cannot write temp file: ".toList ++ e.message

end Unavailability

def timeoutMessage (timeout : Binary64) : Text :=
  "Syntax check timed out after ".toList ++ timeout.general ++ "s".toList

/-- How a series of runs ends. -/
inductive Verdict where
  | accepted
  | timedOut
  /-- Every program that could be started refused; the last of them said this. -/
  | refused (output : OutputTemplate)
  | noneStarted
  deriving Repr, DecidableEq

/-- Runs programs on a file until one accepts it or runs out of time. `last` is what the last
program that ran has said. -/
def runAll (host : Host) (seen : Option Bytes) (last : Option OutputTemplate) :
    List Text → List Run × Verdict
  | [] => ([], last.elim .noneStarted .refused)
  | binary :: rest =>
      let behaviour := host.behaviour binary
      let run : Run := ⟨binary, seen, behaviour⟩
      match behaviour with
      | .timesOut => ([run], .timedOut)
      | .cannotStart =>
          let (runs, verdict) := runAll host seen last rest
          (run :: runs, verdict)
      | .exits code output =>
          if code = 0 then ([run], .accepted)
          else
            let (runs, verdict) := runAll host seen (some output) rest
            (run :: runs, verdict)

/-- The answer that a series of runs on the file at `path` amounts to. -/
def conclude (settings : InterpreterSettings) (path : Text) (file : Option Text) :
    Verdict → Except CheckError Bool
  | .accepted => .ok true
  | .timedOut =>
      .error (.rejected { Rejection.of .parse (timeoutMessage settings.timeout) file 0 with
        timedOut := true, cause := some .timeout })
  | .noneStarted => .error (.unavailable Unavailability.noneStarted.message)
  | .refused output =>
      match LintReport.read? path (output.fill path) with
      | none => .error .unreadableNumber
      | some report => .error (.rejected (Rejection.of .parse report.message file report.line))

/-- The directory of the temporary file. It is taken by its name, so that parts of it which double
dots take back need not exist. -/
def temporaryDirectory (host : Host) (settings : InterpreterSettings) (files : Store) : Path :=
  files.absolute (settings.temporaryDirectory.getD host.temporaryDirectory)

/-- Whether something stands where a file is to be made. -/
def isTaken (files : Store) (path : Path) : Bool :=
  match files.create path with
  | .error (.fault .alreadyExists _ _) => true
  | _ => false

/-- The path of the temporary file, under the first name that is not taken. -/
def temporaryPath (host : Host) (settings : InterpreterSettings) (files : Store) : Path :=
  let directory := temporaryDirectory host settings files
  let free := (host.temporaryName :: host.otherNames).find? fun name =>
    !isTaken files (directory.join [name])
  directory.join [free.getD host.temporaryName]

/-- Why no temporary file could be made, as an answer to the check. -/
def unmade : FileError → CheckError
  | .embeddedNull => .impossiblePath
  | .fault .alreadyExists _ _ => .unavailable Unavailability.noFreeName.message
  | e => .unavailable (Unavailability.noTemporaryFile e).message

/-- A check with the runs it made and the files it left. `path` is the temporary file, if one was
made. -/
structure Outcome where
  answer : Except CheckError Bool
  runs : List Run := []
  path : Option Path := none
  /-- Whether the source was written to the temporary file. -/
  written : Bool := false
  files : Store
  deriving Repr

/-- A check of a source by the bytes that it is written with. A source with a surrogate has none, and
its temporary file is forgotten. -/
def checkBytes (host : Host) (settings : InterpreterSettings) (files : Store)
    (content : Option Bytes) (file : Option Text) : Outcome :=
  match candidates host settings with
  | [] => { answer := .error (.unavailable Unavailability.noInterpreter.message), files }
  | binaries =>
      let path := temporaryPath host settings files
      match files.create path, content with
      | .error e, _ => { answer := .error (unmade e), files }
      | .ok made, none => { answer := .error .unencodable, path, files := made }
      | .ok made, some bytes =>
          match host.writeFailure.elim (made.write path bytes) .error with
          | .error e =>
              { answer := .error (.unavailable (Unavailability.unwritten e).message), path,
                files := (made.remove path).toOption.getD made }
          | .ok written =>
              let (runs, verdict) := runAll host (written.read path).toOption none binaries
              { answer := conclude settings path.text file verdict, runs, path, written := true,
                files := (written.remove path).toOption.getD written }

/-- A check of any sequence of code points. -/
def checkCodes (host : Host) (settings : InterpreterSettings) (files : Store) (content : Codes)
    (file : Option Text) : Outcome :=
  checkBytes host settings files (content.text?.map encode) file

def check (host : Host) (settings : InterpreterSettings) (files : Store) (t : Text)
    (file : Option Text) : Outcome :=
  checkBytes host settings files (some (encode t)) file

/-- The interpreter as a backend of an evaluation. -/
def checker (host : Host) (settings : InterpreterSettings) (files : Store) : Checker :=
  fun t file => (check host settings files t file).answer

end Interpreter
end PhpGate
