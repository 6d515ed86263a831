import PhpGate.Command.Run
import PhpGate.Value.Calendar
import Std.Time.DateTime.Timestamp

/-!
The program. Standard input lists the files that a run may look at, one path a line; files that
arguments or the environment name need no mention there. No interpreter is run, so sources are
judged by the grammar alone.
-/

namespace PhpGate.Program

def interpreterFree : Host :=
  { lookup := fun _ => none
    behaviour := fun _ => .cannotStart
    temporaryDirectory := Path.of "/tmp".toList
    temporaryName := "phpcheck.php".toList }

/-- How deep collections may stand inside one another in a file of settings. -/
def nestingLimit : Nat := 487

def variableNames : List String :=
  ["PHPCHECK_CONFIG", "PHPCHECK_PHP_BINARY", "PHPCHECK_KNOWN_BINARY", "PHPCHECK_EXTERNAL",
    "PHPCHECK_TIMEOUT_SECONDS", "PHPCHECK_TMPDIR"]

def readEnvironment : IO Environment :=
  variableNames.filterMapM fun name => do
    let value ← IO.getEnv name
    return value.map fun t => (name.toList, t.toList)

partial def readLines (input : IO.FS.Stream) : IO (List String) := do
  let line ← input.getLine
  if line.isEmpty then return []
  return String.ofList (line.toList.filter (· != '\n')) :: (← readLines input)

/-- Puts the file at a path into a store, if it can be read. -/
def addFile (files : Store) (path : String) : IO Store := do
  try
    let content ← IO.FS.readBinFile path
    return files.put (Path.of path.toList) content.toList
  catch _ => return files

def emptyStore : IO Store := do
  let place := Path.of (← IO.currentDir).toString.toList
  let root : Store := { nodes := [] }
  let made := (root.ensureDirectories place place.parts.length).toOption.getD root
  return { made with workingDirectory := place.parts }

/-- Writes the files in which a store differs from the one before. -/
def writeChanges (before after : Store) : IO Unit := do
  for (l, _) in after.nodes do
    if let some (.file data) := after.stored? l then
      if before.stored? l ≠ some (.file data) then
        IO.FS.createDirAll (String.ofList (Store.textOf l.dropLast))
        IO.FS.writeBinFile (String.ofList (Store.textOf l)) (ByteArray.mk data.content.toArray)

def exitCode : CommandEnding → UInt32
  | .exit n => n.toUInt32
  | .usage .help => 0
  | .usage _ => 2
  | .failed _ => 1

def usage : String :=
  "usage: phpgate [--config FILE] [--out DIRECTORY] [--summary] [--no-external]\n" ++
  "               [--timeout SECONDS] [--log-level LEVEL] [paths ...]"

def explain : CommandEnding → Option String
  | .exit _ => none
  | .usage _ => some usage
  | .failed (.files e) => some (String.ofList e.message)
  | .failed _ => some "The run was ended by an error."

/-- The paths that arguments and environment name themselves. -/
def namedPaths (environment : Environment) (args : List Text) : List Text :=
  match Options.ofArguments args with
  | .error _ => []
  | .ok options => options.paths ++ (Settings.configPath? options.config environment).toList

def run (args : List String) : IO UInt32 := do
  let args := args.map String.toList
  let environment ← readEnvironment
  let listed ← readLines (← IO.getStdin)
  let named := (namedPaths environment args).map String.ofList
  let files ← (listed ++ named).foldlM addFile (← emptyStore)
  let now ← Std.Time.Timestamp.now
  let time := (Moment.ofSeconds now.toSecondsSinceUnixEpoch.val.toNat).stamp
  let outcome := Command.run ⟨interpreterFree, environment, files, time, nestingLimit⟩ args
  for line in outcome.log do
    IO.eprintln (String.ofList line)
  for line in outcome.output do
    IO.println (String.ofList line)
  writeChanges files outcome.files
  if let some message := explain outcome.ending then
    IO.eprintln message
  return exitCode outcome.ending

end PhpGate.Program

def main (args : List String) : IO UInt32 :=
  PhpGate.Program.run args
