import PhpGate.Interpreter.Check
import PhpGate.Log

/-!
What a check by an interpreter reports while it runs.
-/

namespace PhpGate.Interpreter

def source : String := "phpcheck.checkers"

def Run.records (path : Text) (run : Run) : List LogRecord :=
  let started := LogRecord.of .debug source
    ("running ".toList ++ run.binary ++ " -l ".toList ++ path)
  match run.behaviour with
  | .cannotStart =>
      let fault := FileError.fault .notFound run.binary none
      [started, .of .debug source
        ("cannot spawn ".toList ++ run.binary ++ ": ".toList ++ fault.message)]
  | _ => [started]

/-- The records of a check, from the writing of the temporary file to its removal, and the reason why
the interpreter gave no answer. -/
def Outcome.records (o : Outcome) : List LogRecord :=
  let around := match o.path.filter fun _ => o.written with
    | none => []
    | some path =>
        let path := path.text
        [LogRecord.of .debug source ("wrote temp file ".toList ++ path)]
          ++ o.runs.flatMap (Run.records path)
          ++ [.of .debug source ("removed temp file ".toList ++ path)]
  match o.answer with
  | .error (.unavailable reason) =>
      around ++ [.of .debug "phpcheck.evaluator"
        ("external checker unavailable, using fallback: ".toList ++ reason)]
  | _ => around

end PhpGate.Interpreter
