import PhpGate.Evaluation
import PhpGate.Files.Store

/-!
The validation of one file. A file is read until a read succeeds and is evaluated until an
evaluation ends in an answer; text and answer are kept, so later changes to the file are not seen.
-/

namespace PhpGate

/-- What a read of a file gives, by the number of reads made before it. -/
abbrev Readings := Nat → Except FileError Text

inductive FileStatus where
  | pending | passed | failed
  deriving Repr, DecidableEq

def FileStatus.name : FileStatus → Text
  | pending => "PENDING".toList
  | passed => "OK".toList
  | failed => "FAILED".toList

/-- Why an operation on a file ends without an answer. -/
inductive Interruption where
  | unreadable (error : FileError)
  | unevaluated (error : CheckError)
  deriving Repr, DecidableEq

structure FileState where
  status : FileStatus := .pending
  diagnostic : Option Diagnostic := none
  /-- The error that the evaluation ended with. -/
  rejection : Option Rejection := none
  content : Option Text := none
  reads : Nat := 0
  /-- The backends that were asked, in order. -/
  calls : List Call := []
  deriving Repr, DecidableEq

namespace FileState

/-- The text of the file, read unless it is known. -/
def fetch (readings : Readings) (s : FileState) : Except FileError Text × FileState :=
  match s.content with
  | some t => (.ok t, s)
  | none =>
      let s := { s with reads := s.reads + 1 }
      match readings (s.reads - 1) with
      | .ok t => (.ok t, { s with content := some t })
      | .error e => (.error e, s)

/-- Records how an evaluation ended, if it gave an answer. -/
def settle (evaluation : Evaluation) (s : FileState) : Except Interruption Unit × FileState :=
  let s := { s with calls := s.calls ++ evaluation.calls }
  match evaluation.outcome with
  | .ok () => (.ok (), { s with status := .passed })
  | .error (.rejected r) =>
      (.ok (), { s with status := .failed, diagnostic := some r.diagnostic, rejection := some r })
  | .error e => (.error (.unevaluated e), s)

/-- Evaluates the file unless that is done; `label` is what diagnostics call it, and is asked for
once the text is known. -/
def validate (evaluator : Evaluator) (label : Except FileError Text) (readings : Readings)
    (s : FileState) : Except Interruption Unit × FileState :=
  match s.status with
  | .pending =>
      match s.fetch readings, label with
      | (.error e, s), _ | (.ok _, s), .error e => (.error (.unreadable e), s)
      | (.ok t, s), .ok label => s.settle (evaluator.evaluate t (some label))
  | _ => (.ok (), s)

/-- The name of the status, or for a failed file the kind of error. -/
def verdict (s : FileState) : Text :=
  match s.status, s.diagnostic with
  | .failed, some d => d.kind.name
  | status, _ => status.name

inductive Operation where
  | validate | isValid | verdict | rejection | content | label | result
  deriving Repr, DecidableEq

inductive Answer where
  | done
  | isValid (b : Bool)
  | verdict (name : Text)
  | rejection (r : Option Rejection)
  | content (t : Text)
  | label (t : Text)
  /-- What is wrong with the file once it is validated, if anything. -/
  | result (d : Option Diagnostic)
  deriving Repr, DecidableEq

def perform (evaluator : Evaluator) (label : Except FileError Text) (readings : Readings)
    (s : FileState) : Operation → Except Interruption Answer × FileState
  | .validate => after fun _ => .done
  | .isValid => after fun s => .isValid (s.status == .passed)
  | .verdict => (.ok (.verdict s.verdict), s)
  | .rejection => after fun s => .rejection s.rejection
  | .content =>
      let (t, s) := s.fetch readings
      ((t.map .content).mapError .unreadable, s)
  | .label => ((label.map .label).mapError .unreadable, s)
  | .result => after fun s => .result s.diagnostic
where
  after (answer : FileState → Answer) : Except Interruption Answer × FileState :=
    let (outcome, s) := s.validate evaluator label readings
    (outcome.map fun () => answer s, s)

/-- What happens around a file: operations on its state, and changes of the file itself. -/
inductive Event where
  | operation (op : Operation)
  | change (readings : Readings)

/-- The state after each event, with the answer that an operation gave. -/
def trace (evaluator : Evaluator) (label : Except FileError Text) (readings : Readings)
    (s : FileState) : List Event → List (Option (Except Interruption Answer) × FileState)
  | [] => []
  | .change readings :: events => (none, s) :: trace evaluator label readings s events
  | .operation op :: events =>
      let (answer, s) := s.perform evaluator label readings op
      (some answer, s) :: trace evaluator label readings s events

end FileState
end PhpGate
