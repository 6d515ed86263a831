import PhpGate.Discovery
import PhpGate.Validation.State

/-!
The results of validating candidates. A file that cannot be read is invalid too, with a kind of its
own; only an error that is none of the file's ends the whole run.
-/

namespace PhpGate

inductive ResultStatus where
  | valid | invalid
  deriving Repr, DecidableEq

def ResultStatus.name : ResultStatus → Text
  | valid => "VALID".toList
  | invalid => "INVALID".toList

structure ValidationResult where
  path : Text
  fingerprint : Text
  status : ResultStatus
  kind : Option Text := none
  message : Option Text := none
  line : Option Int := none
  deriving Repr, DecidableEq

namespace ValidationResult

def readErrorKind : Text := "READ_ERROR".toList

def ofDiagnostic (path fingerprint : Text) : Option Diagnostic → ValidationResult
  | none => { path, fingerprint, status := .valid }
  | some d =>
      { path, fingerprint, status := .invalid, kind := some d.kind.name, message := some d.message,
        line := some d.line }

def ofUnreadable (candidate : Candidate) (e : FileError) : ValidationResult :=
  { path := candidate.path.text, fingerprint := candidate.fingerprint, status := .invalid,
    kind := some readErrorKind,
    message := some ("Failed to read ".toList ++ candidate.path.name ++ ": ".toList ++ e.message),
    line := some 0 }

def isValid (r : ValidationResult) : Bool :=
  r.status == .valid

end ValidationResult

/-- A result with what led to it. -/
structure Validation where
  candidate : Candidate
  result : ValidationResult
  unreadable : Option FileError
  calls : List Call
  deriving Repr, DecidableEq

/-- An error that no result can tell of, with the calls made before it. -/
structure Breakdown where
  error : CheckError
  calls : List Call
  deriving Repr, DecidableEq

namespace Validation

def ofCandidate (evaluator : Evaluator) (files : Store) (c : Candidate) :
    Except Breakdown Validation :=
  let (outcome, s) :=
    FileState.validate evaluator (files.realPath c.path) (fun _ => files.readText c.path) {}
  match outcome with
  | .ok () => .ok ⟨c, .ofDiagnostic c.path.text c.fingerprint s.diagnostic, none, s.calls⟩
  | .error (.unreadable .embeddedNull) => .error ⟨.impossiblePath, s.calls⟩
  | .error (.unreadable e) => .ok ⟨c, .ofUnreadable c e, some e, s.calls⟩
  | .error (.unevaluated e) => .error ⟨e, s.calls⟩

/-- Validates candidates one after the other, up to the first breakdown. -/
def all (evaluator : Evaluator) (files : Store) :
    List Candidate → List Validation × Option Breakdown
  | [] => ([], none)
  | c :: cs =>
      match ofCandidate evaluator files c with
      | .error b => ([], some b)
      | .ok v =>
          let (vs, breakdown) := all evaluator files cs
          (v :: vs, breakdown)

end Validation
end PhpGate
