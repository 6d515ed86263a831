import PhpGate.SelfCheck
import PhpGate.Token.Report

/-!
The stages a source goes through: open tag, tokens, trailing text, external checker, declarations
and a fallback checker. The first stage that fails decides.
-/

namespace PhpGate

/-- Why a check ends without an answer. -/
inductive CheckError where
  | rejected (rejection : Rejection)
  | unavailable (reason : Text)
  | unreadableNumber
  /-- A file was asked for at a path that no file can have. -/
  | impossiblePath
  /-- The source holds a surrogate, which no encoding has. -/
  | unencodable
  deriving Repr, DecidableEq

/-- A backend that answers whether a source is sound, given its text and its file. -/
abbrev Checker := Text → Option Text → Except CheckError Bool

def selfChecker : Checker := fun t file =>
  match selfCheck t file with
  | .ok () => .ok true
  | .error rejection => .error (.rejected rejection)

inductive Backend where
  | external | fallback
  deriving Repr, DecidableEq

/-- One use of a backend, with the text and file it was given. -/
structure Call where
  backend : Backend
  content : Text
  file : Option Text
  deriving Repr, DecidableEq

/-- The backends of an evaluation; there may be no external one. -/
structure Evaluator where
  external : Option Checker := none
  fallback : Checker := selfChecker

/-- The outcome of an evaluation and the calls it made, in order. -/
structure Evaluation where
  outcome : Except CheckError Unit
  calls : List Call

namespace Evaluator

/-- The stages that look at the text alone, up to the external checker. They give the text without
comments. -/
def prepare (t : Text) (file : Option Text) : Except CheckError Text := do
  (Source.checkOpenTag t file).mapError .rejected
  match lexicalReport? t with
  | .error .tooManyDigits => throw .unreadableNumber
  | .ok (some report) =>
      throw (.rejected (Rejection.of .compile report.message file report.line))
  | .ok none => pure ()
  let stripped := Source.stripComments t
  (Source.checkTrailingBuffer t stripped file).mapError .rejected
  return stripped

/-- What the external checker says: whether it confirms the source. One that cannot run confirms
nothing. -/
def confirm (external : Option Checker) (stripped : Text) (file : Option Text) :
    Except CheckError Bool :=
  match external with
  | none => .ok false
  | some checker =>
      match checker stripped file with
      | .error (.unavailable _) => .ok false
      | answer => answer

/-- The declarations, and the fallback unless the source is confirmed. -/
def conclude (fallback : Checker) (t stripped : Text) (file : Option Text) (confirmed : Bool) :
    Evaluation :=
  match Source.checkDeclarations stripped t file with
  | .error rejection => ⟨.error (.rejected rejection), []⟩
  | .ok () =>
      if confirmed then ⟨.ok (), []⟩
      else ⟨(fallback t file).map fun _ => (), [⟨.fallback, t, file⟩]⟩

def evaluate (e : Evaluator) (t : Text) (file : Option Text) : Evaluation :=
  match prepare t file with
  | .error error => ⟨.error error, []⟩
  | .ok stripped =>
      let asked := if e.external.isSome then [⟨.external, stripped, file⟩] else []
      match confirm e.external stripped file with
      | .error error => ⟨.error error, asked⟩
      | .ok confirmed =>
          let rest := conclude e.fallback t stripped file confirmed
          ⟨rest.outcome, asked ++ rest.calls⟩

/-- The outcome alone. -/
def check (e : Evaluator) (t : Text) (file : Option Text) : Except CheckError Unit :=
  (e.evaluate t file).outcome

end Evaluator
end PhpGate
