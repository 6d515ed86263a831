import PhpGate.Evaluation
import PhpGate.Proofs.Outcome

/-!
An evaluation as a row of stages. Each stage has a failure of its own, said without the others; the
first stage that fails decides, and a backend is asked when no stage before it fails.
-/

namespace PhpGate

open Text Source

inductive Stage where
  | openTag | tokens | trailing | external | declarations | fallback
  deriving Repr, DecidableEq

namespace Stage

def inOrder : List Stage :=
  [openTag, tokens, trailing, external, declarations, fallback]

def earlier (s : Stage) : List Stage :=
  inOrder.takeWhile (· != s)

theorem earlier_of_split {s : Stage} {front back : List Stage} (split : inOrder = front ++ s :: back) :
    s.earlier = front := by
  have distinct : inOrder.Nodup := by decide
  rw [split] at distinct
  have apart : ∀ x ∈ front, (x != s) = true := by
    intro x mem
    have differ := (List.nodup_append.mp distinct).2.2 x mem s List.mem_cons_self
    simpa using differ
  rw [earlier, split, List.takeWhile_append_of_pos apart]
  simp

theorem inOrder_eq (s : Stage) : ∃ back, inOrder = s.earlier ++ s :: back := by
  cases s <;> exact ⟨_, rfl⟩

end Stage

def errorOf? {ε α : Type} : Except ε α → Option ε
  | .error error => some error
  | .ok _ => none

namespace CheckError

def isUnavailable : CheckError → Bool
  | unavailable _ => true
  | _ => false

end CheckError

namespace Evaluator

/-- The external checker, asked about the text without comments, calls it sound. -/
def confirms (e : Evaluator) (t : Text) (file : Option Text) : Bool :=
  e.external.any fun checker => (checker (stripComments t) file).toOption == some true

/-- How a stage fails once the evaluation comes to it. An external checker that cannot run is no
failure, and the fallback is not needed for a text that is confirmed. -/
def failure? (e : Evaluator) (t : Text) (file : Option Text) : Stage → Option CheckError
  | .openTag => (errorOf? (checkOpenTag t file)).map .rejected
  | .tokens =>
      match lexicalReport? t with
      | .error .tooManyDigits => some .unreadableNumber
      | .ok report =>
          report.map fun r => .rejected (Rejection.of .compile r.message file r.line)
  | .trailing => (errorOf? (checkTrailingBuffer t (stripComments t) file)).map .rejected
  | .external =>
      (e.external.bind fun checker => errorOf? (checker (stripComments t) file)).filter
        (!·.isUnavailable)
  | .declarations => (errorOf? (checkDeclarations (stripComments t) t file)).map .rejected
  | .fallback => if e.confirms t file then none else errorOf? (e.fallback t file)

/-- No stage before this one fails. -/
def reaches (e : Evaluator) (t : Text) (file : Option Text) (s : Stage) : Bool :=
  (s.earlier.findSome? (e.failure? t file)).isNone

variable (e : Evaluator) (t : Text) (file : Option Text)

theorem prepare_eq :
    prepare t file = (([.openTag, .tokens, .trailing] : List Stage).findSome?
      (e.failure? t file)).elim (.ok (stripComments t)) .error := by
  cases tag : checkOpenTag t file with
  | error r => simp [prepare, tag, failure?, errorOf?, mapError_error, bind, Except.bind]
  | ok =>
      cases report : lexicalReport? t with
      | error fault =>
          cases fault
          simp [prepare, tag, report, failure?, errorOf?, mapError_ok, bind, Except.bind,
            throw, throwThe, MonadExceptOf.throw]
      | ok report' =>
          cases report' with
          | some r =>
              simp [prepare, tag, report, failure?, errorOf?, mapError_ok, bind, Except.bind,
                throw, throwThe, MonadExceptOf.throw]
          | none =>
              cases trailing : checkTrailingBuffer t (stripComments t) file <;>
                simp [prepare, tag, report, trailing, failure?, errorOf?, mapError_error,
                  mapError_ok, bind, Except.bind, pure, Except.pure]

theorem confirm_eq :
    confirm e.external (stripComments t) file
      = (e.failure? t file .external).elim (.ok (e.confirms t file)) .error := by
  cases external : e.external with
  | none => simp [confirm, failure?, confirms, external]
  | some checker =>
      cases answer : checker (stripComments t) file with
      | ok b => simp [confirm, failure?, confirms, external, answer, errorOf?, Except.toOption]
      | error error =>
          cases error <;>
            simp [confirm, failure?, confirms, external, answer, errorOf?, Except.toOption,
              CheckError.isUnavailable, Option.filter]

theorem conclude_outcome :
    (conclude e.fallback t (stripComments t) file (e.confirms t file)).outcome
      = (([.declarations, .fallback] : List Stage).findSome? (e.failure? t file)).elim (.ok ())
          .error := by
  cases declared : checkDeclarations (stripComments t) t file with
  | error r => simp [conclude, declared, failure?, errorOf?]
  | ok =>
      cases confirmed : e.confirms t file with
      | true => simp [conclude, declared, failure?, errorOf?, confirmed]
      | false =>
          cases answer : e.fallback t file <;>
            simp [conclude, declared, failure?, errorOf?, confirmed, answer, Except.map]

theorem conclude_calls :
    (conclude e.fallback t (stripComments t) file (e.confirms t file)).calls
      = if e.failure? t file .declarations = none ∧ e.confirms t file = false
          then [⟨.fallback, t, file⟩] else [] := by
  cases declared : checkDeclarations (stripComments t) t file with
  | error r => simp [conclude, declared, failure?, errorOf?]
  | ok =>
      cases confirmed : e.confirms t file <;>
        simp [conclude, declared, failure?, errorOf?]

/-- The outcome is the failure of the first stage that has one. -/
theorem evaluate_outcome :
    (e.evaluate t file).outcome
      = (Stage.inOrder.findSome? (e.failure? t file)).elim (.ok ()) .error := by
  have order : Stage.inOrder
      = [.openTag, .tokens, .trailing] ++ ([.external] ++ [.declarations, .fallback]) := rfl
  have single : [Stage.external].findSome? (e.failure? t file) = e.failure? t file .external := by
    simp
  rw [order, List.findSome?_append, List.findSome?_append, single, evaluate, prepare_eq e]
  cases ([.openTag, .tokens, .trailing] : List Stage).findSome? (e.failure? t file) with
  | some error => rfl
  | none =>
      simp only [Option.elim_none, Option.none_or, confirm_eq]
      cases e.failure? t file .external with
      | some error => rfl
      | none => exact conclude_outcome e t file

/-- A backend is asked when no stage before its own fails: the external checker if there is one, the
fallback unless the text is confirmed. -/
theorem evaluate_calls :
    (e.evaluate t file).calls
      = (if e.reaches t file .external && e.external.isSome
          then [⟨.external, stripComments t, file⟩] else [])
        ++ (if e.reaches t file .fallback && !e.confirms t file
          then [⟨.fallback, t, file⟩] else []) := by
  have external : Stage.external.earlier = [.openTag, .tokens, .trailing] := rfl
  have fallback : Stage.fallback.earlier
      = [.openTag, .tokens, .trailing] ++ ([.external] ++ [.declarations]) := rfl
  have single (s : Stage) : [s].findSome? (e.failure? t file) = e.failure? t file s := by simp
  rw [reaches, reaches, external, fallback, List.findSome?_append, List.findSome?_append,
    single, single, evaluate, prepare_eq e]
  cases ([.openTag, .tokens, .trailing] : List Stage).findSome? (e.failure? t file) with
  | some error => simp
  | none =>
      simp only [Option.elim_none, Option.none_or, confirm_eq]
      cases e.failure? t file .external with
      | some error => simp
      | none => simp [conclude_calls]

theorem firstFailure_eq_some_iff {error : CheckError} :
    Stage.inOrder.findSome? (e.failure? t file) = some error ↔
      ∃ s, e.reaches t file s = true ∧ e.failure? t file s = some error := by
  simp only [reaches, Option.isNone_iff_eq_none, List.findSome?_eq_none_iff]
  constructor
  · intro found
    obtain ⟨front, s, back, split, failed, passed⟩ := List.findSome?_eq_some_iff.mp found
    rw [← Stage.earlier_of_split split] at passed
    exact ⟨s, passed, failed⟩
  · rintro ⟨s, passed, failed⟩
    obtain ⟨back, split⟩ := s.inOrder_eq
    exact List.findSome?_eq_some_iff.mpr ⟨s.earlier, s, back, split, failed, passed⟩

theorem outcome_eq_error_iff {error : CheckError} :
    (e.evaluate t file).outcome = .error error ↔
      ∃ s, e.reaches t file s = true ∧ e.failure? t file s = some error := by
  rw [evaluate_outcome, ← firstFailure_eq_some_iff]
  cases Stage.inOrder.findSome? (e.failure? t file) <;> simp

/-- An evaluation ends in the failure of the first stage that fails, or well if none does. It asks
the external checker at most once, about the text without comments, and the fallback at most once,
about the text itself. -/
theorem evaluate_eq_firstFailure :
    (∀ error, (e.evaluate t file).outcome = .error error ↔
      ∃ s, e.reaches t file s = true ∧ e.failure? t file s = some error) ∧
    (e.evaluate t file).calls
      = (if e.reaches t file .external && e.external.isSome
          then [⟨.external, stripComments t, file⟩] else [])
        ++ (if e.reaches t file .fallback && !e.confirms t file
          then [⟨.fallback, t, file⟩] else []) :=
  ⟨fun _ => outcome_eq_error_iff e t file, evaluate_calls e t file⟩

end Evaluator
end PhpGate
