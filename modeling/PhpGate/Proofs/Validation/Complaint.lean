import PhpGate.Proofs.Evaluation.Stages
import PhpGate.Validation.Result

/-!
What is wrong with a file, said of the file alone: it cannot be read, or the first stage that fails
rejects its text. The result of a candidate says just this, whatever else is validated with it.
-/

namespace PhpGate

/-- What a report says of an invalid file. -/
structure Complaint where
  kind : Text
  message : Text
  line : Int
  deriving Repr, DecidableEq

namespace Complaint

def ofRejection (r : Rejection) : Complaint :=
  ⟨r.diagnostic.kind.name, r.diagnostic.message, r.diagnostic.line⟩

def ofUnreadable (p : Path) (e : FileError) : Complaint :=
  ⟨ValidationResult.readErrorKind,
    "Failed to read ".toList ++ p.name ++ ": ".toList ++ e.message, 0⟩

end Complaint

/-- The text of a file and the label that diagnostics give it. -/
def Store.labelled (files : Store) (p : Path) : Except FileError (Text × Text) :=
  match files.readText p, files.realPath p with
  | .error e, _ | .ok _, .error e => .error e
  | .ok t, .ok label => .ok (t, label)

namespace Evaluator

/-- What is wrong with a file, if anything. -/
def complaint? (e : Evaluator) (files : Store) (p : Path) : Option Complaint :=
  match files.labelled p with
  | .error error => some (.ofUnreadable p error)
  | .ok (t, label) =>
      match Stage.inOrder.findSome? (e.failure? t (some label)) with
      | some (.rejected r) => some (.ofRejection r)
      | _ => none

/-- A file can be read and its text is accepted. -/
def Accepts (e : Evaluator) (files : Store) (p : Path) : Prop :=
  ∃ t label, files.readText p = .ok t ∧ files.realPath p = .ok label ∧
    e.check t (some label) = .ok ()

end Evaluator

namespace ValidationResult

def ofComplaint (c : Candidate) : Option Complaint → ValidationResult
  | none => { path := c.path.text, fingerprint := c.fingerprint, status := .valid }
  | some k =>
      { path := c.path.text, fingerprint := c.fingerprint, status := .invalid,
        kind := some k.kind, message := some k.message, line := some k.line }

theorem isValid_ofComplaint (c : Candidate) (k : Option Complaint) :
    (ofComplaint c k).isValid = k.isNone := by
  cases k <;> rfl

end ValidationResult

namespace Validation

open Evaluator

variable {e : Evaluator} {files : Store}

theorem labelled_eq_ok_iff {p : Path} {t label : Text} :
    files.labelled p = .ok (t, label) ↔ files.readText p = .ok t ∧ files.realPath p = .ok label := by
  rw [Store.labelled]
  cases files.readText p <;> cases files.realPath p <;> simp

theorem validate_of_labelled_error {p : Path} {error : FileError}
    (unread : files.labelled p = .error error) :
    ∃ s, FileState.validate e (files.realPath p) (fun _ => files.readText p) {}
      = (.error (.unreadable error), s) := by
  rw [Store.labelled] at unread
  cases read : files.readText p with
  | error error' =>
      rw [read] at unread
      cases unread
      exact ⟨{ reads := 1 }, rfl⟩
  | ok t =>
      cases named : files.realPath p with
      | error error' =>
          rw [read, named] at unread
          cases unread
          exact ⟨{ reads := 1, content := some t }, rfl⟩
      | ok label =>
          rw [read, named] at unread
          cases unread

theorem validate_of_labelled_ok {p : Path} {t label : Text}
    (read : files.labelled p = .ok (t, label)) :
    FileState.validate e (files.realPath p) (fun _ => files.readText p) {}
      = ({ reads := 1, content := some t } : FileState).settle (e.evaluate t (some label)) := by
  obtain ⟨text, named⟩ := labelled_eq_ok_iff.mp read
  rw [text, named]
  rfl

/-- A candidate whose validation ends is reported with what is wrong with its file. -/
theorem ofCandidate_eq_ok {c : Candidate} {v : Validation} (ended : ofCandidate e files c = .ok v) :
    v.result = .ofComplaint c (e.complaint? files c.path) ∧
      (e.complaint? files c.path = none ↔ e.Accepts files c.path) := by
  rw [ofCandidate] at ended
  rw [complaint?]
  cases read : files.labelled c.path with
  | error error =>
      have unaccepted : ¬ e.Accepts files c.path := by
        rintro ⟨t, label, text, named, -⟩
        rw [labelled_eq_ok_iff.mpr ⟨text, named⟩] at read
        cases read
      obtain ⟨s, same⟩ := validate_of_labelled_error (e := e) read
      rw [same] at ended
      cases error <;> cases ended <;> exact ⟨rfl, by simp [unaccepted]⟩
  | ok labelled =>
      obtain ⟨t, label⟩ := labelled
      have accepts : e.Accepts files c.path ↔ (e.evaluate t (some label)).outcome = .ok () := by
        obtain ⟨text, named⟩ := labelled_eq_ok_iff.mp read
        simp [Accepts, text, named, check]
      rw [validate_of_labelled_ok read, FileState.settle] at ended
      rw [accepts]
      rw [evaluate_outcome] at ended ⊢
      dsimp only
      cases first : Stage.inOrder.findSome? (e.failure? t (some label)) with
      | none =>
          rw [first] at ended
          cases ended
          exact ⟨rfl, by simp⟩
      | some error =>
          rw [first] at ended
          cases error <;> cases ended
          exact ⟨rfl, by simp⟩

/-- Where no validation breaks down every candidate is reported with what is wrong with its own
file. -/
theorem all_eq_none {candidates : List Candidate} {vs : List Validation}
    (ended : all e files candidates = (vs, none)) :
    vs.map (·.result) = candidates.map (fun c => .ofComplaint c (e.complaint? files c.path)) ∧
      ∀ c ∈ candidates, e.complaint? files c.path = none ↔ e.Accepts files c.path := by
  induction candidates generalizing vs with
  | nil =>
      cases ended
      exact ⟨rfl, nofun⟩
  | cons c candidates ih =>
      rw [all] at ended
      cases first : ofCandidate e files c with
      | error b =>
          rw [first] at ended
          cases ended
      | ok v =>
          rw [first] at ended
          cases rest : all e files candidates with
          | mk vs' breakdown =>
              rw [rest] at ended
              cases ended
              obtain ⟨result, accepted⟩ := ofCandidate_eq_ok first
              obtain ⟨results, others⟩ := ih rest
              exact ⟨by rw [List.map_cons, List.map_cons, result, results],
                List.forall_mem_cons.mpr ⟨accepted, others⟩⟩

end Validation
end PhpGate
