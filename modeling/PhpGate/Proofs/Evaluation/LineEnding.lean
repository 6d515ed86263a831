import PhpGate.Proofs.Evaluation.Stages
import PhpGate.Proofs.SelfCheck.LineEnding
import PhpGate.Proofs.Token.Report

/-!
The verdict on a source does not depend on its line endings: every stage fails for both of two texts
that differ in their line endings only, with the same kind of error, or for neither.
-/

namespace PhpGate

open Text Source

/-- The kind of a rejection; other errors have none. -/
def CheckError.kind? : CheckError → Option ErrorKind
  | rejected r => some r.diagnostic.kind
  | _ => none

namespace Evaluator

variable {a b t : Text} (file : Option Text)

/-- The lexical stage fails by the line that lexing stops on. -/
theorem tokens_kind (e : Evaluator) (t : Text) : (e.failure? t file .tokens).map CheckError.kind?
    = ((Lexing.of t).stop?.map LexicalStop.line).map fun line =>
        if Nat.pow 10 digitLimit ≤ line then none else some .compile := by
  have unreadable := lexicalReport_eq_error_iff (t := t)
  rw [failure?]
  cases stop : (Lexing.of t).stop? with
  | none =>
      have report : lexicalReport? t = .ok none := by rw [lexicalReport?, stop]
      rw [report]
      rfl
  | some place =>
      simp only [stop, Option.some.injEq, exists_eq_left'] at unreadable
      simp only [Option.map_some]
      cases report : lexicalReport? t with
      | error fault =>
          cases fault
          rw [if_pos (unreadable.mp report)]
          rfl
      | ok found =>
          have short : ¬ Nat.pow 10 digitLimit ≤ place.line := by
            rw [← unreadable, report]
            simp
          rw [if_neg short]
          simp only [lexicalReport?, stop] at report
          generalize LexicalReport.ofDescription _ = described at report
          cases described <;> cases report
          rfl

theorem trailing_kind (e : Evaluator) (t : Text) :
    (e.failure? t file .trailing).map CheckError.kind?
      = if (trailingBuffer? t (stripComments t)).isSome then some (some .buffer) else none := by
  rw [failure?, checkTrailingBuffer]
  cases trailingBuffer? t (stripComments t) <;> rfl

theorem declarations_kind (e : Evaluator) (t : Text) :
    (e.failure? t file .declarations).map CheckError.kind?
      = if ((Declaration.all (blankStrings (stripComments t))).find?
          fun d => !isValidPath d.2.path).isSome then some (some .parse) else none := by
  rw [failure?, checkDeclarations]
  cases (Declaration.all (blankStrings (stripComments t))).find? fun d => !isValidPath d.2.path <;> rfl

theorem fallback_kind (t : Text) : (failure? {} t file .fallback).map CheckError.kind?
    = if selfCheck t file = .ok () then none else some (some .parse) := by
  have unconfirmed : confirms {} t file = false := rfl
  rw [failure?, unconfirmed]
  delta selfChecker selfCheck
  dsimp only
  cases compile (wrap t) with
  | ok => rfl
  | error failure => rfl

theorem failure_kind_same (h : SameLines a b) (s : Stage) :
    (failure? {} a file s).map CheckError.kind? = (failure? {} b file s).map CheckError.kind? := by
  cases s with
  | openTag => rw [failure?, failure?, checkOpenTag_same h]
  | tokens => rw [tokens_kind, tokens_kind, stop_line_same h]
  | trailing => rw [trailing_kind, trailing_kind, trailingBuffer_same h]
  | external => rfl
  | declarations =>
      rw [declarations_kind, declarations_kind]
      rw [find_declaration_same (blankStrings_same (stripComments_same h)) fun path => !isValidPath path]
  | fallback => simp only [fallback_kind, selfCheck_same h]

/-- The outcome of a check, errors read by their kind, is that of the first stage that fails. -/
theorem check_kind (e : Evaluator) (t : Text) : (e.check t file).mapError CheckError.kind?
    = (Stage.inOrder.findSome? fun s => (e.failure? t file s).map CheckError.kind?).elim (.ok ())
        .error := by
  have first : (Stage.inOrder.findSome? fun s => (e.failure? t file s).map CheckError.kind?)
      = (Stage.inOrder.findSome? (e.failure? t file)).map CheckError.kind? :=
    List.map_findSome?.symm
  rw [check, evaluate_outcome, first]
  cases Stage.inOrder.findSome? (e.failure? t file) <;> rfl

theorem check_kind_same (h : SameLines a b) :
    (check {} a file).mapError CheckError.kind? = (check {} b file).mapError CheckError.kind? := by
  simp only [check_kind, failure_kind_same file h]

end Evaluator

theorem mapError_kind_eq_error_iff {outcome : Except CheckError Unit} {kind : ErrorKind} :
    outcome.mapError CheckError.kind? = .error (some kind) ↔
      ∃ r, outcome = .error (.rejected r) ∧ r.diagnostic.kind = kind := by
  cases outcome with
  | ok => simp [mapError_ok]
  | error error => cases error <;> simp [mapError_error, CheckError.kind?]

namespace Evaluator

variable {t : Text} (file : Option Text)

/-- Writing every line feed as a carriage return and a line feed changes neither whether a source is
accepted nor the kind of its rejection. -/
theorem check_pairBreaks (unpaired : '\r' ∉ t) :
    let e : Evaluator := {}
    (e.check t file = .ok () ↔ e.check (pairBreaks t) file = .ok ()) ∧
      ∀ kind, (∃ r, e.check t file = .error (.rejected r) ∧ r.diagnostic.kind = kind) ↔
        ∃ r, e.check (pairBreaks t) file = .error (.rejected r) ∧ r.diagnostic.kind = kind := by
  intro e
  have same : (e.check t file).mapError CheckError.kind?
      = (e.check (pairBreaks t) file).mapError CheckError.kind? :=
    check_kind_same file (sameLines_pairBreaks unpaired)
  constructor
  · rw [← mapError_eq_ok_iff CheckError.kind?, same, mapError_eq_ok_iff]
  · intro kind
    rw [← mapError_kind_eq_error_iff, same, mapError_kind_eq_error_iff]

/-- A heredoc keeps its delimiter, and a string its end, when the lines end in two characters. -/
theorem check_pairBreaks_heredoc :
    let e : Evaluator := {}
    let t := "<?php\n$a = <<<X\n a\n X;\n# b\n$c = 'd\n';\n".toList
    e.check t none = .ok () ∧ e.check (pairBreaks t) none = .ok () :=
  have accepted : check {} "<?php\n$a = <<<X\n a\n X;\n# b\n$c = 'd\n';\n".toList none = .ok () := rfl
  ⟨accepted, (check_pairBreaks none (by decide)).1.mp accepted⟩

end Evaluator
end PhpGate
