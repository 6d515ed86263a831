import PhpGate.Proofs.Interpreter.Answer
import PhpGate.Proofs.Number.Written

/-!
The messages of a check by an interpreter. Whatever the programs print, a rejection tells it in a
single line: only a part of the first line of the output is kept.
-/

namespace PhpGate

open Text

namespace LintReport

theorem isOneLine_firstLine (output : Text) : IsOneLine (firstLine output) := by
  rw [firstLine]
  cases found : ((lines output).map trim).find? (!·.isEmpty) with
  | none => exact isOneLine_nil
  | some line =>
      obtain ⟨l, mem, rfl⟩ := List.mem_map.mp (List.mem_of_find?_eq_some found)
      exact (isOneLine_of_mem_lines mem).trim

theorem dropLabel_subset (t : Text) : dropLabel t ⊆ t := by
  rw [dropLabel]
  split
  · rw [afterBlanks?]
    split
    · exact fun _ mem => mem
    · exact fun _ mem => List.drop_subset _ t (List.drop_subset _ _ mem)
  · exact fun _ mem => mem

theorem isOneLine_read {path output : Text} {report : LintReport}
    (read : read? path output = some report) : IsOneLine report.message := by
  have line := isOneLine_firstLine output
  rw [read?] at read
  split at read
  · cases read
    decide
  · have message : IsOneLine (trim (dropPlace path (dropLabel (firstLine output)))) :=
      (line.subset fun _ mem => dropLabel_subset _ (substitute_nil_subset _ mem)).trim
    split at read
    · cases read
      exact message
    · obtain ⟨n, -, rfl⟩ := Option.map_eq_some_iff.mp read
      exact message

end LintReport

theorem Rejection.isOneLine_of {message : Text} (single : IsOneLine message) (kind : ErrorKind)
    (file : Option Text) (line : Int) :
    IsOneLine (Rejection.of kind message file line).diagnostic.message :=
  single.trim

namespace Interpreter

variable {host : Host} {settings : InterpreterSettings} {files : Store} {t : Text}
  {file : Option Text} {r : Rejection}

theorem isOneLine_timeoutMessage (timeout : Binary64) : IsOneLine (timeoutMessage timeout) :=
  ((by decide : IsOneLine _).append (Binary64.isOneLine_general timeout)).append (by decide)

theorem isOneLine_conclude {path : Text} {verdict : Verdict}
    (rejected : conclude settings path file verdict = .error (.rejected r)) :
    IsOneLine r.diagnostic.message := by
  cases verdict with
  | accepted | noneStarted => cases rejected
  | timedOut =>
      cases rejected
      exact Rejection.isOneLine_of (isOneLine_timeoutMessage _) _ _ _
  | refused output =>
      rw [conclude] at rejected
      cases read : LintReport.read? path (output.fill path) with
      | none =>
          rw [read] at rejected
          cases rejected
      | some report =>
          rw [read] at rejected
          cases rejected
          exact Rejection.isOneLine_of (LintReport.isOneLine_read read) _ _ _

theorem isOneLine_checker (rejected : checker host settings files t file = .error (.rejected r)) :
    IsOneLine r.diagnostic.message := by
  by_cases found : candidates host settings = []
  · rw [checker_of_nil found] at rejected
    cases rejected
  · cases outcome : files.create (temporaryPath host settings files) with
    | error error =>
        rw [checker_of_unmade found outcome] at rejected
        obtain ⟨-, same⟩ | ⟨-, reason, same⟩ := unmade_cases error <;>
          · rw [same] at rejected
            cases rejected
    | ok made =>
        rw [checker_of_made file found outcome] at rejected
        split at rejected
        · cases rejected
        · exact isOneLine_conclude rejected

end Interpreter
end PhpGate
