import PhpGate.Proofs.Interpreter.LintOutput
import PhpGate.Proofs.Interpreter.TemporaryFile

/-!
The errors of a check by an interpreter that are neither a rejection nor a reason why the
interpreter cannot run: a temporary file at a path that no file can have, and a line number that
cannot be read.
-/

namespace PhpGate

open Text

theorem Store.locateEntry_eq_embeddedNull_iff (files : Store) (path : Path) :
    files.locateEntry path = .error .embeddedNull ↔ path.hasNull = true := by
  rw [Store.locateEntry, Store.locateBy]
  cases path.hasNull with
  | true => simp
  | false =>
      refine iff_of_false ?_ Bool.false_ne_true
      rw [if_neg Bool.false_ne_true]
      intro same
      by_cases long : (encode path.text).length > longestPath
      · rw [if_pos long] at same
        cases same
      · rw [if_neg long] at same
        cases walked : files.walk false mostLinks (files.start path) path.parts with
        | error | ok =>
            rw [walked] at same
            cases same

theorem Store.create_eq_embeddedNull_iff (files : Store) (path : Path) :
    files.create path = .error .embeddedNull ↔ path.hasNull = true := by
  rw [← locateEntry_eq_embeddedNull_iff files, Store.create]
  cases files.locateEntry path with
  | error error => simp [bind, Except.bind]
  | ok l =>
      simp only [bind, Except.bind, reduceCtorEq, iff_false]
      split <;> simp

namespace Interpreter

variable {host : Host} {settings : InterpreterSettings} {files : Store} {t : Text}
  {file : Option Text}

/-- The programs that could be started refuse the file, and the last of them gives the line of its
first message with more digits than can be read. -/
def RefusesUnreadably (host : Host) (settings : InterpreterSettings) (files : Store) : Prop :=
  let path := temporaryPath host settings files
  (∃ made, files.create path = .ok made) ∧ host.writeFailure = none ∧
    (∀ binary ∈ candidates host settings, (host.behaviour binary).isDecisive = false) ∧
    ∃ output digits, lastOutput? host (candidates host settings) = some output ∧
      LintReport.NumbersLine (LintReport.firstLine (output.fill path.text)) digits ∧
      digitLimit < digits.length

theorem conclude_eq_unreadableNumber_iff {path : Text} {verdict : Verdict} :
    conclude settings path file verdict = .error .unreadableNumber ↔
      ∃ output digits, verdict = .refused output ∧
        LintReport.NumbersLine (LintReport.firstLine (output.fill path)) digits ∧
        digitLimit < digits.length := by
  cases verdict with
  | accepted | timedOut | noneStarted => simp [conclude]
  | refused output =>
      have unread := LintReport.read_eq_none_iff path (output.fill path)
      cases read : LintReport.read? path (output.fill path) with
      | none =>
          obtain ⟨digits, numbers, long⟩ := unread.mp read
          refine iff_of_true (by simp [conclude, read]) ⟨output, digits, rfl, numbers, long⟩
      | some report =>
          refine iff_of_false (by simp [conclude, read]) ?_
          rintro ⟨output, digits, same, numbers, long⟩
          cases same
          rw [read] at unread
          cases unread.mpr ⟨digits, numbers, long⟩

theorem conclude_ne {path : Text} {verdict : Verdict} {error : CheckError}
    (foreign : error = .impossiblePath ∨ error = .unencodable) :
    conclude settings path file verdict ≠ .error error := by
  cases verdict with
  | accepted | timedOut | noneStarted => obtain rfl | rfl := foreign <;> simp [conclude]
  | refused output =>
      obtain rfl | rfl := foreign <;>
        cases read : LintReport.read? path (output.fill path) <;> simp [conclude, read]

theorem checker_of_made {made : Store} (file : Option Text) (found : candidates host settings ≠ [])
    (created : files.create (temporaryPath host settings files) = .ok made) :
    checker host settings files t file = match host.writeFailure with
      | some e => .error (.unavailable (Unavailability.unwritten e).message)
      | none => conclude settings (temporaryPath host settings files).text file
          (runAll host (some (encode t)) none (candidates host settings)).2 :=
  (checkBytes_some file found created (encode t)).2.2.1

theorem checker_of_unmade {error : FileError} (found : candidates host settings ≠ [])
    (failed : files.create (temporaryPath host settings files) = .error error) :
    checker host settings files t file = .error (unmade error) := by
  rw [checker, check, checkBytes]
  cases listed : candidates host settings with
  | nil => exact absurd listed found
  | cons binary rest => simp only [failed]

theorem checker_of_nil (none : candidates host settings = []) :
    checker host settings files t file
      = .error (.unavailable Unavailability.noInterpreter.message) := by
  rw [checker, check, checkBytes, none]

/-- A file that cannot be made counts as a missing interpreter, unless its path is none. -/
theorem unmade_cases (error : FileError) :
    error = .embeddedNull ∧ unmade error = .impossiblePath ∨
      error ≠ .embeddedNull ∧ ∃ reason, unmade error = .unavailable reason := by
  cases error with
  | embeddedNull => exact .inl ⟨rfl, rfl⟩
  | denied reason => exact .inr ⟨nofun, _, rfl⟩
  | fault f path target => cases f <;> exact .inr ⟨nofun, _, rfl⟩

theorem checker_eq_impossiblePath_iff (t : Text) (file : Option Text) :
    checker host settings files t file = .error .impossiblePath ↔
      candidates host settings ≠ [] ∧ (temporaryPath host settings files).hasNull = true := by
  rw [← Store.create_eq_embeddedNull_iff files]
  by_cases found : candidates host settings = []
  · rw [checker_of_nil found]
    simp [found]
  · rw [and_iff_right found]
    cases outcome : files.create (temporaryPath host settings files) with
    | ok made =>
        rw [checker_of_made file found outcome]
        refine iff_of_false ?_ nofun
        cases host.writeFailure with
        | some e => exact nofun
        | none => exact conclude_ne (.inl rfl)
    | error error =>
        rw [checker_of_unmade found outcome]
        obtain ⟨rfl, same⟩ | ⟨other, reason, same⟩ := unmade_cases error
        · rw [same]
          exact iff_of_true rfl rfl
        · rw [same]
          exact iff_of_false nofun fun null => other (Except.error.inj null)

theorem checker_eq_unreadableNumber_iff (file : Option Text) :
    checker host settings files t file = .error .unreadableNumber ↔
      RefusesUnreadably host settings files := by
  simp only [RefusesUnreadably]
  by_cases found : candidates host settings = []
  · rw [checker_of_nil found]
    simp [found, lastOutput?]
  · cases outcome : files.create (temporaryPath host settings files) with
    | ok made =>
        rw [checker_of_made file found outcome]
        cases failure : host.writeFailure with
        | some e =>
            refine iff_of_false (fun same => ?_) fun refuses => ?_
            · cases same
            · obtain ⟨-, written, -⟩ := refuses
              cases written
        | none =>
            simp only [conclude_eq_unreadableNumber_iff, runAll_refused_iff]
            constructor
            · rintro ⟨output, digits, ⟨undecided, last⟩, numbers, long⟩
              exact ⟨⟨made, rfl⟩, trivial, undecided, output, digits, last, numbers, long⟩
            · rintro ⟨-, -, undecided, output, digits, last, numbers, long⟩
              exact ⟨output, digits, ⟨undecided, last⟩, numbers, long⟩
    | error error =>
        rw [checker_of_unmade found outcome]
        refine iff_of_false (fun refused => ?_) fun refuses => ?_
        · have here := Except.error.inj refused
          obtain ⟨-, same⟩ | ⟨-, reason, same⟩ := unmade_cases error
          · cases same.symm.trans here
          · cases same.symm.trans here
        · obtain ⟨⟨made, same⟩, -⟩ := refuses
          cases same

/-- Only a source with a surrogate cannot be encoded, and a text has none. -/
theorem checker_ne_unencodable : checker host settings files t file ≠ .error .unencodable := by
  by_cases found : candidates host settings = []
  · rw [checker_of_nil found]
    exact nofun
  · cases outcome : files.create (temporaryPath host settings files) with
    | ok made =>
        rw [checker_of_made file found outcome]
        cases host.writeFailure with
        | some e => exact nofun
        | none => exact conclude_ne (.inr rfl)
    | error error =>
        rw [checker_of_unmade found outcome]
        obtain ⟨-, same⟩ | ⟨-, reason, same⟩ := unmade_cases error <;> rw [same] <;> exact nofun

end Interpreter
end PhpGate
