import PhpGate.Proofs.Evaluation.Stages
import PhpGate.Proofs.Interpreter.Answer
import PhpGate.Proofs.Text.Lines
import PhpGate.Proofs.Token.Place

/-!
Whether an evaluation with an interpreter ends in an answer, that is, whether the source is accepted
or rejected. It does unless a line number with too many digits comes up or the temporary file has an
impossible path.
-/

namespace PhpGate

open Text Source Interpreter

namespace Evaluator

section

variable (e : Evaluator) (t : Text) (file : Option Text)

/-- A stage fails otherwise than by rejecting the source. -/
def BreaksAt (s : Stage) : Prop :=
  ∃ error, e.failure? t file s = some error ∧ ∀ r, error ≠ .rejected r

theorem answers_iff_not_breaksAt :
    (e.check t file = .ok () ∨ ∃ r, e.check t file = .error (.rejected r)) ↔
      ∀ s, e.reaches t file s = true → ¬ e.BreaksAt t file s := by
  constructor
  · rintro answered s reached ⟨error, failed, other⟩
    have outcome : e.check t file = .error error :=
      (outcome_eq_error_iff e t file).mpr ⟨s, reached, failed⟩
    rw [outcome] at answered
    obtain ok | ⟨r, rejected⟩ := answered
    · cases ok
    · cases rejected
      exact other r rfl
  · intro sound
    cases outcome : e.check t file with
    | ok => exact .inl rfl
    | error error =>
        obtain ⟨s, reached, failed⟩ := (outcome_eq_error_iff e t file).mp outcome
        cases error with
        | rejected r => exact .inr ⟨r, rfl⟩
        | unavailable | unreadableNumber | impossiblePath | unencodable =>
            exact absurd ⟨_, failed, nofun⟩ (sound s reached)

/-- A stage whose failures are rejections does not break. -/
theorem not_breaksAt_of_map {s : Stage} {outcome : Except Rejection Unit}
    (h : ∀ error, e.failure? t file s = some error →
      (errorOf? outcome).map .rejected = some error) : ¬ e.BreaksAt t file s := by
  rintro ⟨error, failed, other⟩
  obtain ⟨r, -, rfl⟩ := Option.map_eq_some_iff.mp (h error failed)
  exact other r rfl

theorem breaksAt_tokens_iff :
    e.BreaksAt t file .tokens ↔
      ∃ stop, (Lexing.of t).stop? = some stop ∧ Nat.pow 10 digitLimit ≤ stop.line := by
  rw [BreaksAt, ← lexicalReport_eq_error_iff, failure?]
  cases report : lexicalReport? t with
  | error fault =>
      cases fault
      simp
  | ok found => cases found <;> simp

end

variable (host : Host) (settings : InterpreterSettings) (files : Store) (t : Text)
  (file : Option Text)

/-- The evaluator that asks an interpreter, and the self check where there is none. -/
def withInterpreter : Evaluator :=
  { external := some (checker host settings files) }

theorem breaksAt_external_iff :
    (withInterpreter host settings files).BreaksAt t file .external ↔
      (candidates host settings ≠ [] ∧ (temporaryPath host settings files).hasNull = true) ∨
        RefusesUnreadably host settings files := by
  rw [← checker_eq_impossiblePath_iff (stripComments t) file,
    ← checker_eq_unreadableNumber_iff (t := stripComments t) file]
  have encodable : checker host settings files (stripComments t) file ≠ .error .unencodable :=
    checker_ne_unencodable
  cases answer : checker host settings files (stripComments t) file with
  | ok b => simp [BreaksAt, failure?, withInterpreter, answer, errorOf?]
  | error error =>
      cases error with
      | unencodable => exact absurd answer encodable
      | rejected | unavailable | unreadableNumber | impossiblePath =>
          simp [BreaksAt, failure?, withInterpreter, answer, errorOf?, CheckError.isUnavailable,
            Option.filter]

theorem errorOf_selfChecker :
    errorOf? (selfChecker t file) = (errorOf? (selfCheck t file)).map .rejected := by
  delta selfChecker
  cases selfCheck t file <;> rfl

theorem not_breaksAt_fallback :
    ¬ (withInterpreter host settings files).BreaksAt t file .fallback := by
  have default : (withInterpreter host settings files).fallback = selfChecker := by
    rw [withInterpreter]
  apply not_breaksAt_of_map
  intro error failed
  rw [failure?, Option.ite_none_left_eq_some, default, errorOf_selfChecker] at failed
  exact failed.2

theorem shownText_ne_nil {token : Token} (mem : token ∈ tokens t) : token.shownText ≠ [] := by
  obtain ⟨before, r, -, first⟩ := first_of_mem_tokens mem
  obtain ⟨positive, -⟩ := Terminal.first_fits first
  have nonempty : token.text ≠ [] := List.length_pos_iff.mp positive
  rw [Lexeme.shownText]
  split
  · exact List.cons_ne_nil _ _
  · simpa using nonempty
  · exact nonempty

/-- An evaluation with an interpreter accepts or rejects the source, whatever the programs do, just
when each line number that comes up can be read and the temporary file has a possible path. A token
that the self check may show always has a first line. -/
theorem answers_iff :
    (let e := withInterpreter host settings files
    (e.check t file = .ok () ∨ ∃ r, e.check t file = .error (.rejected r)) ↔
      (e.reaches t file .tokens = true →
        ∀ stop, (Lexing.of t).stop? = some stop → stop.line < Nat.pow 10 digitLimit) ∧
      (e.reaches t file .external = true →
        (candidates host settings ≠ [] → (temporaryPath host settings files).hasNull = false) ∧
        ¬ RefusesUnreadably host settings files)) ∧
    ∀ token ∈ tokens (wrap t), lines token.shownText ≠ [] := by
  refine ⟨?_, fun token mem => lines_ne_nil (shownText_ne_nil (wrap t) mem)⟩
  intro e
  have tokens : ¬ e.BreaksAt t file .tokens ↔
      ∀ stop, (Lexing.of t).stop? = some stop → stop.line < Nat.pow 10 digitLimit := by
    simp only [breaksAt_tokens_iff, not_exists, not_and, Nat.not_le]
  have external : ¬ e.BreaksAt t file .external ↔
      (candidates host settings ≠ [] → (temporaryPath host settings files).hasNull = false) ∧
        ¬ RefusesUnreadably host settings files := by
    simp [e, breaksAt_external_iff]
  rw [answers_iff_not_breaksAt, ← tokens, ← external]
  constructor
  · intro sound
    exact ⟨sound .tokens, sound .external⟩
  · rintro ⟨tokensSound, externalSound⟩ s reached
    cases s with
    | openTag | trailing | declarations =>
        exact not_breaksAt_of_map e t file fun _ failed => failed
    | tokens => exact tokensSound reached
    | external => exact externalSound reached
    | fallback => exact not_breaksAt_fallback host settings files t file

/-- A line number with one digit more than can be read. -/
def longDigits : Text :=
  List.replicate (digitLimit + 1) '1'

/-- A machine on which every source is refused, on a line with such a number. -/
def refusingHost : Host where
  lookup name := if name = "php".toList then some "/b/php".toList else none
  behaviour _ := .exits 255 [.words ("on line ".toList ++ longDigits)]
  temporaryDirectory := Path.of "/tmp".toList
  temporaryName := "phpcheck.php".toList

theorem numbersLine_longDigits :
    LintReport.NumbersLine (LintReport.firstLine ("on line ".toList ++ longDigits)) longDigits := by
  have digit : ∀ c ∈ longDigits, c = '1' := fun _ => List.eq_of_mem_replicate
  have unbroken : ∀ c ∈ "on line ".toList ++ longDigits, isLineBreak c = false := by
    intro c mem
    obtain word | mem := List.mem_append.mp mem
    · have words : ("on line ".toList.all fun c => !isLineBreak c) = true := rfl
      exact (Bool.not_eq_true' _).mp (List.all_eq_true.mp words c word)
    · rw [digit c mem]
      rfl
  have last : ("on line ".toList ++ longDigits).getLast? = some '1' := by
    rw [longDigits, List.replicate_succ', ← List.append_assoc, List.getLast?_concat]
  have trimmed : trim ("on line ".toList ++ longDigits) = "on line ".toList ++ longDigits :=
    trim_of_ends rfl (by rw [last]; rfl)
  have phrase : LintReport.OnLine ("on line ".toList ++ longDigits) longDigits := by
    refine ⟨"on".toList, [' '], "line".toList, [' '], [], ?_, rfl, List.cons_ne_nil _ _, rfl, rfl,
      List.cons_ne_nil _ _, rfl, List.cons_ne_nil _ _, ?_, rfl⟩
    · rw [List.append_nil]
      rfl
    · rw [List.all_eq_true]
      intro c mem
      rw [digit c mem]
      rfl
  rw [LintReport.firstLine_of_unbroken unbroken (by rw [trimmed]; exact List.cons_ne_nil _ _),
    trimmed]
  exact phrase.numbersLine

/-- The evaluator that asks the program of this machine. -/
def refusingEvaluator : Evaluator :=
  withInterpreter refusingHost ⟨none, "/usr/bin/php".toList, .ofInt 10, none⟩
    { nodes := [(["tmp".toList], .directory)] }

theorem breaksAt_refusingEvaluator :
    refusingEvaluator.BreaksAt "<?php f();".toList (some "a.php".toList) .external := by
  have refuses : RefusesUnreadably refusingHost ⟨none, "/usr/bin/php".toList, .ofInt 10, none⟩
      { nodes := [(["tmp".toList], .directory)] } := by
    refine ⟨⟨_, rfl⟩, rfl, fun _ _ => rfl, [.words ("on line ".toList ++ longDigits)], longDigits,
      rfl, ?_, ?_⟩
    · rw [OutputTemplate.fill, List.flatMap_singleton]
      exact numbersLine_longDigits
    · rw [longDigits, List.length_replicate]
      exact Nat.lt_succ_self _
  exact (breaksAt_external_iff _ _ _ _ _).mpr (.inr refuses)

theorem reaches_refusingEvaluator :
    refusingEvaluator.reaches "<?php f();".toList (some "a.php".toList) .external = true := by
  decide +kernel

/-- One program that prints such a number keeps the evaluation from an answer. -/
theorem not_answered_longDigits :
    ¬ (let e := refusingEvaluator
      let outcome := e.check "<?php f();".toList (some "a.php".toList)
      outcome = .ok () ∨ ∃ r, outcome = .error (.rejected r)) := by
  intro answered
  exact (answers_iff_not_breaksAt _ _ _).mp answered .external reaches_refusingEvaluator
    breaksAt_refusingEvaluator

end Evaluator
end PhpGate
