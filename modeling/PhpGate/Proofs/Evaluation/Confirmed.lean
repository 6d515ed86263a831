import PhpGate.Proofs.Evaluation.Stages

/-!
What stands behind an accepted source. A backend that was asked has called it sound, or the fallback
was asked and has said that it is not; the self check, which is the fallback by default, never does.
-/

namespace PhpGate

open Source

namespace Evaluator

def backend? (e : Evaluator) : Backend → Option Checker
  | .external => e.external
  | .fallback => some e.fallback

/-- What the backend of a call answers: whether the source is sound. -/
def Answers (e : Evaluator) (call : Call) (sound : Bool) : Prop :=
  ∃ checker, e.backend? call.backend = some checker ∧
    checker call.content call.file = .ok sound

/-- A backend was asked in the evaluation and has called the source sound. -/
def IsConfirmed (e : Evaluator) (t : Text) (file : Option Text) : Prop :=
  ∃ call ∈ (e.evaluate t file).calls, e.Answers call true

variable {e : Evaluator} {t : Text} {file : Option Text} {call : Call} {sound : Bool}

theorem answers_fallback_iff :
    e.Answers ⟨.fallback, t, file⟩ sound ↔ e.fallback t file = .ok sound := by
  simp [Answers, backend?]

theorem answers_external_iff :
    e.Answers ⟨.external, stripComments t, file⟩ true ↔ e.confirms t file = true := by
  rw [Answers, backend?, confirms]
  cases e.external with
  | none => simp
  | some checker => simp [toOption_eq_some_iff]

theorem mem_calls_iff : call ∈ (e.evaluate t file).calls ↔
    (call = ⟨.external, stripComments t, file⟩ ∧ e.reaches t file .external = true ∧
        e.external.isSome = true) ∨
      (call = ⟨.fallback, t, file⟩ ∧ e.reaches t file .fallback = true ∧
        e.confirms t file = false) := by
  rw [evaluate_calls, List.mem_append, List.mem_ite_nil_right, List.mem_ite_nil_right]
  simp [and_comm]

theorem isSome_external_of_confirms (confirmed : e.confirms t file = true) :
    e.external.isSome = true := by
  rw [confirms, Option.any_eq_true] at confirmed
  obtain ⟨checker, present, -⟩ := confirmed
  rw [present]
  rfl

theorem isConfirmed_iff : e.IsConfirmed t file ↔
    (e.reaches t file .external = true ∧ e.confirms t file = true) ∨
      (e.reaches t file .fallback = true ∧ e.confirms t file = false ∧
        e.fallback t file = .ok true) := by
  constructor
  · rintro ⟨call, asked, answer⟩
    obtain ⟨rfl, reached, -⟩ | ⟨rfl, reached, unconfirmed⟩ := mem_calls_iff.mp asked
    · exact .inl ⟨reached, answers_external_iff.mp answer⟩
    · exact .inr ⟨reached, unconfirmed, answers_fallback_iff.mp answer⟩
  · rintro (⟨reached, confirmed⟩ | ⟨reached, unconfirmed, answer⟩)
    · exact ⟨_, mem_calls_iff.mpr (.inl ⟨rfl, reached, isSome_external_of_confirms confirmed⟩),
        answers_external_iff.mpr confirmed⟩
    · exact ⟨_, mem_calls_iff.mpr (.inr ⟨rfl, reached, unconfirmed⟩),
        answers_fallback_iff.mpr answer⟩

theorem errorOf_eq_none_iff {ε α : Type} {outcome : Except ε α} :
    errorOf? outcome = none ↔ ∃ a, outcome = .ok a := by
  cases outcome <;> simp [errorOf?]

/-- A source is accepted when no stage before the last fails and the source is confirmed or the
fallback answers, whatever its answer is. -/
theorem check_eq_ok_iff : e.check t file = .ok () ↔
    e.reaches t file .fallback = true ∧
      (e.confirms t file = true ∨ ∃ sound, e.fallback t file = .ok sound) := by
  have order : Stage.inOrder = Stage.fallback.earlier ++ [.fallback] := rfl
  have last : e.failure? t file .fallback = none ↔
      (e.confirms t file = true ∨ ∃ sound, e.fallback t file = .ok sound) := by
    rw [failure?, ite_eq_left_iff, Bool.not_eq_true, errorOf_eq_none_iff]
    cases e.confirms t file <;> simp
  rw [← last, check, evaluate_outcome, reaches, order, List.findSome?_append,
    Option.isNone_iff_eq_none]
  cases Stage.fallback.earlier.findSome? (e.failure? t file) with
  | some error => simp
  | none => cases failed : e.failure? t file .fallback <;> simp [failed]

theorem reaches_external_of_fallback (reached : e.reaches t file .fallback = true) :
    e.reaches t file .external = true := by
  have order : Stage.fallback.earlier = Stage.external.earlier ++ [.external, .declarations] := rfl
  rw [reaches, Option.isNone_iff_eq_none, order, List.findSome?_append, Option.or_eq_none_iff]
    at reached
  rw [reaches, reached.1]
  rfl

theorem selfChecker_ne_false : selfChecker t file ≠ .ok false := by
  delta selfChecker
  cases selfCheck t file <;> simp

/-- A source is accepted without a confirmation just when the fallback was asked and has said that it
is not sound. With the self check as the fallback each accepted source is confirmed. -/
theorem accepted_unconfirmed_iff (e : Evaluator) (t : Text) (file : Option Text) :
    ((e.check t file = .ok () ∧ ¬ e.IsConfirmed t file) ↔
      ⟨.fallback, t, file⟩ ∈ (e.evaluate t file).calls ∧ e.Answers ⟨.fallback, t, file⟩ false) ∧
    (e.fallback = selfChecker → e.check t file = .ok () → e.IsConfirmed t file) := by
  have refused : (e.check t file = .ok () ∧ ¬ e.IsConfirmed t file) ↔
      ⟨.fallback, t, file⟩ ∈ (e.evaluate t file).calls ∧ e.Answers ⟨.fallback, t, file⟩ false := by
    rw [isConfirmed_iff, mem_calls_iff, answers_fallback_iff, check_eq_ok_iff]
    constructor
    · rintro ⟨⟨reached, answered⟩, unconfirmed⟩
      rw [not_or] at unconfirmed
      have silent : e.confirms t file = false := by
        rw [← Bool.not_eq_true]
        exact fun confirmed => unconfirmed.1 ⟨reaches_external_of_fallback reached, confirmed⟩
      obtain confirmed | ⟨sound, answer⟩ := answered
      · rw [silent] at confirmed
        cases confirmed
      · cases sound with
        | true => exact absurd ⟨reached, silent, answer⟩ unconfirmed.2
        | false => exact ⟨.inr ⟨rfl, reached, silent⟩, answer⟩
    · rintro ⟨⟨other, -⟩ | ⟨-, reached, silent⟩, answer⟩
      · cases other
      · exact ⟨⟨reached, .inr ⟨false, answer⟩⟩, by simp [silent, answer]⟩
  refine ⟨refused, fun default accepted => Classical.byContradiction fun unconfirmed => ?_⟩
  have answer := answers_fallback_iff.mp (refused.mp ⟨accepted, unconfirmed⟩).2
  rw [default] at answer
  exact selfChecker_ne_false answer

/-- The self check confirms a call. -/
theorem isConfirmed_call :
    ({} : Evaluator).fallback = selfChecker ∧ check {} "<?php f();".toList none = .ok () ∧
      IsConfirmed {} "<?php f();".toList none := by
  have default : ({} : Evaluator).fallback = selfChecker := by dsimp only
  have accepted : check {} "<?php f();".toList none = .ok () :=
    check_eq_ok_iff.mpr ⟨by decide +kernel, .inr ⟨true, toOption_eq_some_iff.mp (by decide +kernel)⟩⟩
  exact ⟨default, accepted, (accepted_unconfirmed_iff {} _ none).2 default accepted⟩

/-- A fallback that calls the source unsound does not keep it from being accepted. -/
theorem accepted_unsound :
    ¬ (let e : Evaluator := { fallback := fun _ _ => .ok false }
      e.check "<?php f();".toList none = .ok () → e.IsConfirmed "<?php f();".toList none) := by
  intro confirmed
  have reached : reaches { fallback := fun _ _ => .ok false } "<?php f();".toList none .fallback
      = true := by decide +kernel
  obtain ⟨-, answer⟩ | ⟨-, -, answer⟩ :=
    isConfirmed_iff.mp (confirmed (check_eq_ok_iff.mpr ⟨reached, .inr ⟨false, rfl⟩⟩))
  · cases answer
  · cases answer

end Evaluator
end PhpGate
