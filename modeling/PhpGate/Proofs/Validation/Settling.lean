import Mathlib.Data.List.Induction
import PhpGate.Proofs.Evaluation.Answered
import PhpGate.Proofs.Validation.Step

/-!
A file under validation, whatever happens around it. Its text is that of the first read that
succeeds, and its status records the answer to that text from the first validation that gets one;
neither changes any more, though the file itself may. An evaluation that ends otherwise, as one that
meets a line number with too many digits, leaves the file pending.
-/

namespace PhpGate

namespace FileState.Event

/-- What reads give after an event. -/
def readings (current : Readings) : Event → Readings
  | change changed => changed
  | operation _ => current

end FileState.Event

open FileState

namespace Session

variable (v : Session)

def traceOf (events : List Event) : List (Option (Except Interruption Answer) × FileState) :=
  trace v.evaluator (.ok v.label) v.readings {} events

def stateAfter (past : List Event) : FileState :=
  ((v.traceOf past).getLast?.map Prod.snd).getD {}

/-- What an event behind some others answers, if it is an operation. -/
def answerTo (past : List Event) (event : Event) : Option (Except Interruption Answer) :=
  (v.traceOf (past ++ [event])).getLast?.bind Prod.fst

def readingsAfter (past : List Event) : Readings :=
  past.foldl Event.readings v.readings

/-- What the read gives that an event behind some others makes, if it makes one. -/
def readBy? (past : List Event) (event : Event) : Option (Except FileError Text) :=
  let made := (v.stateAfter past).reads
  if (v.stateAfter (past ++ [event])).reads = made then none else some (v.readingsAfter past made)

theorem trace_cons (readings : Readings) (s : FileState) (event : Event) (events : List Event) :
    trace v.evaluator (.ok v.label) readings s (event :: events)
      = v.happen readings s event :: trace v.evaluator (.ok v.label) (event.readings readings)
          (v.happen readings s event).2 events := by
  cases event <;> rfl

theorem trace_concat (readings : Readings) (s : FileState) (past : List Event) (event : Event) :
    trace v.evaluator (.ok v.label) readings s (past ++ [event])
      = let before := trace v.evaluator (.ok v.label) readings s past
        before ++ [v.happen (past.foldl Event.readings readings)
          ((before.getLast?.map Prod.snd).getD s) event] := by
  induction past generalizing readings s with
  | nil => exact v.trace_cons readings s event []
  | cons first past ih =>
      simp only [List.cons_append, trace_cons, ih, List.foldl_cons, List.getLast?_cons]
      cases (trace v.evaluator (.ok v.label) (first.readings readings)
        (v.happen readings s first).2 past).getLast? <;> rfl

theorem traceOf_concat (past : List Event) (event : Event) :
    v.traceOf (past ++ [event])
      = v.traceOf past ++ [v.happen (v.readingsAfter past) (v.stateAfter past) event] :=
  v.trace_concat v.readings {} past event

theorem answerTo_eq (past : List Event) (event : Event) :
    v.answerTo past event = (v.happen (v.readingsAfter past) (v.stateAfter past) event).1 := by
  rw [answerTo, traceOf_concat, List.getLast?_concat]
  rfl

theorem stateAfter_concat (past : List Event) (event : Event) :
    v.stateAfter (past ++ [event])
      = (v.happen (v.readingsAfter past) (v.stateAfter past) event).2 := by
  rw [stateAfter, traceOf_concat, List.getLast?_concat]
  rfl

theorem step_stateAfter (past : List Event) (event : Event) :
    v.Step (v.readingsAfter past) (v.stateAfter past) event (v.answerTo past event)
      (v.stateAfter (past ++ [event])) := by
  rw [answerTo_eq, stateAfter_concat]
  exact v.step_happen _ _ event

section

variable {v} {past : List Event} {event : Event} {t : Text}

theorem justified_stateAfter (past : List Event) : v.Justified (v.stateAfter past) := by
  induction past using List.reverseRecOn with
  | nil => exact ⟨fun _ => ⟨rfl, rfl⟩, fun settled => absurd rfl settled⟩
  | append_singleton past event ih => exact (v.step_stateAfter past event).justified ih

theorem stateAfter_of_settled (settled : (v.stateAfter past).status ≠ .pending)
    (future : List Event) : v.stateAfter (past ++ future) = v.stateAfter past := by
  induction future using List.reverseRecOn with
  | nil => rw [List.append_nil]
  | append_singleton future event ih =>
      have step := v.step_stateAfter (past ++ future) event
      rw [List.append_assoc, ih] at step
      exact step.eq_of_settled (justified_stateAfter past) settled

theorem content_stateAfter (known : (v.stateAfter past).content = some t) (future : List Event) :
    (v.stateAfter (past ++ future)).content = some t := by
  induction future using List.reverseRecOn with
  | nil => rwa [List.append_nil]
  | append_singleton future event ih =>
      rw [← List.append_assoc]
      exact ((v.step_stateAfter (past ++ future) event).content_of_known ih).1

theorem readBy_eq_none_of_known (known : (v.stateAfter past).content = some t) (event : Event) :
    v.readBy? past event = none := by
  rw [readBy?, if_pos ((v.step_stateAfter past event).content_of_known known).2]

theorem readBy_eq_some_iff {outcome : Except FileError Text} :
    v.readBy? past event = some outcome ↔
      (v.stateAfter (past ++ [event])).reads ≠ (v.stateAfter past).reads ∧
        v.readingsAfter past (v.stateAfter past).reads = outcome := by
  rw [readBy?, Option.ite_none_left_eq_some, Option.some.injEq]

theorem content_iff_read :
    (v.stateAfter past).content = some t ↔
      ∃ front event back, past = front ++ event :: back ∧
        v.readBy? front event = some (.ok t) := by
  constructor
  · intro known
    induction past using List.reverseRecOn with
    | nil => cases known
    | append_singleton past event ih =>
        have step := v.step_stateAfter past event
        cases before : (v.stateAfter past).content with
        | some t' =>
            obtain rfl := Option.some.inj ((step.content_of_known before).1.symm.trans known)
            obtain ⟨front, first, back, rfl, read⟩ := ih before
            exact ⟨front, first, back ++ [event], by simp, read⟩
        | none =>
            obtain ⟨succeeded, made⟩ := step.read_of_unknown before known
            exact ⟨past, event, [], rfl, readBy_eq_some_iff.mpr ⟨made, succeeded⟩⟩
  · rintro ⟨front, event, back, rfl, read⟩
    obtain ⟨made, succeeded⟩ := readBy_eq_some_iff.mp read
    have known := (v.step_stateAfter front event).content_of_read made succeeded
    rw [List.append_cons]
    exact content_stateAfter known back

theorem settled_iff :
    (v.stateAfter past).status ≠ .pending ↔
      ∃ front op back t, past = front ++ .operation op :: back ∧ op.validates = true ∧
        (v.stateAfter (front ++ [.operation op])).content = some t ∧ v.answer? t ≠ none := by
  constructor
  · intro settled
    induction past using List.reverseRecOn with
    | nil => exact absurd rfl settled
    | append_singleton past event ih =>
        by_cases before : (v.stateAfter past).status = .pending
        · obtain ⟨op, t, rfl, validates, known, answered⟩ :=
            (v.step_stateAfter past event).settles before settled
          exact ⟨past, op, [], t, rfl, validates, known, answered⟩
        · obtain ⟨front, op, back, t, rfl, found⟩ := ih before
          exact ⟨front, op, back ++ [event], t, by simp, found⟩
  · rintro ⟨front, op, back, t, rfl, validates, known, answered⟩
    have settled := (v.step_stateAfter front (.operation op)).settled validates known answered
    rw [List.append_cons, stateAfter_of_settled settled back]
    exact settled

theorem answerTo_rejection (settled : (v.stateAfter past).status ≠ .pending) :
    v.answerTo past (.operation .rejection)
      = some (.ok (.rejection (v.stateAfter past).rejection)) := by
  obtain ⟨-, validated⟩ | ⟨pending, -⟩ | ⟨pending, -⟩ :=
    validate_cases v (v.readingsAfter past) (v.stateAfter past)
  · simp only [answerTo_eq, happen, perform, perform.after, validated]
    rfl
  · exact absurd pending settled
  · exact absurd pending settled

end

/-- How a file stands after some events, and that it stands so for good. -/
structure SettlesOnce (v : Session) (past : List Event) : Prop where
  /-- The status is settled once a validation has met the text and its evaluation has answered. -/
  settled_iff : (v.stateAfter past).status ≠ .pending ↔
    ∃ front op back t, past = front ++ .operation op :: back ∧ op.validates = true ∧
      (v.stateAfter (front ++ [.operation op])).content = some t ∧ v.answer? t ≠ none
  frozen : (v.stateAfter past).status ≠ .pending →
    ∀ future, v.stateAfter (past ++ future) = v.stateAfter past
  verdict : (v.stateAfter past).status ≠ .pending →
    ∃ t answer, (v.stateAfter past).content = some t ∧ v.answer? t = some answer ∧
      Records (v.stateAfter past) answer
  diagnosed : (v.stateAfter past).diagnostic.isSome = true ↔ (v.stateAfter past).status = .failed
  carried : (v.stateAfter past).rejection.map (·.diagnostic) = (v.stateAfter past).diagnostic
  /-- Whoever asks for the rejection later is given the one that is kept. -/
  answered : (v.stateAfter past).status ≠ .pending →
    ∀ future, v.answerTo (past ++ future) (.operation .rejection)
      = some (.ok (.rejection (v.stateAfter past).rejection))
  /-- A validation whose evaluation does not answer ends with an error. -/
  unanswered : ∀ op t, op.validates = true → (v.stateAfter past).status = .pending →
    (v.stateAfter (past ++ [.operation op])).content = some t → v.answer? t = none →
    (∃ error, v.answerTo past (.operation op) = some (.error (.unevaluated error))) ∧
      (v.stateAfter (past ++ [.operation op])).status = .pending
  /-- The text is that of a read which has succeeded. -/
  content_iff : ∀ t, (v.stateAfter past).content = some t ↔
    ∃ front event back, past = front ++ event :: back ∧ v.readBy? front event = some (.ok t)
  /-- No read is made after that. -/
  read_once : ∀ t, (v.stateAfter past).content = some t → ∀ future event,
    (v.stateAfter (past ++ future)).content = some t ∧ v.readBy? (past ++ future) event = none
  /-- A read that fails is the answer, and only counted. -/
  unread : ∀ event error, v.readBy? past event = some (.error error) →
    v.answerTo past event = some (.error (.unreadable error)) ∧
      v.stateAfter (past ++ [event])
        = { v.stateAfter past with reads := (v.stateAfter past).reads + 1 }

theorem settlesOnce (past : List Event) : v.SettlesOnce past where
  settled_iff := settled_iff
  frozen := stateAfter_of_settled
  verdict := (justified_stateAfter past).settled
  diagnosed := (justified_stateAfter past).diagnosed
  carried := (justified_stateAfter past).carried
  answered := by
    intro settled future
    have same := stateAfter_of_settled settled future
    rw [← same] at settled ⊢
    exact answerTo_rejection settled
  unanswered := by
    intro op t validates pending known unanswered
    exact (v.step_stateAfter past (.operation op)).of_unanswered validates pending known unanswered
  content_iff := fun _ => content_iff_read
  read_once := by
    intro t known future event
    have kept := content_stateAfter known future
    exact ⟨kept, readBy_eq_none_of_known kept event⟩
  unread := by
    intro event error read
    obtain ⟨made, failed⟩ := readBy_eq_some_iff.mp read
    exact (v.step_stateAfter past event).of_failed_read made failed

/-- A file on a machine whose program gives a line number with too many digits stays pending, though
its text is known and it is validated. -/
theorem pending_refusingEvaluator :
    let v : Session :=
      ⟨Evaluator.refusingEvaluator, "a.php".toList, fun _ => .ok "<?php f();".toList⟩
    (v.stateAfter [.operation .content, .operation .validate]).content = some "<?php f();".toList ∧
      (v.stateAfter [.operation .content, .operation .validate]).status = .pending := by
  intro v
  have unanswered : v.answer? "<?php f();".toList = none := by
    have foreign : ¬ (v.evaluator.check "<?php f();".toList (some v.label) = .ok () ∨
        ∃ r, v.evaluator.check "<?php f();".toList (some v.label) = .error (.rejected r)) :=
      fun answers => (Evaluator.answers_iff_not_breaksAt _ _ _).mp answers .external
        Evaluator.reaches_refusingEvaluator Evaluator.breaksAt_refusingEvaluator
    rw [answer?]
    split
    · rename_i accepted
      exact absurd (.inl accepted) foreign
    · rename_i r rejected
      exact absurd (.inr ⟨r, rejected⟩) foreign
    · rfl
  have read : (v.stateAfter [.operation .content]).content = some "<?php f();".toList ∧
      (v.stateAfter [.operation .content]).status = .pending := ⟨rfl, rfl⟩
  have known := content_stateAfter read.1 [.operation .validate]
  exact ⟨known, ((v.step_stateAfter [.operation .content] (.operation .validate)).of_unanswered rfl
    read.2 known unanswered).2⟩

example :
    let v : Session := ⟨{}, "a.php".toList,
      fun | 0 => .error (.denied "busy".toList) | _ => .ok "<?php ;".toList⟩
    (v.traceOf [.operation .isValid, .operation .isValid, .change fun _ => .ok [],
        .operation .content, .operation .isValid]).map Prod.fst
      = [some (.error (.unreadable (.denied "busy".toList))), some (.ok (.isValid true)), none,
        some (.ok (.content "<?php ;".toList)), some (.ok (.isValid true))] := by
  decide +kernel

end Session
end PhpGate
