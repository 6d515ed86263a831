import PhpGate.Validation.State

/-!
What one event does to the validation of a file: nothing, or a read that fails, or a text that is
fetched and perhaps evaluated.
-/

namespace PhpGate

namespace FileState.Operation

/-- The operations that validate the file first. -/
def validates : Operation → Bool
  | validate | isValid | rejection | result => true
  | verdict | content | label => false

end FileState.Operation

open FileState

/-- A file under validation: its evaluator, its name in diagnostics, and what reads of it give until
it changes. -/
structure Session where
  evaluator : Evaluator
  label : Text
  readings : Readings

namespace Session

variable (v : Session)

/-- What the evaluation of a text finds wrong with it, if it ends in an answer at all. -/
def answer? (t : Text) : Option (Option Rejection) :=
  match v.evaluator.check t (some v.label) with
  | .ok () => some none
  | .error (.rejected r) => some (some r)
  | .error _ => none

/-- The text of the file is known, by a read if it was not known before. -/
def Fetched (readings : Readings) (s : FileState) (t : Text) (s' : FileState) : Prop :=
  (s.content = some t ∧ s' = s) ∨
    (s.content = none ∧ readings s.reads = .ok t ∧
      s' = { s with reads := s.reads + 1, content := some t })

/-- The state once a text is evaluated, which leaves it pending where there is no answer. -/
def evaluated (t : Text) (s : FileState) : FileState :=
  let s := { s with calls := s.calls ++ (v.evaluator.evaluate t (some v.label)).calls }
  match v.answer? t with
  | none => s
  | some none => { s with status := .passed }
  | some (some r) =>
      { s with status := .failed, diagnostic := some r.diagnostic, rejection := some r }

@[simp] theorem evaluated_content (t : Text) (s : FileState) :
    (v.evaluated t s).content = s.content := by
  rw [evaluated]
  split <;> rfl

@[simp] theorem evaluated_reads (t : Text) (s : FileState) :
    (v.evaluated t s).reads = s.reads := by
  rw [evaluated]
  split <;> rfl

/-- An evaluation without an answer is only counted. -/
theorem evaluated_of_none {t : Text} (unanswered : v.answer? t = none) (s : FileState) :
    v.evaluated t s
      = { s with calls := s.calls ++ (v.evaluator.evaluate t (some v.label)).calls } := by
  rw [evaluated, unanswered]

/-- What an event makes of a state, with the answer it gets. -/
inductive Step (readings : Readings) (s : FileState) :
    Event → Option (Except Interruption Answer) → FileState → Prop where
  | kept {event : Event} {answer : Option (Except Interruption Answer)}
      (settled : ∀ op, event = .operation op → op.validates = true → s.status ≠ .pending) :
      Step readings s event answer s
  | unreadable {op : Operation} {error : FileError} (unknown : s.content = none)
      (failed : readings s.reads = .error error) :
      Step readings s (.operation op) (some (.error (.unreadable error)))
        { s with reads := s.reads + 1 }
  | read {t : Text} {s' : FileState} (fetched : Fetched readings s t s') :
      Step readings s (.operation .content) (some (.ok (.content t))) s'
  | evaluated {op : Operation} {answer : Option (Except Interruption Answer)} {t : Text}
      {s' : FileState} (validates : op.validates = true) (pending : s.status = .pending)
      (fetched : Fetched readings s t s')
      (broken : v.answer? t = none → ∃ error, answer = some (.error (.unevaluated error))) :
      Step readings s (.operation op) answer (v.evaluated t s')

section

variable {v} {readings : Readings} {s s' : FileState} {t : Text}

theorem fetch_cases (readings : Readings) (s : FileState) :
    (∃ t s', s.fetch readings = (.ok t, s') ∧ Fetched readings s t s') ∨
      ∃ error, s.content = none ∧ readings s.reads = .error error ∧
        s.fetch readings = (.error error, { s with reads := s.reads + 1 }) := by
  cases content : s.content with
  | some t => exact .inl ⟨t, s, by rw [fetch, content], .inl ⟨content, rfl⟩⟩
  | none =>
      cases read : readings s.reads with
      | ok t => exact .inl ⟨t, _, by simp [fetch, content, read], .inr ⟨content, read, rfl⟩⟩
      | error error => exact .inr ⟨error, rfl, rfl, by simp [fetch, content, read]⟩

theorem settle_cases (s : FileState) :
    (s.settle (v.evaluator.evaluate t (some v.label))).2 = v.evaluated t s ∧
      (v.answer? t = none →
        ∃ error, (s.settle (v.evaluator.evaluate t (some v.label))).1
          = .error (.unevaluated error)) := by
  rw [evaluated, answer?, Evaluator.check, settle]
  cases (v.evaluator.evaluate t (some v.label)).outcome with
  | ok => exact ⟨rfl, nofun⟩
  | error error =>
      cases error with
      | rejected r => exact ⟨rfl, nofun⟩
      | _ => exact ⟨rfl, fun _ => ⟨_, rfl⟩⟩

theorem validate_cases (v : Session) (readings : Readings) (s : FileState) :
    (s.status ≠ .pending ∧ s.validate v.evaluator (.ok v.label) readings = (.ok (), s)) ∨
      (s.status = .pending ∧ ∃ error, s.content = none ∧ readings s.reads = .error error ∧
        s.validate v.evaluator (.ok v.label) readings
          = (.error (.unreadable error), { s with reads := s.reads + 1 })) ∨
      (s.status = .pending ∧ ∃ t s', Fetched readings s t s' ∧
        (s.validate v.evaluator (.ok v.label) readings).2 = v.evaluated t s' ∧
        (v.answer? t = none → ∃ error, (s.validate v.evaluator (.ok v.label) readings).1
          = .error (.unevaluated error))) := by
  cases status : s.status with
  | passed | failed => exact .inl ⟨nofun, by simp [FileState.validate, status]⟩
  | pending =>
      obtain ⟨t, s', fetch, fetched⟩ | ⟨error, unknown, failed, fetch⟩ := fetch_cases readings s
      · refine .inr (.inr ⟨rfl, t, s', fetched, ?_⟩)
        simp only [FileState.validate, status, fetch]
        exact settle_cases s'
      · refine .inr (.inl ⟨rfl, error, unknown, failed, ?_⟩)
        simp only [FileState.validate, status, fetch]

end

/-- The answer to an event and the state after it. -/
def happen (readings : Readings) (s : FileState) :
    Event → Option (Except Interruption Answer) × FileState
  | .change _ => (none, s)
  | .operation op => Prod.map some id (s.perform v.evaluator (.ok v.label) readings op)

/-- The operations that validate, with the answer they take from the state. -/
theorem step_after {readings : Readings} {s : FileState} {op : Operation}
    (answer : FileState → Answer) (validates : op.validates = true)
    (performed : s.perform v.evaluator (.ok v.label) readings op
      = perform.after v.evaluator (.ok v.label) readings s answer) :
    v.Step readings s (.operation op) (v.happen readings s (.operation op)).1
      (v.happen readings s (.operation op)).2 := by
  rw [happen, performed, perform.after]
  obtain ⟨settled, validated⟩ | ⟨pending, error, unknown, failed, validated⟩ |
    ⟨pending, t, s', fetched, validated, broken⟩ := validate_cases v readings s
  · rw [validated]
    exact .kept fun _ _ _ => settled
  · rw [validated]
    exact .unreadable unknown failed
  · simp only [Prod.map, validated, id]
    refine .evaluated validates pending fetched fun unanswered => ?_
    obtain ⟨error, failed⟩ := broken unanswered
    exact ⟨error, by rw [failed]; rfl⟩

theorem step_happen (readings : Readings) (s : FileState) (event : Event) :
    v.Step readings s event (v.happen readings s event).1 (v.happen readings s event).2 := by
  cases event with
  | change changed => exact .kept nofun
  | operation op =>
      cases op with
      | validate => exact v.step_after (fun _ => .done) rfl rfl
      | isValid => exact v.step_after (fun s => .isValid (s.status == .passed)) rfl rfl
      | rejection => exact v.step_after (fun s => .rejection s.rejection) rfl rfl
      | result => exact v.step_after (fun s => .result s.diagnostic) rfl rfl
      | verdict | label =>
          refine .kept ?_
          rintro op same validates
          cases same
          cases validates
      | content =>
          obtain ⟨t, s', fetch, fetched⟩ | ⟨error, unknown, failed, fetch⟩ := fetch_cases readings s
          · simp only [happen, perform, fetch]
            exact .read fetched
          · simp only [happen, perform, fetch]
            exact .unreadable unknown failed

/-- A state tells of an answer. -/
structure Records (s : FileState) (answer : Option Rejection) : Prop where
  status : s.status = if answer.isSome then .failed else .passed
  diagnostic : s.diagnostic = answer.map (·.diagnostic)
  rejection : s.rejection = answer

/-- A status that is settled records the answer to the text; one that is not records nothing. -/
structure Justified (s : FileState) : Prop where
  pending : s.status = .pending → s.diagnostic = none ∧ s.rejection = none
  settled : s.status ≠ .pending →
    ∃ t answer, s.content = some t ∧ v.answer? t = some answer ∧ Records s answer

section

variable {v} {readings : Readings} {s s' : FileState} {event : Event} {op : Operation}
  {answer : Option (Except Interruption Answer)} {t : Text}

theorem Records.status_ne_pending {found : Option Rejection} (records : Records s found) :
    s.status ≠ .pending := by
  rw [records.status]
  split <;> exact nofun

theorem Justified.diagnosed (h : v.Justified s) :
    s.diagnostic.isSome = true ↔ s.status = .failed := by
  by_cases pending : s.status = .pending
  · simp [h.pending pending, pending]
  · obtain ⟨-, found, -, -, records⟩ := h.settled pending
    rw [records.diagnostic, records.status]
    cases found <;> simp

theorem Justified.carried (h : v.Justified s) : s.rejection.map (·.diagnostic) = s.diagnostic := by
  by_cases pending : s.status = .pending
  · simp [h.pending pending]
  · obtain ⟨-, found, -, -, records⟩ := h.settled pending
    rw [records.diagnostic, records.rejection]

/-- The evaluation of a pending file settles it if there is an answer. -/
theorem records_evaluated {found : Option Rejection} (h : v.Justified s)
    (pending : s.status = .pending) (answered : v.answer? t = some found) :
    Records (v.evaluated t s) found := by
  obtain ⟨diagnostic, rejection⟩ := h.pending pending
  rw [evaluated, answered]
  cases found with
  | none => exact ⟨rfl, diagnostic, rejection⟩
  | some r => exact ⟨rfl, rfl, rfl⟩

theorem evaluated_status_ne_pending_iff (pending : s.status = .pending) :
    (v.evaluated t s).status ≠ .pending ↔ v.answer? t ≠ none := by
  rw [evaluated]
  cases v.answer? t with
  | none => simp [pending]
  | some found => cases found <;> simp

theorem Fetched.content (fetched : Fetched readings s t s') : s'.content = some t := by
  obtain ⟨known, rfl⟩ | ⟨-, -, rfl⟩ := fetched
  · exact known
  · rfl

theorem Fetched.eq_of_content {t' : Text} (fetched : Fetched readings s t s')
    (known : s.content = some t') : s' = s := by
  obtain ⟨-, same⟩ | ⟨unknown, -⟩ := fetched
  · exact same
  · rw [known] at unknown
    cases unknown

theorem Fetched.of_unknown (fetched : Fetched readings s t s') (unknown : s.content = none) :
    readings s.reads = .ok t ∧ s'.reads = s.reads + 1 := by
  obtain ⟨known, -⟩ | ⟨-, succeeded, rfl⟩ := fetched
  · rw [unknown] at known
    cases known
  · exact ⟨succeeded, rfl⟩

theorem Fetched.of_read (fetched : Fetched readings s t s') (made : s'.reads ≠ s.reads) :
    readings s.reads = .ok t := by
  obtain ⟨-, rfl⟩ | ⟨-, succeeded, -⟩ := fetched
  · exact absurd rfl made
  · exact succeeded

theorem Fetched.status (fetched : Fetched readings s t s') : s'.status = s.status := by
  obtain ⟨-, rfl⟩ | ⟨-, -, rfl⟩ := fetched <;> rfl

theorem Fetched.justified (fetched : Fetched readings s t s') (h : v.Justified s) :
    v.Justified s' := by
  obtain ⟨-, rfl⟩ | ⟨unknown, -, rfl⟩ := fetched
  · exact h
  · refine ⟨h.pending, fun settled => ?_⟩
    obtain ⟨t, -, known, -⟩ := h.settled settled
    rw [unknown] at known
    cases known

namespace Step

theorem justified (step : v.Step readings s event answer s') (h : v.Justified s) :
    v.Justified s' := by
  cases step with
  | kept => exact h
  | unreadable =>
      refine ⟨h.pending, fun settled => ?_⟩
      obtain ⟨t, found, known, answered, records⟩ := h.settled settled
      exact ⟨t, found, known, answered, records.status, records.diagnostic, records.rejection⟩
  | read fetched => exact fetched.justified h
  | @evaluated _ _ t s' _ pending fetched =>
      have before := fetched.justified h
      have pending : s'.status = .pending := fetched.status.trans pending
      cases answered : v.answer? t with
      | none =>
          rw [evaluated_of_none v answered]
          exact ⟨before.pending, fun settled => absurd pending settled⟩
      | some found =>
          have records := records_evaluated before pending answered
          refine ⟨fun still => absurd still records.status_ne_pending, fun _ => ?_⟩
          exact ⟨t, found, by rw [evaluated_content, fetched.content], answered, records⟩

/-- A known text is not read again. -/
theorem content_of_known (step : v.Step readings s event answer s') (known : s.content = some t) :
    s'.content = some t ∧ s'.reads = s.reads := by
  cases step with
  | kept => exact ⟨known, rfl⟩
  | unreadable unknown =>
      rw [known] at unknown
      cases unknown
  | read fetched =>
      rw [fetched.eq_of_content known]
      exact ⟨known, rfl⟩
  | evaluated _ _ fetched =>
      rw [evaluated_content, evaluated_reads, fetched.eq_of_content known]
      exact ⟨known, rfl⟩

theorem eq_of_settled (step : v.Step readings s event answer s') (h : v.Justified s)
    (settled : s.status ≠ .pending) : s' = s := by
  obtain ⟨t, -, known, -⟩ := h.settled settled
  cases step with
  | kept => rfl
  | unreadable unknown =>
      rw [known] at unknown
      cases unknown
  | read fetched => exact fetched.eq_of_content known
  | evaluated _ pending => exact absurd pending settled

/-- A text that becomes known comes from a read. -/
theorem read_of_unknown (step : v.Step readings s event answer s') (unknown : s.content = none)
    (known : s'.content = some t) : readings s.reads = .ok t ∧ s'.reads ≠ s.reads := by
  cases step with
  | kept | unreadable =>
      rw [unknown] at known
      cases known
  | read fetched =>
      obtain ⟨succeeded, counted⟩ := fetched.of_unknown unknown
      obtain rfl := Option.some.inj (fetched.content.symm.trans known)
      exact ⟨succeeded, by simp [counted]⟩
  | evaluated _ _ fetched =>
      rw [evaluated_content] at known
      obtain ⟨succeeded, counted⟩ := fetched.of_unknown unknown
      obtain rfl := Option.some.inj (fetched.content.symm.trans known)
      exact ⟨succeeded, by simp [counted]⟩

/-- A read that succeeds makes the text known. -/
theorem content_of_read (step : v.Step readings s event answer s') (made : s'.reads ≠ s.reads)
    (succeeded : readings s.reads = .ok t) : s'.content = some t := by
  cases step with
  | kept => exact absurd rfl made
  | unreadable _ failed =>
      rw [failed] at succeeded
      cases succeeded
  | read fetched =>
      obtain rfl := Except.ok.inj ((fetched.of_read made).symm.trans succeeded)
      exact fetched.content
  | evaluated _ _ fetched =>
      rw [evaluated_reads] at made
      obtain rfl := Except.ok.inj ((fetched.of_read made).symm.trans succeeded)
      rw [evaluated_content, fetched.content]

/-- A read that fails is the answer and changes nothing else. -/
theorem of_failed_read {error : FileError} (step : v.Step readings s event answer s')
    (made : s'.reads ≠ s.reads) (failed : readings s.reads = .error error) :
    answer = some (.error (.unreadable error)) ∧ s' = { s with reads := s.reads + 1 } := by
  cases step with
  | kept => exact absurd rfl made
  | unreadable _ failed' =>
      obtain rfl := Except.error.inj (failed'.symm.trans failed)
      exact ⟨rfl, rfl⟩
  | read fetched =>
      rw [fetched.of_read made] at failed
      cases failed
  | evaluated _ _ fetched =>
      rw [evaluated_reads] at made
      rw [fetched.of_read made] at failed
      cases failed

theorem settles (step : v.Step readings s event answer s') (pending : s.status = .pending)
    (settled : s'.status ≠ .pending) : ∃ op t, event = .operation op ∧ op.validates = true ∧
      s'.content = some t ∧ v.answer? t ≠ none := by
  cases step with
  | kept | unreadable => exact absurd pending settled
  | read fetched => exact absurd (fetched.status.trans pending) settled
  | @evaluated op _ t _ validates _ fetched =>
      refine ⟨op, t, rfl, validates, by rw [evaluated_content, fetched.content], ?_⟩
      exact (evaluated_status_ne_pending_iff (fetched.status.trans pending)).mp settled

theorem settled (step : v.Step readings s (.operation op) answer s')
    (validates : op.validates = true) (known : s'.content = some t)
    (answered : v.answer? t ≠ none) : s'.status ≠ .pending := by
  cases step with
  | kept settled => exact settled op rfl validates
  | unreadable unknown =>
      rw [unknown] at known
      cases known
  | read => cases validates
  | evaluated _ pending fetched =>
      rw [evaluated_content] at known
      obtain rfl := Option.some.inj (fetched.content.symm.trans known)
      exact (evaluated_status_ne_pending_iff (fetched.status.trans pending)).mpr answered

/-- A validation whose evaluation gives no answer ends with an error, and the file stays pending. -/
theorem of_unanswered (step : v.Step readings s (.operation op) answer s')
    (validates : op.validates = true) (pending : s.status = .pending)
    (known : s'.content = some t) (unanswered : v.answer? t = none) :
    (∃ error, answer = some (.error (.unevaluated error))) ∧ s'.status = .pending := by
  cases step with
  | kept settled => exact absurd pending (settled op rfl validates)
  | unreadable unknown =>
      rw [unknown] at known
      cases known
  | read => cases validates
  | evaluated _ _ fetched broken =>
      rw [evaluated_content] at known
      obtain rfl := Option.some.inj (fetched.content.symm.trans known)
      refine ⟨broken unanswered, ?_⟩
      rw [evaluated_of_none v unanswered]
      exact fetched.status.trans pending

end Step

end

end Session
end PhpGate
