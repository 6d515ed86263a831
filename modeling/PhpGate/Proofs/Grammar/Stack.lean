import PhpGate.Proofs.Grammar.Acceptance

/-!
Runs of the machine above open brackets. A run on some stack is a run above any further brackets,
and conversely as long as it closes none of them. Which of the two a sequence does can be told from
its own terminals: it stays above its start when no prefix closes more brackets than it opens.
-/

namespace PhpGate

namespace Terminal

def isOpening : Terminal → Bool
  | openParen | openBracket | attributeBracket | expressionBrace | openBrace => true
  | _ => false

def isClosing : Terminal → Bool
  | closeParen | closeBracket | closeBrace => true
  | _ => false

theorem isOpening_of_isClosing {t : Terminal} (h : t.isClosing = true) : t.isOpening = false := by
  cases t with
  | closeParen | closeBracket | closeBrace => rfl
  | _ => cases h

end Terminal

/-- No prefix closes more brackets than it opens. -/
def NeverUnderflows (w : List Terminal) : Prop :=
  ∀ u, u <+: w → u.countP Terminal.isClosing ≤ u.countP Terminal.isOpening

namespace Machine

variable {f f' : Focus} {bs bs' below : List Bracket} {t : Terminal} {w : List Terminal}
  {m next : Machine}

/-- A step leaves the open brackets alone, opens one or closes the innermost one, and looks at no
other. -/
theorem step_cases (step : step? ⟨f, bs⟩ t = some next) :
    (∃ f', next = ⟨f', bs⟩ ∧ t.isOpening = false ∧ t.isClosing = false ∧
      ∀ bs', step? ⟨f, bs'⟩ t = some ⟨f', bs'⟩) ∨
    (∃ b, next = ⟨.sequence .neutral, b :: bs⟩ ∧ t.isOpening = true ∧ t.isClosing = false ∧
      ∀ bs', step? ⟨f, bs'⟩ t = some ⟨.sequence .neutral, b :: bs'⟩) ∨
    (∃ b rest, bs = b :: rest ∧ next = ⟨afterClosing b, rest⟩ ∧ t.isOpening = false ∧
      t.isClosing = true ∧ ∀ bs', step? ⟨f, b :: bs'⟩ t = some ⟨afterClosing b, bs'⟩) := by
  cases f with
  | start | classHead =>
      simp only [step?, Option.ite_none_right_eq_some, Option.some.injEq] at step
      obtain ⟨rfl, rfl⟩ := step
      exact .inl ⟨_, rfl, rfl, rfl, fun _ => rfl⟩
  | matchHead | matchBody =>
      simp only [step?, Option.ite_none_right_eq_some, Option.some.injEq] at step
      obtain ⟨rfl, rfl⟩ := step
      exact .inr (.inl ⟨_, rfl, rfl, rfl, fun _ => rfl⟩)
  | sequence e =>
      cases opens : opening? t with
      | some b =>
          simp only [step?, opens, Option.some.injEq] at step
          subst step
          refine .inr (.inl ⟨b, rfl, ?_, ?_, fun _ => by simp [step?, opens]⟩) <;>
            cases t <;> simp_all [opening?, Terminal.isOpening, Terminal.isClosing]
      | none =>
          cases goesOn : extend e t with
          | some f' =>
              simp only [step?, opens, goesOn, Option.some.injEq] at step
              subst step
              refine .inl ⟨f', rfl, ?_, ?_, fun _ => by simp [step?, opens, goesOn]⟩ <;>
                cases t <;> simp_all [extend, opening?, Terminal.isOpening, Terminal.isClosing]
          | none =>
              simp only [step?, opens, goesOn] at step
              cases bs with
              | nil => simp [close?] at step
              | cons b rest =>
                  have fits := step
                  simp only [close?, Option.ite_none_right_eq_some, Option.some.injEq,
                    Bool.and_eq_true, decide_eq_true_eq] at fits
                  obtain ⟨⟨rfl, closes⟩, rfl⟩ := fits
                  refine .inr (.inr ⟨b, rest, rfl, rfl, ?_, ?_, fun bs' => ?_⟩)
                  · cases b <;> rfl
                  · cases b <;> rfl
                  · simp [step?, opens, goesOn, close?, closes]

theorem step_depth (step : m.step? t = some next) :
    next.brackets.length + [t].countP Terminal.isClosing
      = m.brackets.length + [t].countP Terminal.isOpening := by
  obtain ⟨f, bs⟩ := m
  obtain ⟨f', rfl, opening, closing, -⟩ | ⟨b, rfl, opening, closing, -⟩ |
    ⟨b, rest, rfl, rfl, opening, closing, -⟩ := step_cases step <;>
    simp [opening, closing]

/-- What a run opens and does not close stays on the stack. -/
theorem feed_depth (run : m.feed w = some next) :
    next.brackets.length + w.countP Terminal.isClosing
      = m.brackets.length + w.countP Terminal.isOpening := by
  induction w generalizing m with
  | nil =>
      cases run
      rfl
  | cons t w ih =>
      obtain ⟨mid, step, rest⟩ := Option.bind_eq_some_iff.mp run
      have first := step_depth step
      have later := ih rest
      simp only [List.countP_cons, List.countP_nil] at *
      omega

theorem step_lift (step : step? ⟨f, bs⟩ t = some next) :
    step? ⟨f, bs ++ below⟩ t = some ⟨next.focus, next.brackets ++ below⟩ := by
  obtain ⟨f', rfl, -, -, same⟩ | ⟨b, rfl, -, -, same⟩ | ⟨b, rest, rfl, rfl, -, -, same⟩ :=
    step_cases step <;> exact same _

theorem feed_lift (run : feed ⟨f, bs⟩ w = some next) :
    feed ⟨f, bs ++ below⟩ w = some ⟨next.focus, next.brackets ++ below⟩ := by
  induction w generalizing f bs with
  | nil =>
      cases run
      rfl
  | cons t w ih =>
      obtain ⟨⟨f', bs'⟩, step, rest⟩ := Option.bind_eq_some_iff.mp run
      simp [step_lift step, ih rest]

/-- A run above some brackets either does without them, or comes to a bracket that closes one of
them after all others have closed. -/
theorem feed_append_cases (run : feed ⟨f, bs ++ below⟩ w = some next) :
    (∃ bs', next.brackets = bs' ++ below ∧ feed ⟨f, bs⟩ w = some ⟨next.focus, bs'⟩) ∨
    (∃ u t v f', w = u ++ t :: v ∧ t.isClosing = true ∧ feed ⟨f, bs⟩ u = some ⟨f', []⟩) := by
  induction w generalizing f bs with
  | nil =>
      cases run
      exact .inl ⟨bs, rfl, rfl⟩
  | cons t w ih =>
      obtain ⟨mid, step, rest⟩ := Option.bind_eq_some_iff.mp run
      have further {f' : Focus} {bs' : List Bracket} (own : step? ⟨f, bs⟩ t = some ⟨f', bs'⟩)
          (rest : feed ⟨f', bs' ++ below⟩ w = some next) :
          (∃ bs', next.brackets = bs' ++ below ∧ feed ⟨f, bs⟩ (t :: w) = some ⟨next.focus, bs'⟩) ∨
          (∃ u t' v f', t :: w = u ++ t' :: v ∧ t'.isClosing = true ∧
            feed ⟨f, bs⟩ u = some ⟨f', []⟩) := by
        obtain ⟨bs'', brackets, run⟩ | ⟨u, t', v, f'', rfl, closing, run⟩ := ih rest
        · exact .inl ⟨bs'', brackets, by simp [own, run]⟩
        · exact .inr ⟨t :: u, t', v, f'', rfl, closing, by simp [own, run]⟩
      obtain ⟨f', rfl, -, -, same⟩ | ⟨b, rfl, -, -, same⟩ |
        ⟨b, left, stack, rfl, -, closing, same⟩ := step_cases step
      · exact further (same bs) rest
      · exact further (same bs) rest
      · cases bs with
        | nil => exact .inr ⟨[], t, w, f, rfl, closing, rfl⟩
        | cons b' bs =>
            obtain ⟨rfl, rfl⟩ := List.cons.inj stack
            exact further (same bs) rest

theorem neverUnderflows_of_feed (run : feed ⟨f, []⟩ w = some next) : NeverUnderflows w := by
  rintro u ⟨v, rfl⟩
  rw [feed_append] at run
  obtain ⟨mid, first, -⟩ := Option.bind_eq_some_iff.mp run
  have depth := feed_depth first
  simp only [List.length_nil] at depth
  omega

theorem feed_of_neverUnderflows (run : feed ⟨f, below⟩ w = some next) (h : NeverUnderflows w) :
    ∃ bs', next.brackets = bs' ++ below ∧ feed ⟨f, []⟩ w = some ⟨next.focus, bs'⟩ := by
  have above : feed ⟨f, [] ++ below⟩ w = some next := run
  obtain own | ⟨u, t, v, f', rfl, closing, first⟩ := feed_append_cases above
  · exact own
  · have depth := feed_depth first
    have bound := h (u ++ [t]) ⟨v, by simp⟩
    have opening : t.isOpening = false := Terminal.isOpening_of_isClosing closing
    simp [closing, opening] at depth bound
    omega

/-- A sequence that is accepted alone ends where a block around it may close. -/
theorem feed_block_of_feed
    (run : feed ⟨.sequence .neutral, []⟩ w = some ⟨.sequence .neutral, []⟩) :
    feed ⟨.sequence .neutral, [.block]⟩ (w ++ [.closeBrace, .semicolon])
      = some ⟨.sequence .neutral, []⟩ := by
  have above : feed ⟨.sequence .neutral, [.block]⟩ w = some ⟨.sequence .neutral, [.block]⟩ :=
    feed_lift run
  rw [feed_append, above]
  rfl

/-- Inside a block that is closed by a brace and a semicolon, a sequence is accepted as it is
outside, provided it closes no bracket of its surroundings. -/
theorem feed_block_iff (w : List Terminal) :
    (feed ⟨.sequence .neutral, [.block]⟩ (w ++ [.closeBrace, .semicolon])
        = some ⟨.sequence .neutral, []⟩ ∧ NeverUnderflows w) ↔
      feed ⟨.sequence .neutral, []⟩ w = some ⟨.sequence .neutral, []⟩ := by
  constructor
  · rintro ⟨run, balanced⟩
    rw [feed_append] at run
    obtain ⟨⟨f, bs⟩, first, closing⟩ := Option.bind_eq_some_iff.mp run
    obtain ⟨own, rfl, alone⟩ := feed_of_neverUnderflows first balanced
    obtain ⟨mid, brace, closing⟩ := Option.bind_eq_some_iff.mp closing
    obtain ⟨last, semicolon, ending⟩ := Option.bind_eq_some_iff.mp closing
    cases ending
    have lastDepth := step_depth semicolon
    have braceDepth := step_depth brace
    simp [Terminal.isClosing, Terminal.isOpening] at lastDepth braceDepth
    obtain rfl : own = [] := List.length_eq_zero_iff.mp (by omega)
    rw [alone]
    cases f with
    | sequence e => cases e <;> simp_all [step?, opening?, extend, close?, Bracket.closesAfter]
    | start | classHead | matchHead | matchBody => simp [step?] at brace
  · intro run
    exact ⟨feed_block_of_feed run, neverUnderflows_of_feed run⟩

end Machine
end PhpGate
