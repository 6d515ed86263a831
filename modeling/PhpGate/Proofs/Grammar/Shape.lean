import PhpGate.Proofs.Grammar.Nesting

/-!
What the tokens of every accepted text look like, said without grammar or machine: which tokens may
stand side by side, how brackets are nested, and what stands in front of the end of the file and of
the end of a statement block.
-/

namespace PhpGate

namespace Terminal

/-- Variables, numbers, strings and heredocs. -/
def isOperand : Terminal → Bool
  | variableName | number | singleQuoted | doubleQuoted | backtick | heredoc => true
  | _ => false

/-- What a name or a match begins with. -/
def startsName : Terminal → Bool
  | name | anonymousClass | classKeyword | matchKeyword => true
  | _ => false

def isBinary : Terminal → Bool
  | operator | keywordOperator => true
  | _ => false

/-- What a sequence has to be complete for. -/
def endsSequence : Terminal → Bool
  | semicolon | comma | inlineHtml => true
  | t => t.isClosing

/-- What a statement may end with. -/
def isTerminator : Terminal → Bool
  | semicolon | comma | colon | inlineHtml => true
  | t => t.isClosing

end Terminal

/-- The brace that would come next holds the arms of a match: its subject has just been closed. -/
def OpensArms (u : List Terminal) : Prop :=
  ∃ v s, u = v ++ .matchKeyword :: .openParen :: (s ++ [.closeParen]) ∧ Nested s

structure WellShaped (w : List Terminal) : Prop where
  openTag : ∃ rest, w = .openTag :: rest ∧ .openTag ∉ rest
  nested : Nested w
  operands_apart : ∀ {a b}, [a, b] <:+: w → a.isOperand = true → b.isOperand = false
  operand_before_name : ∀ {a b}, [a, b] <:+: w → a.isOperand = true → b.startsName = false
  binary_before_end : ∀ {a b}, [a, b] <:+: w → a.isBinary = true → b.endsSequence = false
  binary_last : ∀ {a}, w.getLast? = some a → a.isBinary = false
  class_named : ∀ {u v}, w = u ++ .classKeyword :: v → v.head? = some .name
  /-- Nothing stands behind the open tag, or the last token is the end of a statement. -/
  file_ends : ∀ {v a}, w = .openTag :: v → v.getLast? = some a → a.isTerminator = true
  /-- A block that is no match's holds nothing, or its last token is the end of a statement. -/
  block_ends : ∀ {u v x a}, w = u ++ .openBrace :: (v ++ .closeBrace :: x) → Nested v →
    ¬ OpensArms u → v.getLast? = some a → a.isTerminator = true

namespace Machine

variable {e : Ending} {bs : List Bracket} {a b t : Terminal} {u v w : List Terminal}
  {m next : Machine}

section Steps

/-- Inside a sequence a terminal that is no bracket can only extend it. -/
theorem step_inside (opening : t.isOpening = false) (closing : t.isClosing = false) :
    step? ⟨.sequence e, bs⟩ t = (extend e t).map fun focus => ⟨focus, bs⟩ := by
  have opens : opening? t = none := by
    cases t with
    | openParen | openBracket | attributeBracket | openBrace | expressionBrace => cases opening
    | _ => rfl
  have closes : close? e bs t = none := by
    cases bs with
    | nil => rfl
    | cons b rest =>
        have other : t ≠ b.closer := by
          rintro rfl
          cases b <;> cases closing
        simp [close?, other]
  simp only [step?, opens, closes]
  cases extend e t <;> rfl

theorem focus_of_operand (operand : t.isOperand = true) (step : m.step? t = some next) :
    next.focus = .sequence .operand := by
  obtain ⟨f, bs⟩ := m
  cases f with
  | start | classHead | matchHead | matchBody =>
      simp only [step?, Option.ite_none_right_eq_some] at step
      obtain ⟨rfl, -⟩ := step
      cases operand
  | sequence e =>
      cases t with
      | variableName | number | singleQuoted | doubleQuoted | backtick | heredoc =>
          rw [step_inside rfl rfl] at step
          cases e with
          | operand => cases step
          | neutral | name | binary | postfixed =>
              cases step
              rfl
      | _ => cases operand

theorem focus_of_binary (binary : t.isBinary = true) (step : m.step? t = some next) :
    next.focus = .sequence .binary := by
  obtain ⟨f, bs⟩ := m
  cases f with
  | start | classHead | matchHead | matchBody =>
      simp only [step?, Option.ite_none_right_eq_some] at step
      obtain ⟨rfl, -⟩ := step
      cases binary
  | sequence e =>
      cases t with
      | operator | keywordOperator =>
          cases step
          rfl
      | _ => cases binary

theorem focus_of_classKeyword (step : m.step? .classKeyword = some next) :
    next.focus = .classHead := by
  obtain ⟨f, bs⟩ := m
  cases f with
  | start | classHead | matchHead | matchBody => cases step
  | sequence e =>
      rw [step_inside rfl rfl] at step
      cases e with
      | operand => cases step
      | neutral | name | binary | postfixed =>
          cases step
          rfl

/-- Behind an operand neither an operand nor a name may start. -/
theorem step_behind_operand (focus : m.focus = .sequence .operand)
    (step : m.step? t = some next) : t.isOperand = false ∧ t.startsName = false := by
  obtain ⟨f, bs⟩ := m
  obtain rfl : f = .sequence .operand := focus
  cases t with
  | variableName | number | singleQuoted | doubleQuoted | backtick | heredoc | name
  | anonymousClass | classKeyword | matchKeyword =>
      rw [step_inside rfl rfl] at step
      cases step
  | _ => exact ⟨rfl, rfl⟩

/-- Behind a binary operator nothing may end. -/
theorem step_behind_binary (focus : m.focus = .sequence .binary) (step : m.step? t = some next) :
    t.endsSequence = false := by
  obtain ⟨f, bs⟩ := m
  obtain rfl : f = .sequence .binary := focus
  cases closing : t.isClosing with
  | true =>
      obtain ⟨e, b, rest, same, -, -, -, closes⟩ := step_closing closing step
      cases same
      cases b <;> cases closes
  | false =>
      cases t with
      | semicolon | comma | inlineHtml =>
          rw [step_inside rfl rfl] at step
          cases step
      | _ => exact closing

/-- What leads to neutral position is the open tag, a bracket or the end of a statement. -/
theorem step_to_neutral (focus : next.focus = .sequence .neutral) (step : m.step? t = some next) :
    t = .openTag ∨ t.isOpening = true ∨ t.isTerminator = true := by
  obtain ⟨f, bs⟩ := m
  cases f with
  | start | classHead | matchHead | matchBody =>
      simp only [step?, Option.ite_none_right_eq_some, Option.some.injEq] at step
      obtain ⟨rfl, rfl⟩ := step
      cases focus <;> simp [Terminal.isOpening]
  | sequence e =>
      cases opening : t.isOpening with
      | true => exact .inr (.inl rfl)
      | false =>
          cases closing : t.isClosing with
          | true => cases t <;> simp [Terminal.isTerminator, Terminal.isClosing] at closing ⊢
          | false =>
              rw [step_inside opening closing, Option.map_eq_some_iff] at step
              obtain ⟨f, goesOn, rfl⟩ := step
              obtain rfl : f = .sequence .neutral := focus
              cases t with
              | semicolon | comma | colon | inlineHtml => exact .inr (.inr rfl)
              | _ => cases e <;> simp [extend, Ending.admitsOperand] at goesOn

/-- Once the open tag has been read there is no other, and the machine never comes back to its
start. -/
theorem step_started (focus : m.focus ≠ .start) (step : m.step? t = some next) :
    t ≠ .openTag ∧ next.focus ≠ .start := by
  obtain ⟨f, bs⟩ := m
  cases f with
  | start => contradiction
  | classHead | matchHead | matchBody =>
      simp only [step?, Option.ite_none_right_eq_some, Option.some.injEq] at step
      obtain ⟨rfl, rfl⟩ := step
      exact ⟨by decide, by simp⟩
  | sequence e =>
      constructor
      · rintro rfl
        rw [step_inside rfl rfl] at step
        cases step
      · cases opening : t.isOpening with
        | true =>
            obtain ⟨b, rfl, -⟩ := step_opening opening step
            simp
        | false =>
            cases closing : t.isClosing with
            | true =>
                obtain ⟨e, b, rest, -, -, rfl, -⟩ := step_closing closing step
                cases b <;> simp [afterClosing]
            | false =>
                rw [step_inside opening closing, Option.map_eq_some_iff] at step
                obtain ⟨f, goesOn, rfl⟩ := step
                rintro rfl
                cases t <;> simp [extend] at goesOn

end Steps

section Runs

theorem openTag_not_mem (focus : m.focus ≠ .start) (run : m.feed w = some next) :
    .openTag ∉ w := by
  induction w generalizing m with
  | nil => nofun
  | cons t w ih =>
      obtain ⟨mid, step, rest⟩ := exists_of_feed_cons run
      have started := step_started focus step
      rw [List.mem_cons, not_or]
      exact ⟨started.1.symm, ih started.2 rest⟩

/-- Adjacent terminals of a run are taken by two steps, one after the other. -/
theorem steps_of_infix (run : m.feed w = some next) (adjacent : [a, b] <:+: w) :
    ∃ m₁ m₂ m₃ : Machine, m₁.step? a = some m₂ ∧ m₂.step? b = some m₃ := by
  obtain ⟨u, v, rfl⟩ := adjacent
  rw [List.append_assoc] at run
  obtain ⟨m₁, -, run⟩ := exists_of_feed_append run
  obtain ⟨m₂, first, run⟩ := exists_of_feed_cons run
  obtain ⟨m₃, second, -⟩ := exists_of_feed_cons run
  exact ⟨m₁, m₂, m₃, first, second⟩

theorem step_of_getLast (run : m.feed w = some next) (last : w.getLast? = some a) :
    ∃ mid : Machine, mid.step? a = some next := by
  obtain ⟨u, rfl⟩ := List.getLast?_eq_some_iff.mp last
  obtain ⟨mid, -, run⟩ := exists_of_feed_append run
  obtain ⟨last, step, done⟩ := exists_of_feed_cons run
  cases done
  exact ⟨mid, step⟩

/-- What is taken up to neutral position, behind the open tag and over no bracket of its own, ends
as a statement does. -/
theorem isTerminator_of_feed (started : m.focus ≠ .start) (nested : Nested w)
    (run : m.feed w = some next) (neutral : next.focus = .sequence .neutral)
    (last : w.getLast? = some a) : a.isTerminator = true := by
  obtain ⟨mid, step⟩ := step_of_getLast run last
  obtain rfl | opening | ends := step_to_neutral neutral step
  · exact absurd (List.mem_of_getLast? last) (openTag_not_mem started run)
  · have closed := nested.isOpening_getLast
    rw [last, Option.any_some, opening] at closed
    cases closed
  · exact ends

/-- The machine stands before the arms of a match only where its subject has just been closed. -/
theorem opensArms_of_feed (run : initial.feed u = some ⟨.matchBody, bs⟩) : OpensArms u := by
  obtain ⟨v, before, s, e, -, -, -, subject, split⟩ := reads_feed reads_initial run
  obtain ⟨e', -, leads⟩ := Nonterminal.effect_of_generates subject
  refine ⟨v ++ before, s, ?_, nested_of_feed rfl (leads []) rfl⟩
  rw [List.nil_append] at split
  simp [split]

end Runs

/-- The sequences that the machine accepts are well shaped. -/
theorem wellShaped_of_feed (run : initial.feed w = some ⟨.sequence .neutral, []⟩) :
    WellShaped w where
  openTag := by
    cases w with
    | nil => cases run
    | cons t rest =>
        obtain ⟨mid, step, run⟩ := exists_of_feed_cons run
        simp only [initial, step?, Option.ite_none_right_eq_some, Option.some.injEq] at step
        obtain ⟨rfl, rfl⟩ := step
        exact ⟨rest, rfl, openTag_not_mem (by simp) run⟩
  nested := nested_of_feed rfl run rfl
  operands_apart := by
    intro a b adjacent operand
    obtain ⟨m₁, m₂, m₃, first, second⟩ := steps_of_infix run adjacent
    exact (step_behind_operand (focus_of_operand operand first) second).1
  operand_before_name := by
    intro a b adjacent operand
    obtain ⟨m₁, m₂, m₃, first, second⟩ := steps_of_infix run adjacent
    exact (step_behind_operand (focus_of_operand operand first) second).2
  binary_before_end := by
    intro a b adjacent binary
    obtain ⟨m₁, m₂, m₃, first, second⟩ := steps_of_infix run adjacent
    exact step_behind_binary (focus_of_binary binary first) second
  binary_last := by
    intro a last
    obtain ⟨mid, step⟩ := step_of_getLast run last
    rw [Bool.eq_false_iff]
    intro binary
    cases focus_of_binary binary step
  class_named := by
    rintro u v rfl
    obtain ⟨m₁, -, run⟩ := exists_of_feed_append run
    obtain ⟨⟨f, bs⟩, first, run⟩ := exists_of_feed_cons run
    obtain rfl : f = .classHead := focus_of_classKeyword first
    cases v with
    | nil => cases run
    | cons t v =>
        obtain ⟨m₃, second, -⟩ := exists_of_feed_cons run
        simp only [step?, Option.ite_none_right_eq_some] at second
        rw [second.1, List.head?_cons]
  file_ends := by
    rintro v a rfl last
    obtain ⟨mid, step, run⟩ := exists_of_feed_cons run
    cases step
    exact isTerminator_of_feed (by simp) (nested_of_feed rfl run rfl) run rfl last
  block_ends := by
    rintro u v x a rfl nested noArms last
    obtain ⟨⟨f, bs⟩, before, run⟩ := exists_of_feed_append run
    obtain ⟨first, brace, run⟩ := exists_of_feed_cons run
    have block : first = ⟨.sequence .neutral, .block :: bs⟩ := by
      cases f with
      | start | classHead | matchHead => cases brace
      | matchBody => exact absurd (opensArms_of_feed before) noArms
      | sequence e =>
          cases brace
          rfl
    subst block
    obtain ⟨⟨f', bs'⟩, within, run⟩ := exists_of_feed_append run
    obtain ⟨mid, closes, -⟩ := exists_of_feed_cons run
    obtain rfl : bs' = .block :: bs := brackets_of_nested nested within
    obtain ⟨e, b, rest, rfl, stack, -, -, closesAfter⟩ := step_closing rfl closes
    obtain ⟨rfl, -⟩ := List.cons.inj stack
    obtain rfl : e = .neutral := by simpa [Bracket.closesAfter] using closesAfter
    exact isTerminator_of_feed (by simp) nested within rfl last

end Machine

/-- The tokens of a text that compiles are well shaped. -/
theorem wellShaped_of_compile {t : Text} (h : compile t = .ok ()) : WellShaped (terminals t) :=
  Machine.wellShaped_of_feed ((compile_eq_ok_iff_feed t).mp h).2

/-- A class with an attribute and a block whose match keeps its arms in braces. -/
theorem wellShaped_match :
    compile "<?php #[A] class B { $c = match(d) { 1 => [2] }; }".toList = .ok () ∧
      WellShaped (terminals "<?php #[A] class B { $c = match(d) { 1 => [2] }; }".toList) := by
  have compiles : compile "<?php #[A] class B { $c = match(d) { 1 => [2] }; }".toList = .ok () := rfl
  exact ⟨compiles, wellShaped_of_compile compiles⟩

end PhpGate
