import PhpGate.Proofs.Grammar.Stack

/-!
Nested sequences: every bracket has a closer of its own kind, and what stands between the two is
nested again. Whatever the machine takes from one configuration to another with the same brackets
open is nested, and on a nested sequence the machine comes back to the brackets it started with.
-/

namespace PhpGate

namespace Terminal

/-- The closer that belongs to an opening bracket. -/
def closer? : Terminal → Option Terminal
  | openParen => some closeParen
  | openBracket | attributeBracket => some closeBracket
  | openBrace | expressionBrace => some closeBrace
  | _ => none

variable {o c : Terminal}

theorem isOpening_of_closer (pair : o.closer? = some c) : o.isOpening = true := by
  cases o with
  | openParen | openBracket | attributeBracket | openBrace | expressionBrace => rfl
  | _ => cases pair

theorem isClosing_of_closer (pair : o.closer? = some c) : c.isClosing = true := by
  cases o with
  | openParen | openBracket | attributeBracket | openBrace | expressionBrace =>
      cases pair
      rfl
  | _ => cases pair

end Terminal

inductive Nested : List Terminal → Prop
  | nil : Nested []
  | plain {t : Terminal} {w : List Terminal} (opening : t.isOpening = false)
      (closing : t.isClosing = false) (rest : Nested w) : Nested (t :: w)
  | enclosed {o c : Terminal} {u w : List Terminal} (pair : o.closer? = some c) (inner : Nested u)
      (rest : Nested w) : Nested (o :: (u ++ c :: w))

namespace Nested

variable {u v w : List Terminal} {o c : Terminal}

theorem append (h : Nested u) (h' : Nested v) : Nested (u ++ v) := by
  induction h with
  | nil => exact h'
  | plain opening closing _ ih => exact .plain opening closing ih
  | enclosed pair inner _ _ ih =>
      rw [List.cons_append, List.append_assoc, List.cons_append]
      exact .enclosed pair inner ih

theorem pair (pair : o.closer? = some c) (h : Nested u) : Nested (o :: (u ++ [c])) :=
  .enclosed pair h .nil

theorem isOpening_getLast (h : Nested u) : u.getLast?.any Terminal.isOpening = false := by
  induction h with
  | nil => rfl
  | @plain t w opening _ _ ih =>
      cases w with
      | nil => simpa using opening
      | cons _ _ => simpa using ih
  | @enclosed o c u w pair _ _ _ ih =>
      have closing := Terminal.isOpening_of_isClosing (Terminal.isClosing_of_closer pair)
      rw [← List.cons_append, List.getLast?_append]
      cases w with
      | nil => simpa using closing
      | cons _ _ => simpa [List.getLast?_cons] using ih

end Nested

/-- A sequence that leaves some brackets open and is nested otherwise, the innermost bracket first. -/
inductive Unclosed : List Bracket → List Terminal → Prop
  | none {w : List Terminal} (whole : Nested w) : Unclosed [] w
  | bracket {b : Bracket} {bs : List Bracket} {o : Terminal} {u v : List Terminal}
      (outer : Unclosed bs u) (pair : o.closer? = some b.closer) (inner : Nested v) :
      Unclosed (b :: bs) (u ++ o :: v)

namespace Unclosed

variable {b : Bracket} {bs : List Bracket} {u v w : List Terminal}

theorem append (h : Unclosed bs u) (nested : Nested v) : Unclosed bs (u ++ v) := by
  cases h with
  | none whole => exact .none (whole.append nested)
  | bracket outer pair inner =>
      rw [List.append_assoc, List.cons_append]
      exact .bracket outer pair (inner.append nested)

theorem close (h : Unclosed (b :: bs) u) : Unclosed bs (u ++ [b.closer]) := by
  cases h with
  | bracket outer pair inner =>
      rw [List.append_assoc, List.cons_append]
      exact outer.append (.pair pair inner)

theorem nested (h : Unclosed [] w) : Nested w := by
  cases h with
  | none whole => exact whole

end Unclosed

namespace Machine

variable {f : Focus} {bs : List Bracket} {t : Terminal} {u w : List Terminal} {m next : Machine}

theorem exists_of_feed_cons (run : m.feed (t :: w) = some next) :
    ∃ mid, m.step? t = some mid ∧ mid.feed w = some next :=
  Option.bind_eq_some_iff.mp run

theorem exists_of_feed_append (run : m.feed (u ++ w) = some next) :
    ∃ mid, m.feed u = some mid ∧ mid.feed w = some next :=
  Option.bind_eq_some_iff.mp (feed_append m u w ▸ run)

theorem step_plain (opening : t.isOpening = false) (closing : t.isClosing = false)
    (step : m.step? t = some next) : next.brackets = m.brackets := by
  obtain ⟨f', rfl, -⟩ | ⟨b, -, opens, -⟩ | ⟨b, rest, -, -, -, closes, -⟩ := step_cases step
  · rfl
  · rw [opens] at opening
    cases opening
  · rw [closes] at closing
    cases closing

/-- An opening bracket goes onto the stack as one that its own closer closes. -/
theorem step_opening (opening : t.isOpening = true) (step : step? ⟨f, bs⟩ t = some next) :
    ∃ b, next = ⟨.sequence .neutral, b :: bs⟩ ∧ t.closer? = some b.closer := by
  cases f with
  | start | classHead =>
      simp only [step?, Option.ite_none_right_eq_some, Option.some.injEq] at step
      obtain ⟨rfl, -⟩ := step
      cases opening
  | matchHead | matchBody =>
      simp only [step?, Option.ite_none_right_eq_some, Option.some.injEq] at step
      obtain ⟨rfl, rfl⟩ := step
      exact ⟨_, rfl, rfl⟩
  | sequence e =>
      cases t with
      | openParen | openBracket | attributeBracket | openBrace | expressionBrace =>
          cases step
          exact ⟨_, rfl, rfl⟩
      | _ => cases opening

/-- A closing bracket is the closer of the innermost bracket, which may close there. -/
theorem step_closing (closing : t.isClosing = true) (step : step? ⟨f, bs⟩ t = some next) :
    ∃ e b rest, f = .sequence e ∧ bs = b :: rest ∧ next = ⟨afterClosing b, rest⟩ ∧
      t = b.closer ∧ b.closesAfter e = true := by
  cases f with
  | start | classHead | matchHead | matchBody =>
      simp only [step?, Option.ite_none_right_eq_some, Option.some.injEq] at step
      obtain ⟨rfl, -⟩ := step
      cases closing
  | sequence e =>
      have closes : close? e bs t = some next := by
        cases t with
        | closeParen | closeBracket | closeBrace => exact step
        | _ => cases closing
      cases bs with
      | nil => cases closes
      | cons b rest =>
          simp only [close?, Option.ite_none_right_eq_some, Option.some.injEq, Bool.and_eq_true,
            decide_eq_true_eq] at closes
          obtain ⟨⟨rfl, closesAfter⟩, rfl⟩ := closes
          exact ⟨e, b, rest, rfl, rfl, rfl, rfl, closesAfter⟩

theorem unclosed_step (h : Unclosed m.brackets w) (step : m.step? t = some next) :
    Unclosed next.brackets (w ++ [t]) := by
  cases opening : t.isOpening with
  | true =>
      obtain ⟨b, rfl, pair⟩ := step_opening opening step
      exact .bracket h pair .nil
  | false =>
      cases closing : t.isClosing with
      | true =>
          obtain ⟨e, b, rest, -, brackets, rfl, rfl, -⟩ := step_closing closing step
          rw [brackets] at h
          exact h.close
      | false =>
          rw [step_plain opening closing step]
          exact h.append (.plain opening closing .nil)

theorem unclosed_feed (h : Unclosed m.brackets u) (run : m.feed w = some next) :
    Unclosed next.brackets (u ++ w) := by
  induction w generalizing m u with
  | nil =>
      cases run
      rwa [List.append_nil]
  | cons t w ih =>
      obtain ⟨mid, step, rest⟩ := exists_of_feed_cons run
      simpa using ih (unclosed_step h step) rest

/-- What is taken from no open bracket to no open bracket is nested. -/
theorem nested_of_feed (start : m.brackets = []) (run : m.feed w = some next)
    (ending : next.brackets = []) : Nested w := by
  have open_ : Unclosed next.brackets ([] ++ w) :=
    unclosed_feed (start ▸ .none .nil) run
  rw [ending] at open_
  exact open_.nested

/-- A nested sequence leaves the open brackets as they were. -/
theorem brackets_of_nested (nested : Nested w) (run : m.feed w = some next) :
    next.brackets = m.brackets := by
  induction nested generalizing m next with
  | nil =>
      cases run
      rfl
  | plain opening closing _ ih =>
      obtain ⟨mid, step, rest⟩ := exists_of_feed_cons run
      exact (ih rest).trans (step_plain opening closing step)
  | enclosed pair _ _ inner later =>
      obtain ⟨first, step, run⟩ := exists_of_feed_cons run
      obtain ⟨mid, within, run⟩ := exists_of_feed_append run
      obtain ⟨last, closes, rest⟩ := exists_of_feed_cons run
      obtain ⟨b, rfl, -⟩ := step_opening (Terminal.isOpening_of_closer pair) step
      have same : mid.brackets = b :: m.brackets := inner within
      obtain ⟨e, b', bs, -, stack, rfl, -⟩ :=
        step_closing (Terminal.isClosing_of_closer pair) closes
      obtain ⟨rfl, rfl⟩ := List.cons.inj (same.symm.trans stack)
      simpa using later rest

end Machine
end PhpGate
