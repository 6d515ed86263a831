import PhpGate.Proofs.Grammar.Acceptance

/-!
What a failure of compiling says. Every configuration of the machine can be brought to an end, so
the sequences it takes are exactly the beginnings of derivable ones. A failure therefore names the
first token, character or end of file up to which the source could still have been completed.
-/

namespace PhpGate

open Nonterminal

/-- Terminals that have a derivable continuation. -/
def Viable (w : List Terminal) : Prop :=
  ∃ v, start.Generates (w ++ v)

namespace Machine

/-- Terminals that lead from a focus to neutral position with the same brackets open. -/
def settle : Focus → List Terminal
  | .start => [.openTag]
  | .sequence _ => [.colon]
  | .classHead => [.name, .colon]
  | .matchHead => [.openParen, .closeParen, .openBrace, .closeBrace, .colon]
  | .matchBody => [.openBrace, .closeBrace, .colon]

/-- Terminals that close open brackets, the innermost first. -/
def unwind : List Bracket → List Terminal
  | [] => []
  | b :: bs => b.closer :: (settle (afterClosing b) ++ unwind bs)

theorem feed_settle (f : Focus) (bs : List Bracket) :
    feed ⟨f, bs⟩ (settle f) = some ⟨.sequence .neutral, bs⟩ := by
  cases f <;> rfl

theorem step_closer (b : Bracket) (bs : List Bracket) :
    step? ⟨.sequence .neutral, b :: bs⟩ b.closer = some ⟨afterClosing b, bs⟩ := by
  cases b <;> rfl

theorem feed_unwind (bs : List Bracket) :
    feed ⟨.sequence .neutral, bs⟩ (unwind bs) = some ⟨.sequence .neutral, []⟩ := by
  induction bs with
  | nil => rfl
  | cons b bs ih =>
      rw [unwind, feed_cons, step_closer, Option.bind_some, feed_append, feed_settle,
        Option.bind_some, ih]

/-- No configuration is a dead end. -/
theorem feed_completion (m : Machine) :
    m.feed (settle m.focus ++ unwind m.brackets) = some ⟨.sequence .neutral, []⟩ := by
  rw [feed_append, feed_settle, Option.bind_some, feed_unwind]

theorem run_append (m : Machine) (ts us : List Token) :
    m.run (ts ++ us) = (m.run ts).bind fun next => next.run us := by
  induction ts generalizing m with
  | nil => rfl
  | cons token ts ih =>
      rw [List.cons_append, run, run]
      cases m.step? token.terminal with
      | none => rfl
      | some next => exact ih next

theorem run_eq_error_iff (m : Machine) (ts : List Token) (token : Token) :
    m.run ts = .error token ↔
      ∃ earlier later next, ts = earlier ++ token :: later ∧
        m.feed (earlier.map fun token => token.terminal) = some next ∧
        next.step? token.terminal = none := by
  induction ts generalizing m with
  | nil => simp [run]
  | cons first rest ih =>
      rw [run]
      cases step : m.step? first.terminal with
      | none =>
          constructor
          · intro stuck
            cases stuck
            exact ⟨[], rest, m, rfl, rfl, step⟩
          · rintro ⟨earlier, later, next, split, run, stuck⟩
            cases earlier with
            | nil =>
                cases split
                rfl
            | cons t earlier =>
                obtain ⟨rfl, -⟩ := List.cons.inj split
                simp [step] at run
      | some mid =>
          refine (ih mid).trans ⟨?_, ?_⟩
          · rintro ⟨earlier, later, next, rfl, run, stuck⟩
            exact ⟨first :: earlier, later, next, rfl, by simp [step, run], stuck⟩
          · rintro ⟨earlier, later, next, split, run, stuck⟩
            cases earlier with
            | nil =>
                cases split
                cases run
                rw [step] at stuck
                cases stuck
            | cons t earlier =>
                obtain ⟨rfl, rest⟩ := List.cons.inj split
                refine ⟨earlier, later, next, rest, ?_, stuck⟩
                simpa [step] using run

theorem mem_of_run_eq_error {m : Machine} {ts : List Token} {token : Token}
    (stuck : m.run ts = .error token) : token ∈ ts := by
  obtain ⟨earlier, later, -, rfl, -⟩ := (m.run_eq_error_iff ts token).mp stuck
  simp

end Machine

/-- The machine takes a sequence just when the sequence can be completed. -/
theorem viable_iff_feed (w : List Terminal) : Viable w ↔ ∃ m, Machine.initial.feed w = some m := by
  constructor
  · rintro ⟨v, generates⟩
    have run := (feed_initial_iff_generates _).mpr generates
    rw [Machine.feed_append] at run
    obtain ⟨m, first, -⟩ := Option.bind_eq_some_iff.mp run
    exact ⟨m, first⟩
  · rintro ⟨m, run⟩
    refine ⟨Machine.settle m.focus ++ Machine.unwind m.brackets,
      (feed_initial_iff_generates _).mp ?_⟩
    rw [Machine.feed_append, run, Option.bind_some, Machine.feed_completion]

theorem step_eq_none_iff_not_viable {m : Machine} {w : List Terminal} {t : Terminal}
    (run : Machine.initial.feed w = some m) : m.step? t = none ↔ ¬ Viable (w ++ [t]) := by
  rw [viable_iff_feed, Machine.feed_append, run, Option.bind_some, Machine.feed_cons]
  cases m.step? t with
  | none => simp
  | some next => simp

/-- The run stops at the first token that cannot follow those before it. -/
theorem run_initial_eq_error_iff (ts : List Token) (token : Token) :
    Machine.initial.run ts = .error token ↔
      ∃ earlier later, ts = earlier ++ token :: later ∧
        Viable (earlier.map fun token => token.terminal) ∧
        ¬ Viable ((earlier.map fun token => token.terminal) ++ [token.terminal]) := by
  rw [Machine.run_eq_error_iff]
  constructor
  · rintro ⟨earlier, later, next, split, run, stuck⟩
    exact ⟨earlier, later, split, (viable_iff_feed _).mpr ⟨next, run⟩,
      (step_eq_none_iff_not_viable run).mp stuck⟩
  · rintro ⟨earlier, later, split, viable, misplaced⟩
    obtain ⟨next, run⟩ := (viable_iff_feed _).mp viable
    exact ⟨earlier, later, next, split, run, (step_eq_none_iff_not_viable run).mpr misplaced⟩

theorem viable_terminals_iff (t : Text) :
    Viable (terminals t) ↔ ∃ m, Machine.initial.run (tokens t) = .ok m := by
  simp only [viable_iff_feed, Machine.run_eq_ok_iff, terminals]

/-- The failure that names the earliest fault of a text: what comes before it can be completed to a
derivable sequence, and a token or the end of file can stand there in no such sequence. -/
inductive IsEarliestFault (t : Text) : CompileFailure → Prop
  | token {earlier later : List Token} {token : Token}
      (split : tokens t = earlier ++ token :: later)
      (viable : Viable (earlier.map fun token => token.terminal))
      (misplaced : ¬ Viable ((earlier.map fun token => token.terminal) ++ [token.terminal])) :
      IsEarliestFault t ⟨.unexpectedToken token.toLexeme, token.line⟩
  | character {stop : LexicalStop} (stops : (Lexing.of t).stop? = some stop)
      (viable : Viable (terminals t)) :
      IsEarliestFault t ⟨.unexpectedCharacter stop.char, stop.line⟩
  | ending (complete : (Lexing.of t).stop? = none) (viable : Viable (terminals t))
      (unfinished : ¬ start.Generates (terminals t)) :
      IsEarliestFault t ⟨.unexpectedEnd, t.newlines + 1⟩

/-- Compiling fails with the earliest fault of a text and with nothing else. -/
theorem compile_eq_error_iff_isEarliestFault (t : Text) (failure : CompileFailure) :
    compile t = .error failure ↔ IsEarliestFault t failure := by
  constructor
  · intro failed
    rw [compile] at failed
    cases run : Machine.initial.run (Lexing.of t).tokens with
    | error token =>
        rw [run] at failed
        cases failed
        obtain ⟨earlier, later, split, viable, misplaced⟩ := (run_initial_eq_error_iff _ _).mp run
        exact .token split viable misplaced
    | ok m =>
        have viable : Viable (terminals t) := (viable_terminals_iff t).mpr ⟨m, run⟩
        rw [run] at failed
        cases stop : (Lexing.of t).stop? with
        | some place =>
            rw [stop] at failed
            cases failed
            exact .character stop viable
        | none =>
            simp only [stop] at failed
            split at failed
            · cases failed
            · rename_i unfinished
              cases failed
              refine .ending stop viable fun generates => unfinished ?_
              have ends := (Machine.run_eq_ok_iff ..).mpr ((feed_initial_iff_generates _).mpr generates)
              cases run.symm.trans ends
              rfl
  · rintro (⟨split, viable, misplaced⟩ | ⟨stops, viable⟩ | ⟨complete, viable, unfinished⟩)
    · have run := (run_initial_eq_error_iff _ _).mpr ⟨_, _, split, viable, misplaced⟩
      rw [tokens] at run
      simp only [compile, run]
    · obtain ⟨m, run⟩ := (viable_terminals_iff t).mp viable
      rw [tokens] at run
      simp only [compile, run, stops]
    · obtain ⟨m, run⟩ := (viable_terminals_iff t).mp viable
      have unaccepted : m.accepts = false := by
        rw [Bool.eq_false_iff, Ne, Machine.accepts_iff]
        rintro rfl
        exact unfinished ((feed_initial_iff_generates _).mp ((Machine.run_eq_ok_iff ..).mp run))
      rw [tokens] at run
      simp [compile, run, complete, unaccepted]

end PhpGate
