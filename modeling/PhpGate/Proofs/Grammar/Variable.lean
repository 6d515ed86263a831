import PhpGate.Proofs.Grammar.Acceptance
import PhpGate.Proofs.Token.Identifier

/-!
A variable as a whole source. It is read and compiled just when the terminals cover its name: where
they leave the name nothing goes on, or a number that may not follow the sign of the variable.
-/

namespace PhpGate

open Text

variable {id : Text}

/-- A source of one variable. -/
def variableSource (id : Text) : Text :=
  "<?php $".toList ++ id ++ [';']

/-- The lexemes of a source of one variable up to that variable. -/
def variableLexemes (u : Text) : List Lexeme :=
  [⟨.openTag, "<?php".toList⟩, ⟨.blank, [' ']⟩, ⟨.variableName, '$' :: u⟩]

theorem text_variableLexemes (u s : Text) :
    (variableLexemes u).flatMap Lexeme.text ++ (s ++ [';']) = variableSource (u ++ s) := by
  change "<?php $".toList ++ (u ++ [] ++ (s ++ [';'])) = "<?php $".toList ++ (u ++ s) ++ [';']
  simp only [List.append_assoc, List.nil_append]

/-- A source of one variable is read up to where the terminals leave its name, and goes on there. -/
theorem IsIdentifier.exists_run (h : IsIdentifier id) : ∃ u s before ls, SplitsIdentifier id u s ∧
    (Lexing.of (variableSource id)).lexemes = variableLexemes u ++ ls ∧
    Lexes before (s ++ [';']) ls (Lexing.of (variableSource id)).rest := by
  obtain ⟨u, s, splits⟩ := h.exists_split
  have single : (id ++ [';']).head? ≠ some '$' := by
    cases id with
    | nil => decide
    | cons c r =>
        rintro ⟨⟩
        cases h.head
  have first := first_variable [' ', 'p', 'h', 'p', '?', '<'] single
  rw [splits.taken, splits.whole, List.append_assoc] at first
  have front : Takes [] (variableLexemes u) (s ++ [';']) := ⟨rfl, rfl, first, trivial⟩
  obtain ⟨ls, rest, later⟩ := Lexes.total
    (((variableLexemes u).flatMap Lexeme.text).reverse ++ []) (s ++ [';'])
  have run := front.lexes later
  rw [text_variableLexemes, ← splits.whole] at run
  obtain ⟨lexemes, unread⟩ := (Lexes.of (variableSource id)).unique run
  rw [← unread] at later
  exact ⟨u, s, _, ls, splits, lexemes, later⟩

/-- A source of one variable whose name is an identifier of PHP is read as the open tag, that variable
and the semicolon, and it compiles, just when the name is covered. -/
theorem variable_iff_isCovered (h : IsIdentifier id) :
    ((Lexing.of (variableSource id)).complete = true ∧
      (tokens (variableSource id)).map Token.toLexeme =
        [⟨.openTag, "<?php".toList⟩, ⟨.variableName, '$' :: id⟩, ⟨.semicolon, [';']⟩]
      ↔ IsCovered id) ∧
    (compile (variableSource id) = .ok () ↔ IsCovered id) := by
  obtain ⟨u, s, before, ls, ⟨whole, covered, -, stop⟩, lexemes, later⟩ := h.exists_run
  rw [tokens_toLexeme, compile_eq_ok_iff_feed, terminals_eq, lexemes, significant_append, ← covered,
    Lexing.complete]
  generalize (Lexing.of (variableSource id)).rest = rest at later
  cases s with
  | nil =>
      obtain ⟨rfl, rfl⟩ := later.unique (.semicolon before)
      obtain rfl : id = u := whole.trans (List.append_nil u)
      exact ⟨iff_of_true ⟨rfl, rfl⟩ rfl, iff_of_true ⟨rfl, rfl⟩ rfl⟩
  | cons c s =>
      obtain ⟨wide, ends⟩ := stop c rfl
      cases digit : isDecimalDigit c with
      | false =>
          obtain ⟨rfl, rfl⟩ := later.unique (.stop (first_eq_none_of_wide wide digit))
          have unread : ¬ (c :: s ++ [';']).isEmpty = true := Bool.false_ne_true
          exact ⟨iff_of_false (fun read => unread read.1) (List.cons_ne_nil c s),
            iff_of_false (fun compiled => unread compiled.1) (List.cons_ne_nil c s)⟩
      | true =>
          -- the sign stands alone, and a number may not follow it
          obtain ⟨w, v, cut, number⟩ :=
            exists_first_of_wide (r := s ++ [';']) wide before digit
          obtain rfl : u = [] := ends.resolve_right (by simp [digit])
          rw [List.cons_append, cut] at later
          obtain ⟨ls, rfl, -⟩ := later.exists_cons number
          refine ⟨iff_of_false ?_ (List.cons_ne_nil c s), iff_of_false ?_ (List.cons_ne_nil c s)⟩
          · rintro ⟨-, same⟩
            have name : ['$'] = '$' :: id :=
              congrArg Lexeme.text (List.cons.inj (List.cons.inj same).2).1
            rw [whole] at name
            cases name
          · rintro ⟨-, taken⟩
            have rejected : Machine.initial.feed ((significant (variableLexemes [])
                ++ significant (⟨.number, w⟩ :: ls)).map Lexeme.terminal) = none := rfl
            cases taken.symm.trans rejected

theorem variable_iff_isCovered_letters :
    let id := "é\u20009_𠀀".toList
    IsIdentifier id ∧ IsCovered id ∧ (Lexing.of (variableSource id)).complete = true ∧
    (tokens (variableSource id)).map Token.toLexeme =
      [⟨.openTag, "<?php".toList⟩, ⟨.variableName, '$' :: id⟩, ⟨.semicolon, [';']⟩] ∧
    compile (variableSource id) = .ok () := by
  have identifier : IsIdentifier "é\u20009_𠀀".toList := ⟨by decide, by decide⟩
  have covered : IsCovered "é\u20009_𠀀".toList := ⟨by decide, by decide +kernel⟩
  obtain ⟨read, compiled⟩ := variable_iff_isCovered identifier
  exact ⟨identifier, covered, (read.mpr covered).1, (read.mpr covered).2, compiled.mpr covered⟩

/-- A letter beyond U+FFFF begins no name, so the sign of the variable stands alone. -/
theorem not_variable_face :
    IsIdentifier ['😀'] ∧
    (tokens (variableSource ['😀'])).map Token.toLexeme =
      [⟨.openTag, "<?php".toList⟩, ⟨.variableName, ['$']⟩] ∧
    compile (variableSource ['😀']) = .error ⟨.unexpectedCharacter '😀', 1⟩ :=
  ⟨⟨by decide +kernel, by decide +kernel⟩, by decide +kernel, rfl⟩

end PhpGate
