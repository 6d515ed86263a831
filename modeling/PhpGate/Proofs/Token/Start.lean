import PhpGate.Proofs.Token.Context

/-!
The characters that a terminal can begin with. A terminal fails at every other character, whatever
comes behind it, so only the few that begin with the same character compete at a place.
-/

namespace PhpGate

open Text

/-- The terminals that are tried before names and match words. -/
def Terminal.keywords : List Terminal :=
  [.anonymousClass, .keywordOperator, .classKeyword, .matchKeyword]

/-- The characters that a terminal can begin with. -/
def Terminal.opensWith (c : Char) : Terminal → Bool
  | inlineHtml => c == '?'
  | openTag | heredoc => c == '<'
  | anonymousClass => foldCase c == 'n'
  | lineComment => c == '/' || c == '#'
  | blockComment => c == '/'
  | doubleQuoted => c == '"'
  | backtick => c == '\x60'
  | singleQuoted => c == '\''
  | keywordOperator => keywordOperators.any fun word => word.head? == some (foldCase c)
  | classKeyword => classKeywords.any fun word => word.head? == some (foldCase c)
  | matchKeyword => foldCase c == 'm'
  | name => c == '\\' || isIdentifierStart c
  | number => c == '.' || isDecimalDigit c
  | variableName => c == '$'
  | ellipsis => c == '.'
  | increment => c == '+' || c == '-'
  | colon => c == ':'
  | operator => isSign c
  | expressionBrace | openBrace => c == '\x7b'
  | blank => isBlank c
  | attributeBracket => c == '#'
  | comma => c == ','
  | openParen => c == '('
  | openBracket => c == '['
  | closeBrace => c == '\x7d'
  | closeParen => c == ')'
  | closeBracket => c == ']'
  | semicolon => c == ';'

variable {before r : Text} {c : Char} {n : Nat}

theorem head_of_beginsWith {d : Char} {word : Text}
    (begins : beginsWith (d :: word) (c :: r) = true) : foldCase c = d := by
  rw [beginsWith, Bool.and_eq_true] at begins
  exact (beq_iff_eq.mp begins.1).symm ▸ rfl

theorem head_of_wordLength {words : List Text} (found : wordLength? words (c :: r) = some n)
    (nonempty : [] ∉ words) : (words.any fun word => word.head? == some (foldCase c)) = true := by
  obtain ⟨word, mem, found⟩ := List.exists_of_findSome?_eq_some found
  simp only [Option.ite_none_right_eq_some, Bool.and_eq_true] at found
  cases word with
  | nil => exact absurd mem nonempty
  | cons d word =>
      refine List.any_eq_true.mpr ⟨d :: word, mem, ?_⟩
      rw [head_of_beginsWith found.1.1]
      exact beq_self_eq_true _

theorem head_of_fixedLength {d : Char} {word : Text}
    (found : fixedLength? (d :: word) (c :: r) = some n) : c = d := by
  simp only [fixedLength?, Option.ite_none_right_eq_some, List.isPrefixOf, Bool.and_eq_true,
    beq_iff_eq] at found
  exact found.1.1.symm

namespace Terminal

/-- What a terminal matches begins with one of its characters. -/
theorem opensWith_of_length {k : Terminal} (found : k.length? before (c :: r) = some n) :
    k.opensWith c = true := by
  cases k with
  | inlineHtml =>
      rw [inlineHtml_cons, Option.ite_none_right_eq_some] at found
      exact beq_iff_eq.mpr found.1.1
  | openTag =>
      rw [length?, openTagLength_cons, Option.ite_none_right_eq_some] at found
      exact beq_iff_eq.mpr found.1.1
  | heredoc =>
      have opening : heredocOpening? (c :: r) ≠ none := by
        intro none
        rw [length?, heredocLength?, none] at found
        cases found
      refine beq_iff_eq.mpr (Decidable.byContradiction fun other => opening ?_)
      exact heredocOpening_eq_none fun s split => other (List.cons.inj split).1
  | anonymousClass =>
      rw [length?, anonymousClassLength_eq, Option.ite_none_right_eq_some, Bool.and_eq_true] at found
      exact beq_iff_eq.mpr (head_of_beginsWith found.1.1.2)
  | lineComment =>
      rw [opensWith, Bool.or_eq_true, beq_iff_eq, beq_iff_eq]
      rw [length?, lineCommentLength_cons] at found
      split at found
      · exact .inl (And.left ‹_›)
      · rw [Option.ite_none_right_eq_some] at found
        exact .inr found.1.1
  | blockComment =>
      rw [length?, blockCommentLength_cons, Option.ite_none_right_eq_some] at found
      exact beq_iff_eq.mpr found.1.1
  | doubleQuoted =>
      rw [doubleQuoted_cons, Option.ite_none_right_eq_some] at found
      exact beq_iff_eq.mpr found.1
  | backtick =>
      rw [backtick_cons, Option.ite_none_right_eq_some] at found
      exact beq_iff_eq.mpr found.1
  | singleQuoted =>
      rw [singleQuoted_cons, Option.ite_none_right_eq_some] at found
      exact beq_iff_eq.mpr found.1
  | keywordOperator =>
      rw [length?, keywordOperatorLength?, Option.ite_none_right_eq_some] at found
      exact head_of_wordLength found.2 (by decide)
  | classKeyword =>
      rw [length?, classKeywordLength?, Option.ite_none_right_eq_some, Option.filter_eq_some_iff]
        at found
      exact head_of_wordLength found.2.1 (by decide)
  | matchKeyword =>
      simp only [length?, matchKeywordLength?, Option.ite_none_right_eq_some, Bool.and_eq_true]
        at found
      exact beq_iff_eq.mpr (head_of_beginsWith found.1.1.2)
  | name =>
      rw [opensWith, Bool.or_eq_true, beq_iff_eq]
      rw [length?, nameLength_cons] at found
      split at found
      · exact .inl ‹_›
      · rw [Option.ite_none_right_eq_some] at found
        exact .inr found.1
  | number =>
      rw [opensWith, Bool.or_eq_true, beq_iff_eq]
      rw [length?, numberLength_cons] at found
      split at found
      · exact .inl ‹_›
      · rw [Option.ite_none_right_eq_some] at found
        exact .inr found.1
  | variableName =>
      simp only [length?, variableLength?] at found
      split at found
      · rename_i sign
        exact beq_iff_eq.mpr (List.cons.inj sign).1
      · cases found
  | increment =>
      simp only [length?, Option.ite_none_right_eq_some, Bool.or_eq_true] at found
      rw [opensWith, Bool.or_eq_true, beq_iff_eq, beq_iff_eq]
      refine found.1.imp (fun plus => ?_) fun minus => ?_
      · exact (beq_iff_eq.mp (Bool.and_eq_true_iff.mp plus).1).symm
      · exact (beq_iff_eq.mp (Bool.and_eq_true_iff.mp minus).1).symm
  | colon =>
      simp only [length?, Option.ite_none_right_eq_some, startsColon_cons, Bool.and_eq_true] at found
      exact found.1.1
  | operator =>
      rw [length?, someLength, Option.ite_none_left_eq_some] at found
      exact isSign_of_continuesOperator (Decidable.byContradiction fun stop =>
        found.1 (if_neg stop))
  | expressionBrace =>
      rw [length?, Option.ite_none_right_eq_some] at found
      exact beq_iff_eq.mpr (head_of_fixedLength found.2)
  | blank =>
      obtain ⟨length, pos⟩ := blank_eq_some_iff.mp found
      refine Decidable.byContradiction fun ink : ¬ isBlank c = true => ?_
      rw [blankLength, List.takeWhile_cons_of_neg ink] at length
      rw [← length] at pos
      cases pos
  | ellipsis | attributeBracket | comma | openBrace | openParen | openBracket | closeBrace
  | closeParen | closeBracket | semicolon => exact beq_iff_eq.mpr (head_of_fixedLength found)

theorem length_eq_none_of_opensWith {k : Terminal} (other : k.opensWith c = false) :
    k.length? before (c :: r) = none := by
  refine Option.eq_none_iff_forall_ne_some.mpr fun n found => ?_
  rw [opensWith_of_length found] at other
  cases other

end Terminal

end PhpGate
