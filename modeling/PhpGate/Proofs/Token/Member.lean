import PhpGate.Proofs.Grammar.Acceptance
import PhpGate.Proofs.Token.Blank
import PhpGate.Proofs.Token.Insertion
import PhpGate.Proofs.Token.Start

/-!
A blank between an operator of member access and the name behind it. The lexemes stay as they are
just when the text from the name on begins with no keyword and no white space; the look-behind that
keeps keywords from being read behind the operator sees it only where it is adjacent.
-/

namespace PhpGate

open Text

/-- A text split between an operator that ends in one of member access and the name behind it. -/
structure SplitsMember (a b : Text) (front : List Lexeme) (op name : Lexeme)
    (back : List Lexeme) : Prop where
  lexemes : (Lexing.of (a ++ b)).lexemes = front ++ op :: name :: back
  place : (front ++ [op]).flatMap Lexeme.text = a
  operator : op.terminal = .operator
  member : EndsInMember op.text
  named : name.terminal = .name

/-- Behind a blank the text begins with no keyword, and with no more white space. -/
def staysName (b : Text) : Bool :=
  !b.head?.any isBlank && Terminal.keywords.all fun k => (k.length? [' '] b).isNone

variable {a b t : Text} {front back : List Lexeme} {op name : Lexeme} {n : Nat}

/-- From a blank behind the operator on, the operator is not seen. -/
theorem EndsInMember.sameContext_blank (h : EndsInMember a) :
    SameContext [' '] (' ' :: a.reverse) := by
  obtain ⟨v, c, d, rfl, signs⟩ := h.exists_signs
  have other : foldCase d ∉ "function".toList := by
    obtain ⟨-, rfl⟩ | ⟨-, rfl⟩ := signs <;> decide
  rw [List.reverse_append]
  apply SameContext.of_cons
  · exact (followsMember_cons ' ' d _).symm
  · intro w
    cases w with
    | nil => exact (followsFunction_eq_false (u := [' ']) (by decide) other).symm
    | cons e w => exact followsFunction_congr (by simp) (by decide) (by decide)

/-- Behind the first character of the name a blank in front of it is not seen. -/
theorem EndsInMember.sameContext_name (h : EndsInMember a) {e : Char} (letter : e ≠ '>' ∧ e ≠ ':') :
    SameContext (e :: a.reverse) (e :: ' ' :: a.reverse) := by
  obtain ⟨v, c, d, rfl, signs⟩ := h.exists_signs
  have other : foldCase d ∉ "function".toList := by
    obtain ⟨-, rfl⟩ | ⟨-, rfl⟩ := signs <;> decide
  rw [List.reverse_append]
  apply SameContext.of_cons
  · have inside (x : Char) (X : Text) : followsMember (e :: x :: X) = false := by
      rw [followsMember_cons, beq_false_of_ne letter.1, beq_false_of_ne letter.2]
      rfl
    exact (inside _ _).trans (inside _ _).symm
  · intro w
    have same : followsFunction ((w ++ [e]) ++ d :: (c :: v.reverse))
        = followsFunction ((w ++ [e]) ++ ' ' :: (d :: c :: v.reverse)) :=
      followsFunction_congr (by simp) other (by decide)
    simpa using same

/-- What is read as a name somewhere is read as one wherever no keyword matches. -/
theorem first_name_iff {before before' : Text}
    (first : Terminal.first? before b = some (.name, n)) :
    Terminal.first? before' b = some (.name, n) ↔
      ∀ k ∈ Terminal.keywords, k.length? before' b = none := by
  have tried : ∀ k ∈ Terminal.keywords, k ∈ Terminal.inOrder.takeWhile (· != .name) := by decide
  constructor
  · intro first' k mem
    exact Terminal.length_eq_none_of_first first' (tried k mem)
  · intro none
    obtain ⟨-, -, -, found, -⟩ := Terminal.first_eq_some_iff.mp first
    refine Terminal.first_of_length found fun k earlier => ?_
    have other : k.length? before b = Option.none := Terminal.length_eq_none_of_first first earlier
    cases k with
    | anonymousClass | keywordOperator | classKeyword | matchKeyword => exact none _ (by decide)
    | expressionBrace => exact absurd earlier (by decide)
    | _ => exact other

theorem blankLength_space_iff : blankLength (' ' :: b) = 1 ↔ b.head?.any isBlank = false := by
  have space : isBlank ' ' = true := by decide
  cases b with
  | nil => simp [blankLength, space]
  | cons c r => cases blank : isBlank c <;> simp [blankLength, space, blank]

/-- Behind the operator one blank and then the name are read just when it stays a name. -/
theorem EndsInMember.first_blank_iff (h : EndsInMember a)
    (first : Terminal.first? a.reverse b = some (.name, n)) :
    (Terminal.first? a.reverse (' ' :: b) = some (.blank, 1) ∧
        Terminal.first? (' ' :: a.reverse) b = some (.name, n)) ↔ staysName b = true := by
  rw [first_of_isSpace (by decide), ← h.sameContext_blank.first_eq, first_name_iff first, staysName,
    Bool.and_eq_true, List.all_eq_true, Bool.not_eq_true', ← blankLength_space_iff]
  simp

/-- A run from the name on stays as it is with the blank in front, if the name is read there. -/
theorem Lexes.behind_blank {rest : Text} (h : EndsInMember a)
    (named : (nameLength? b).isSome = true)
    (first : Terminal.first? (' ' :: a.reverse) b = some (name.terminal, name.text.length))
    (run : Lexes a.reverse b (name :: back) rest) :
    Lexes (' ' :: a.reverse) b (name :: back) rest := by
  obtain ⟨e, r, start, letter⟩ := exists_of_nameLength named
  have other : e ≠ '>' ∧ e ≠ ':' := by
    constructor <;> rintro rfl <;> simp at letter <;> cases letter
  cases run with
  | @take _ w _ _ _ _ taken later =>
      cases w with
      | nil => cases (Terminal.first_fits taken).1
      | cons d w =>
          obtain ⟨rfl, -⟩ := List.cons.inj start
          have same := (h.sameContext_name other).append w.reverse
          refine .take first (later.congr ?_)
          simpa using same

namespace SplitsMember

variable (h : SplitsMember a b front op name back)
include h

theorem endsInMember : EndsInMember a := by
  rw [← h.place, List.flatMap_append, List.flatMap_singleton]
  exact h.member.append _

theorem run : Takes [] (front ++ [op]) b ∧
    Lexes a.reverse b (name :: back) (Lexing.of (a ++ b)).rest := by
  have run := Lexes.of (a ++ b)
  rw [h.lexemes, List.append_cons] at run
  simpa using run.split h.place

theorem insert (stays : staysName b = true) :
    Lexes [] (a ++ ' ' :: b) ((front ++ [op]) ++ ⟨.blank, [' ']⟩ :: name :: back)
      (Lexing.of (a ++ b)).rest := by
  obtain ⟨takes, behind⟩ := h.run
  have first := behind.first
  rw [h.named] at first
  obtain ⟨blank, named⟩ := (h.endsInMember.first_blank_iff first).mpr stays
  obtain ⟨-, -, -, found, -⟩ := Terminal.first_eq_some_iff.mp first
  have isName : (nameLength? b).isSome = true := Option.isSome_of_eq_some found
  have insertedFront := takes.insert h.member isName
  have insertedBlank : Lexes a.reverse (' ' :: b) (⟨.blank, [' ']⟩ :: name :: back) _ :=
    .take (w := [' ']) blank (behind.behind_blank h.endsInMember isName (h.named ▸ named))
  rw [← List.append_nil a.reverse, ← h.place] at insertedBlank
  simpa only [h.place] using insertedFront.lexes insertedBlank

/-- The lexemes with the blank between the operator and the name. -/
theorem lexemes_iff :
    (Lexing.of (a ++ ' ' :: b)).lexemes = (front ++ [op]) ++ ⟨.blank, [' ']⟩ :: name :: back ↔
      staysName b = true := by
  constructor
  · intro inserted
    have run := Lexes.of (a ++ ' ' :: b)
    rw [inserted] at run
    obtain ⟨-, behind⟩ := run.split h.place
    rw [List.append_nil] at behind
    have parted : Lexes a.reverse ([' '] ++ b) ([⟨.blank, [' ']⟩] ++ name :: back) _ := behind
    have later := (parted.split rfl).2.first
    have first := h.run.2.first
    rw [h.named] at first later
    exact (h.endsInMember.first_blank_iff first).mp ⟨behind.first, later⟩
  · intro stays
    exact congrArg Lexing.lexemes (h.insert stays).scanAfter_eq

theorem compile_iff (stays : staysName b = true) :
    compile (a ++ ' ' :: b) = .ok () ↔ compile (a ++ b) = .ok () := by
  have scan : Lexing.of (a ++ ' ' :: b) = _ := (h.insert stays).scanAfter_eq
  have trivia : significant (⟨.blank, [' ']⟩ :: name :: back) = significant (name :: back) := rfl
  have lexemes := h.lexemes
  rw [List.append_cons] at lexemes
  rw [compile_eq_ok_iff_generates, compile_eq_ok_iff_generates, terminals_eq, terminals_eq, scan,
    lexemes, significant_append (front ++ [op]), trivia, significant_append (front ++ [op])]
  rfl

end SplitsMember

/-- A blank behind an operator of member access changes nothing just where the name stays one. -/
theorem blank_behind_member (h : SplitsMember a b front op name back) :
    ((Lexing.of (a ++ ' ' :: b)).lexemes = (front ++ [op]) ++ ⟨.blank, [' ']⟩ :: name :: back ↔
        staysName b = true) ∧
      (staysName b = true → (compile (a ++ ' ' :: b) = .ok () ↔ compile (a ++ b) = .ok ())) :=
  ⟨h.lexemes_iff, h.compile_iff⟩

/-- Behind `->` a name that is a keyword elsewhere only in front of a parenthesis. -/
theorem blank_behind_arrow :
    compile "<?php $a-> match;".toList = .ok () ∧ compile "<?php $a->match;".toList = .ok () := by
  have splits : SplitsMember "<?php $a->".toList "match;".toList
      [⟨.openTag, "<?php".toList⟩, ⟨.blank, " ".toList⟩, ⟨.variableName, "$a".toList⟩]
      ⟨.operator, "->".toList⟩ ⟨.name, "match".toList⟩ [⟨.semicolon, ";".toList⟩] :=
    ⟨by decide, rfl, rfl, .inl (by decide), rfl⟩
  have adjacent : compile "<?php $a->match;".toList = .ok () := rfl
  exact ⟨((blank_behind_member splits).2 (by decide)).mpr adjacent, adjacent⟩

/-- Keywords that are names directly behind `->` are read as keywords behind a blank. -/
theorem compile_keyword_behind_blank :
    (∃ front op name back,
        SplitsMember "<?php $a->".toList "or;".toList front op name back) ∧
      compile "<?php $a->or;".toList = .ok () ∧
      compile "<?php $a-> or;".toList = .error ⟨.unexpectedToken ⟨.semicolon, [';']⟩, 1⟩ ∧
      ∀ b ∈ ["instanceof;", "class;", "match(1);"].map String.toList,
        compile ("<?php $a->".toList ++ b) = .ok () ∧
          ∃ failure, compile ("<?php $a->".toList ++ ' ' :: b) = .error failure := by
  refine ⟨⟨[⟨.openTag, "<?php".toList⟩, ⟨.blank, " ".toList⟩, ⟨.variableName, "$a".toList⟩],
    ⟨.operator, "->".toList⟩, ⟨.name, "or".toList⟩, [⟨.semicolon, ";".toList⟩], ?_⟩, rfl, rfl, ?_⟩
  · exact ⟨by decide, rfl, rfl, .inl (by decide), rfl⟩
  · simp only [List.map_cons, List.map_nil, List.forall_mem_cons]
    exact ⟨⟨rfl, _, rfl⟩, ⟨rfl, _, rfl⟩, ⟨rfl, _, rfl⟩, List.forall_mem_nil _⟩

end PhpGate
