import PhpGate.Proofs.Text.LineEnding
import PhpGate.Proofs.Token.Context
import PhpGate.Proofs.Token.Extent

/-!
Terminals take the same lines of two texts that differ in their line endings only. No terminal looks
at a carriage return and a line feed with different eyes: words, names and numbers end in front of
both, white space goes on over both, and strings, comments, heredocs and markup hold both.
-/

namespace PhpGate

open Text

variable {a b word : Text} {n m : Nat}

theorem someLength_same (h : SameCut a b n m) (le : n ≤ a.length) (le' : m ≤ b.length) :
    SameMatch a b (someLength n) (someLength m) := by
  have nothing := h.eq_zero_iff le le'
  rw [someLength, someLength]
  by_cases empty : n = 0
  · rw [if_pos empty, if_pos (nothing.mp empty)]
    exact .none
  · rw [if_neg empty, if_neg (mt nothing.mpr empty)]
    exact .some h

section Words

theorem unbroken_of_map_foldCase (h : Unbroken (a.map foldCase)) : Unbroken a := by
  rw [Unbroken, List.all_map] at h
  refine List.all_eq_true.mpr fun c mem => ?_
  have folded := List.all_eq_true.mp h c mem
  rw [Function.comp_apply, Bool.and_eq_true, bne_iff_ne, bne_iff_ne] at folded
  rw [Bool.and_eq_true, bne_iff_ne, bne_iff_ne]
  constructor
  · rintro rfl
    exact folded.1 rfl
  · rintro rfl
    exact folded.2 rfl

theorem beginsWith_same (h : SameLines a b) (unbroken : Unbroken word) :
    beginsWith word a = beginsWith word b := by
  rw [Bool.eq_iff_iff, beginsWith_iff, beginsWith_iff]
  refine h.take_iff (P := fun w => w.map foldCase = word) fun w folded => ?_
  exact unbroken_of_map_foldCase (folded ▸ unbroken)

theorem beginsWith_cut (h : SameLines a b) (unbroken : Unbroken word)
    (begins : beginsWith word a = true) : SameCut a b word.length word.length := by
  rw [beginsWith_iff] at begins
  apply SameCut.of_take h
  apply unbroken_of_map_foldCase
  rwa [begins]

theorem isPrefixOf_iff_take {t : Text} :
    word.isPrefixOf t = true ↔ t.take word.length = word := by
  rw [List.isPrefixOf_iff_prefix, List.prefix_iff_eq_take]
  exact eq_comm

theorem isPrefixOf_same (h : SameLines a b) (unbroken : Unbroken word) :
    word.isPrefixOf a = word.isPrefixOf b := by
  rw [Bool.eq_iff_iff, isPrefixOf_iff_take, isPrefixOf_iff_take]
  refine h.take_iff (P := fun w => w = word) fun w same => ?_
  rwa [same]

theorem isPrefixOf_cut (h : SameLines a b) (unbroken : Unbroken word)
    (begins : word.isPrefixOf a = true) : SameCut a b word.length word.length := by
  rw [isPrefixOf_iff_take] at begins
  apply SameCut.of_take h
  rwa [begins]

theorem fixedLength_same (h : SameLines a b) (unbroken : Unbroken word) :
    SameMatch a b (fixedLength? word a) (fixedLength? word b) := by
  rw [fixedLength?, fixedLength?, ← isPrefixOf_same h unbroken]
  split
  · next begins => exact .some (isPrefixOf_cut h unbroken begins)
  · exact .none

theorem wordLength_same (h : SameLines a b) {words : List Text}
    (unbroken : ∀ w ∈ words, Unbroken w) :
    SameMatch a b (wordLength? words a) (wordLength? words b) := by
  induction words with
  | nil => exact .none
  | cons w words ih =>
      have first := unbroken w List.mem_cons_self
      have later := ih fun w' mem => unbroken w' (List.mem_cons_of_mem w mem)
      rw [wordLength?, wordLength?, List.findSome?_cons, List.findSome?_cons, ← wordLength?,
        ← wordLength?, ← beginsWith_same h first]
      cases begins : beginsWith w a with
      | false => exact later
      | true =>
          have cut := beginsWith_cut h first begins
          rw [← cut.back.any_head_eq (p := isWord) rfl]
          cases (a.drop w.length).head?.any isWord with
          | false => exact .some cut
          | true => exact later

end Words

section Names

theorem identifierLength_same (h : SameLines a b) :
    SameMatch a b (identifierLength? a) (identifierLength? b) := by
  cases h with
  | nil => exact .none
  | @char c _ _ visible rest =>
      rw [identifierLength?, identifierLength?]
      split
      · exact .some ((SameCut.takeWhile rest rfl).char visible)
      · exact .none
  | pair => exact .none

theorem qualifiedTail_same (h : SameLines a b) (afterSeparator : Bool) :
    SameCut a b (qualifiedTail afterSeparator a) (qualifiedTail afterSeparator b) := by
  induction h generalizing afterSeparator with
  | nil => exact .zero .nil
  | @char c _ _ visible rest ih =>
      rw [qualifiedTail, qualifiedTail]
      split
      · exact (ih true).char visible
      · generalize (if afterSeparator = true then isIdentifierStart c else isIdentifierPart c)
          = goesOn
        split
        · exact (ih false).char visible
        · exact .zero (rest.char visible)
  | pair rest =>
      cases afterSeparator <;> exact .zero rest.pair

theorem nameLength_same (h : SameLines a b) : SameMatch a b (nameLength? a) (nameLength? b) := by
  cases h with
  | nil => exact .none
  | @char c r r' visible rest =>
      rw [nameLength_cons, nameLength_cons, ← rest.any_head_eq (p := isIdentifierStart) rfl]
      by_cases separator : c = '\\'
      · rw [if_pos separator, if_pos separator]
        cases rest with
        | nil => exact .none
        | char visible' rest =>
            split
            · exact .some (((qualifiedTail_same rest false).char visible').char visible)
            · exact .none
        | pair => exact .none
      · rw [if_neg separator, if_neg separator]
        split
        · exact .some ((qualifiedTail_same rest false).char visible)
        · exact .none
  | pair => exact .none

theorem variableLength_same (h : SameLines a b) :
    SameMatch a b (variableLength? a) (variableLength? b) := by
  cases h with
  | nil => exact .none
  | @char c r r' visible rest =>
      by_cases sign : c = '$'
      · subst sign
        have signs := SameCut.takeWhile rest (p := fun c => c == '$') rfl
        rw [variableLength?, variableLength?, Nat.add_assoc, Nat.add_assoc, Nat.add_comm 1,
          Nat.add_comm 1]
        exact .some (.char visible (signs.add ((identifierLength_same signs.back).getD signs.back)))
      · have other (t : Text) : variableLength? (c :: t) = none := by
          rw [variableLength?]
          rintro _ same
          exact sign (List.cons.inj same).1
        rw [other, other]
        exact .none
  | pair => exact .none

end Names

section Numbers

theorem fractionLength_same (h : SameLines a b) :
    SameCut a b (fractionLength a) (fractionLength b) := by
  cases h with
  | nil => exact .zero .nil
  | @char c r r' visible rest =>
      by_cases point : c = '.'
      · subst point
        exact (SameCut.takeWhile rest rfl).char visible
      · have other (t : Text) : fractionLength (c :: t) = 0 := by
          rw [fractionLength]
          rintro _ same
          exact point (List.cons.inj same).1
        rw [other, other]
        exact .zero (rest.char visible)
  | pair rest => exact .zero rest.pair

theorem exponentLength_same (h : SameLines a b) :
    SameCut a b (exponentLength a) (exponentLength b) := by
  cases h with
  | nil => exact .zero .nil
  | @char e r r' visible rest =>
      have signs (d : Char) (visible : d ≠ '\n' ∧ d ≠ '\r') :
          (r.head? == some d) = (r'.head? == some d) := by
        rw [Bool.eq_iff_iff, beq_iff_eq, beq_iff_eq, rest.head_eq_iff visible]
      rw [exponentLength, exponentLength, ← signs '+' (by decide), ← signs '-' (by decide)]
      have signed : SameCut r r' (if r.head? == some '+' || r.head? == some '-' then 1 else 0)
          (if r.head? == some '+' || r.head? == some '-' then 1 else 0) := by
        cases rest with
        | nil => exact .zero .nil
        | char visible' rest =>
            split
            · exact (SameCut.zero rest).char visible'
            · exact .zero (rest.char visible')
        | pair rest => exact .zero rest.pair
      generalize (if r.head? == some '+' || r.head? == some '-' then 1 else 0) = sign at signed ⊢
      have digits := signed.add (SameCut.takeWhile signed.back (p := isDecimalDigit) rfl)
      rw [← signed.back.takeWhile_eq (p := isDecimalDigit) ⟨rfl, rfl⟩] at digits ⊢
      split
      · rw [Nat.add_assoc, Nat.add_comm 1]
        exact digits.char visible
      · exact .zero (rest.char visible)
  | pair rest => exact .zero rest.pair

theorem numberLength_same (h : SameLines a b) :
    SameMatch a b (numberLength? a) (numberLength? b) := by
  cases h with
  | nil => exact .none
  | @char d r r' visible rest =>
      rw [numberLength_cons, numberLength_cons, ← rest.any_head_eq (p := isDecimalDigit) rfl]
      by_cases point : d = '.'
      · rw [if_pos point, if_pos point]
        cases rest with
        | nil => exact .none
        | char visible' rest =>
            split
            · exact .some (((SameCut.takeWhile rest rfl).char visible').char visible)
            · exact .none
        | pair => exact .none
      · rw [if_neg point, if_neg point]
        split
        · have whole := SameCut.takeWhile rest (p := isWord) rfl
          have fraction := whole.add (fractionLength_same whole.back)
          have exponent := fraction.add (exponentLength_same fraction.back)
          simp only [Nat.add_assoc, Nat.add_comm 1] at exponent ⊢
          exact .some (exponent.char visible)
        · exact .none
  | pair => exact .none

end Numbers

section Operators

theorem continuesOperator_same (h : SameLines a b) (c : Char) :
    continuesOperator c a.head? = continuesOperator c b.head? := by
  obtain same | ⟨feed, ret⟩ := h.head_cases
  · rw [same]
  · rw [feed, ret]
    rfl

theorem operatorRun_same (h : SameLines a b) : SameCut a b (operatorRun a) (operatorRun b) := by
  induction h with
  | nil => exact .zero .nil
  | @char c _ _ visible rest ih =>
      rw [operatorRun, operatorRun, ← continuesOperator_same rest]
      split
      · exact ih.char visible
      · exact .zero (rest.char visible)
  | pair rest => exact .zero rest.pair

theorem startsColon_same (h : SameLines a b) : startsColon a = startsColon b := by
  cases h with
  | nil => rfl
  | @char c r r' visible rest =>
      have next : (r.head? != some ':') = (r'.head? != some ':') := by
        rw [Bool.eq_iff_iff, bne_iff_ne, bne_iff_ne, Ne, Ne, rest.head_eq_iff (by decide)]
      rw [startsColon_cons, startsColon_cons, next]
  | pair => rfl

theorem increment_same (h : SameLines a b) (before : Text) :
    SameMatch a b (Terminal.length? before a .increment) (Terminal.length? before b .increment) := by
  simp only [Terminal.length?]
  rw [← isPrefixOf_same h (by decide), ← isPrefixOf_same h (by decide)]
  split
  · next begins =>
      obtain plus | minus := Bool.or_eq_true _ _ ▸ begins
      · exact .some (isPrefixOf_cut h (by decide) plus)
      · exact .some (isPrefixOf_cut h (by decide) minus)
  · exact .none

theorem colon_same (h : SameLines a b) (before : Text) :
    SameMatch a b (Terminal.length? before a .colon) (Terminal.length? before b .colon) := by
  simp only [Terminal.length?]
  rw [← startsColon_same h]
  cases h with
  | nil => exact .none
  | char visible rest =>
      split
      · exact .some ((SameCut.zero rest).char visible)
      · exact .none
  | pair => exact .none

end Operators

section Keywords

variable (before : Text)

theorem blankLength_same (h : SameLines a b) : SameCut a b (blankLength a) (blankLength b) :=
  .takeWhile h rfl

theorem trimStart_same (h : SameLines a b) : SameLines (trimStart a) (trimStart b) :=
  h.dropWhile rfl

theorem keywordOperatorLength_same (h : SameLines a b) :
    SameMatch a b (keywordOperatorLength? before a) (keywordOperatorLength? before b) := by
  rw [keywordOperatorLength?, keywordOperatorLength?]
  split
  · exact wordLength_same h (by decide)
  · exact .none

theorem classKeywordLength_same (h : SameLines a b) :
    SameMatch a b (classKeywordLength? before a) (classKeywordLength? before b) := by
  rw [classKeywordLength?, classKeywordLength?]
  split
  · refine (wordLength_same h (by decide)).filter fun n m cut => ?_
    rw [startsColon_same (trimStart_same cut.back)]
  · exact .none

theorem matchKeywordLength_same (h : SameLines a b) :
    SameMatch a b (matchKeywordLength? before a) (matchKeywordLength? before b) := by
  have unbroken : Unbroken "match".toList := by decide
  rw [matchKeywordLength?, matchKeywordLength?, ← beginsWith_same h unbroken]
  cases begins : beginsWith "match".toList a with
  | false =>
      simp only [Bool.and_false, Bool.false_and]
      exact .none
  | true =>
      have cut := beginsWith_cut h unbroken begins
      have paren : ((trimStart (a.drop 5)).head? == some '(')
          = ((trimStart (b.drop 5)).head? == some '(') := by
        rw [Bool.eq_iff_iff, beq_iff_eq, beq_iff_eq]
        exact (trimStart_same cut.back).head_eq_iff (by decide)
      rw [paren]
      split
      · exact .some cut
      · exact .none

/-- White space between the two words may hold line breaks. -/
theorem anonymousClassLength_same (h : SameLines a b) :
    SameMatch a b (anonymousClassLength? before a) (anonymousClassLength? before b) := by
  have unbroken : Unbroken "new".toList := by decide
  rw [anonymousClassLength_eq, anonymousClassLength_eq, ← beginsWith_same h unbroken]
  cases begins : beginsWith "new".toList a with
  | false =>
      simp only [Bool.and_false, Bool.false_eq_true, false_and, if_false]
      exact .none
  | true =>
      have cut : SameCut a b 3 3 := beginsWith_cut h unbroken begins
      have blanks := blankLength_same cut.back
      have spaced : 0 < blankLength (a.drop 3) ↔ 0 < blankLength (b.drop 3) := by
        rw [Nat.pos_iff_ne_zero, Nat.pos_iff_ne_zero, Ne, Ne,
          blanks.eq_zero_iff (length_takeWhile_le _ _) (length_takeWhile_le _ _)]
      by_cases starts : (startsKeyword before && true) = true ∧ 0 < blankLength (a.drop 3)
      · rw [if_pos starts, if_pos ⟨starts.1, spaced.mp starts.2⟩]
        exact .after (cut.add blanks) (wordLength_same (cut.add blanks).back (by decide))
      · rw [if_neg starts, if_neg fun starts' => starts ⟨starts'.1, spaced.mpr starts'.2⟩]
        exact .none

end Keywords

end PhpGate
