import PhpGate.Proofs.Source.Stripping
import PhpGate.Proofs.Token.Closing
import PhpGate.Proofs.Token.Heredoc
import PhpGate.Proofs.Token.Numeral

/-!
When a token is read alike between other texts. Only the terminals that begin with its first
character compete with it, and what each of them sees of the text around it is little: the next
character, for keywords what stands behind the white space there, and for keywords and braces the
end of the text in front.
-/

namespace PhpGate

open Text Source

variable {before before' w r X Y : Text} {c : Char} {n : Nat}

namespace Terminal

/-- A terminal wins where it matches if its rivals, which begin with the same character, fail. -/
theorem first_of_rivals {k : Terminal} (rivals : List Terminal)
    (found : k.length? before (c :: r) = some n)
    (others : ∀ k' ∈ inOrder.takeWhile (· != k), k' ∉ rivals → k'.opensWith c = false)
    (lost : ∀ k' ∈ rivals, k'.length? before (c :: r) = none) :
    first? before (c :: r) = some (k, n) := by
  refine first_of_length found fun k' earlier => ?_
  by_cases rival : k' ∈ rivals
  · exact lost k' rival
  · exact length_eq_none_of_opensWith (others k' earlier rival)

theorem first_of_sole {k : Terminal} (found : k.length? before (c :: r) = some n)
    (others : ∀ k' ∈ inOrder.takeWhile (· != k), k'.opensWith c = false) :
    first? before (c :: r) = some (k, n) :=
  first_of_rivals [] found (fun k' earlier _ => others k' earlier) (List.forall_mem_nil _)

/-- Signs that are taken whatever stands around them. -/
def isPunctuation : Terminal → Bool
  | ellipsis | increment | attributeBracket | comma | openParen | openBracket | closeBrace
  | closeParen | closeBracket | semicolon => true
  | _ => false

theorem first_punctuation {k : Terminal} (sign : k.isPunctuation = true)
    (found : k.length? before (w ++ Y) = some w.length) :
    first? before' (w ++ X) = some (k, w.length) := by
  cases k with
  | increment =>
      obtain rfl | rfl := increment_text found <;>
        exact (first_of_plain before' (by decide) (by decide)).trans rfl
  | ellipsis | attributeBracket | comma | openParen | openBracket | closeBrace | closeParen
  | closeBracket | semicolon =>
      rw [fixedLength_text found]
      exact (first_of_plain before' (by decide) (by decide)).trans rfl
  | _ => cases sign

theorem first_openTag (found : openTag.length? before (w ++ Y) = some w.length) :
    first? before' (w ++ X) = some (openTag, w.length) := by
  obtain ⟨tag, v, split, length, kind⟩ := isOpenTag_of_openTagLength found
  obtain ⟨rfl, -⟩ := List.append_inj split length.symm
  obtain ⟨r, rfl⟩ := kind.exists_cons
  exact first_of_sole (openTagLength_of_isOpenTag kind X) (by decide)

theorem first_brace (word : w = ['\x7b']) : first? before' (w ++ X)
    = some (if followsExpression before' then expressionBrace else openBrace, 1) := by
  subst word
  have found : fixedLength? ['\x7b'] ('\x7b' :: X) = some 1 := by simp [fixedLength?]
  cases bound : followsExpression before' with
  | true =>
      rw [if_pos rfl]
      refine first_of_sole ?_ (by decide)
      rw [length?, bound]
      exact found
  | false =>
      refine first_of_rivals [expressionBrace] found (by decide) ?_
      intro k mem
      rw [List.mem_singleton.mp mem, length?, bound]
      rfl

theorem first_singleQuoted (found : singleQuoted.length? before (w ++ Y) = some w.length) :
    first? before' (w ++ X) = some (singleQuoted, w.length) := by
  cases w with
  | nil => cases (length_fits _ _ _ _ found).1
  | cons c v =>
      rw [List.cons_append, singleQuoted_cons, Option.ite_none_right_eq_some] at found
      obtain ⟨rfl, found⟩ := found
      obtain ⟨m, inner, length⟩ := Option.map_eq_some_iff.mp found
      obtain rfl : m = v.length := Nat.succ.inj length
      have alone := (quotedLength_take (by decide) inner).1
      rw [List.take_left] at alone
      rw [List.cons_append]
      refine first_of_sole ?_ (by decide)
      rw [singleQuoted_cons, if_pos rfl, quotedLength_append (by decide) alone]
      rfl

theorem first_doubleQuoted (found : doubleQuoted.length? before (w ++ Y) = some w.length) :
    first? before' (w ++ X) = some (doubleQuoted, w.length) := by
  cases w with
  | nil => cases (length_fits _ _ _ _ found).1
  | cons c v =>
      rw [List.cons_append, doubleQuoted_cons, Option.ite_none_right_eq_some] at found
      obtain ⟨rfl, found⟩ := found
      obtain ⟨m, inner, length⟩ := Option.map_eq_some_iff.mp found
      obtain rfl : m = v.length := Nat.succ.inj length
      rw [List.cons_append]
      refine first_of_sole ?_ (by decide)
      rw [doubleQuoted_cons, if_pos rfl, interpolatedLength_transfer .outside inner]
      rfl

theorem first_variableName (found : variableName.length? before (w ++ Y) = some w.length)
    (head : X.head? = Y.head? ∨ X.head?.any (joinsVariable w) = false) :
    first? before' (w ++ X) = some (variableName, w.length) := by
  have taken : variableLength? (w ++ X) = some w.length :=
    (variableLength_endsAt w).transfer found head
  cases w with
  | nil => cases (length_fits _ _ _ _ found).1
  | cons c v =>
      obtain rfl : c = '$' := by simpa using variableLength_head found
      exact first_of_sole taken (by decide)

theorem first_colon (found : colon.length? before (w ++ Y) = some w.length)
    (head : X.head? = Y.head? ∨ X.head?.any (· == ':') = false) :
    first? before' (w ++ X) = some (colon, w.length) := by
  rw [length?, Option.ite_none_right_eq_some, Option.some.injEq] at found
  obtain ⟨starts, length⟩ := found
  obtain ⟨c, rfl⟩ := List.length_eq_one_iff.mp length.symm
  rw [List.singleton_append, startsColon_cons, Bool.and_eq_true, beq_iff_eq] at starts
  obtain ⟨rfl, single⟩ := starts
  have other : (X.head? != some ':') = true := by
    obtain same | other := head
    · rw [same]
      exact single
    · cases X with
      | nil => rfl
      | cons d X => simpa using other
  rw [List.singleton_append]
  refine first_of_sole ?_ (by decide)
  rw [length?, startsColon_cons, other]
  rfl

/-- What begins with a digit and no letter is a number. -/
theorem opensWith_of_digit (digit : isDecimalDigit c = true) (plain : isIdentifierStart c = false) :
    ∀ k ∈ inOrder.takeWhile (· != number), k.opensWith c = false := by
  have ne (d : Char) (other : isDecimalDigit d = false) : (c == d) = false := by
    refine beq_false_of_ne ?_
    rintro rfl
    rw [digit] at other
    cases other
  intro k earlier
  cases k with
  | inlineHtml | openTag | heredoc | blockComment | doubleQuoted | backtick | singleQuoted =>
      exact ne _ (by decide)
  | lineComment => rw [opensWith, ne '/' (by decide), ne '#' (by decide), Bool.or_false]
  | anonymousClass | keywordOperator | classKeyword | matchKeyword =>
      exact opensWith_keyword (isLower_foldCase_of_plain plain) _ (by decide)
  | name => rw [opensWith, ne '\\' (by decide), plain, Bool.or_false]
  | _ => exact absurd earlier (by decide)

theorem first_number (first : first? before (w ++ Y) = some (number, w.length))
    (plain : Y.head?.any isExponent = false) (plain' : X.head?.any isExponent = false)
    (head : X.head? = Y.head? ∨ X.head?.any (joinsNumber w) = false) :
    first? before' (w ++ X) = some (number, w.length) := by
  obtain ⟨-, -, -, found, -⟩ := first_eq_some_iff.mp first
  have taken : number.length? before' (w ++ X) = some w.length := by
    obtain ⟨whole, stop⟩ := (numberLength_append_iff plain).mp found
    refine (numberLength_append_iff plain').mpr ⟨whole, ?_⟩
    obtain same | other := head
    · rw [same, stop]
    · exact other
  cases w with
  | nil => cases (length_fits _ _ _ _ found).1
  | cons c v =>
      have opens : number.opensWith c = true := opensWith_of_length taken
      rw [opensWith, Bool.or_eq_true, beq_iff_eq] at opens
      obtain rfl | digit := opens
      · exact first_of_sole taken (by decide)
      · refine first_of_sole taken (opensWith_of_digit digit ?_)
        have unnamed : nameLength? (c :: (v ++ Y)) = none :=
          length_eq_none_of_first first (show name ∈ _ by decide)
        have separator : c ≠ '\\' := by
          rintro rfl
          cases digit
        simpa [nameLength_cons, separator] using unnamed

end Terminal

section Operator

/-- The signs of an operator, in front of a text that begins with none. -/
structure IsOperator (w X : Text) : Prop where
  run : operatorRun (w ++ X) = w.length
  stop : X.head?.any isSign = false

namespace IsOperator

theorem continues {u v : Text} (h : IsOperator (u ++ c :: v) X) :
    continuesOperator c (v ++ X).head? = true := by
  have run := h.run
  rw [List.append_assoc, List.cons_append] at run
  refine operatorRun_continues (u := u) ?_
  rw [run, List.length_append, List.length_cons]
  omega

theorem isSign (h : IsOperator w X) : ∀ c ∈ w, isSign c = true := by
  intro c mem
  obtain ⟨u, v, rfl⟩ := List.append_of_mem mem
  exact isSign_of_continuesOperator h.continues

/-- Signs that stand where the operator does are its first ones. -/
theorem prefix_of_prefix (h : IsOperator w X) {word : Text} (signs : word.all PhpGate.isSign = true)
    (stands : word <+: w ++ X) : word <+: w := by
  obtain inside | ⟨v, rfl⟩ := List.prefix_or_prefix_of_prefix stands (List.prefix_append w X)
  · exact inside
  · cases v with
    | nil => simp
    | cons d v =>
        obtain ⟨r, split⟩ := stands
        rw [List.append_assoc] at split
        obtain rfl := List.append_cancel_left split
        have sign : PhpGate.isSign d = true := List.all_eq_true.mp signs d (by simp)
        have stop : PhpGate.isSign d = false := h.stop
        rw [sign] at stop
        cases stop

end IsOperator

end Operator

namespace Terminal

/-- The terminals that are tried before operators and begin with signs. -/
def operatorRivals : List Terminal :=
  [inlineHtml, openTag, heredoc, lineComment, blockComment, number, ellipsis, increment, colon]

theorem opensWith_sign (sign : isSign c = true) :
    ∀ k ∈ inOrder.takeWhile (· != operator), k ∉ operatorRivals → k.opensWith c = false := by
  exact of_isSign (p := fun d => ∀ k ∈ inOrder.takeWhile (· != operator), k ∉ operatorRivals →
    k.opensWith d = false) sign (by decide)

theorem prefix_of_heredocLength {t : Text} (found : heredocLength? t = some n) :
    "<<<".toList <+: t := by
  refine Decidable.byContradiction fun other => ?_
  have opening : heredocOpening? t = none :=
    heredocOpening_eq_none fun r split => other ⟨r, split.symm⟩
  rw [heredocLength?, opening] at found
  cases found

theorem prefix_of_fixedLength {word t : Text} (found : fixedLength? word t = some n) :
    word <+: t := by
  rw [fixedLength?, Option.ite_none_right_eq_some, List.isPrefixOf_iff_prefix] at found
  exact found.1

end Terminal

namespace IsOperator

section Rivals

variable (h : IsOperator w X)
include h

/-- A terminal that is a fixed text of signs matches an operator in front of every text alike. -/
theorem fixedLength_eq_none {word : Text} (signs : word.all PhpGate.isSign = true)
    (absent : fixedLength? word (w ++ Y) = none) : fixedLength? word (w ++ X) = none := by
  refine Option.eq_none_iff_forall_ne_some.mpr fun n found => ?_
  obtain ⟨v, rfl⟩ := h.prefix_of_prefix signs (Terminal.prefix_of_fixedLength found)
  simp [fixedLength?] at absent

theorem openTagLength_eq_none (absent : openTagLength? (w ++ Y) = none) (marked : w ≠ "<?".toList) :
    openTagLength? (w ++ X) = none := by
  refine Option.eq_none_iff_forall_ne_some.mpr fun n found => ?_
  obtain ⟨tag, r, split, -, rfl | ⟨begins, -⟩⟩ := isOpenTag_of_openTagLength found
  · obtain ⟨v, rfl⟩ := h.prefix_of_prefix (by decide) ⟨r, split.symm⟩
    cases absent
  · obtain ⟨p, h', q, s, rfl⟩ := beginsWith_openTag begins
    obtain ⟨v, rfl⟩ := h.prefix_of_prefix (by decide) (show "<?".toList <+: _ from ⟨_, split.symm⟩)
    cases v with
    | nil => exact marked rfl
    | cons e v =>
        obtain rfl : e = p := by
          have tails := congrArg (List.drop 2) split
          exact (List.cons.inj tails).1
        have letter : foldCase e = 'p' := head_of_beginsWith
          (show beginsWith ('p' :: "hp".toList) (e :: h' :: q :: s) = true from begins)
        exact of_isSign (p := fun d => foldCase d ≠ 'p') (h.isSign e (by simp)) (by decide) letter

theorem heredocLength_eq_none (marked : w ≠ "<<<".toList) : heredocLength? (w ++ X) = none := by
  refine Option.eq_none_iff_forall_ne_some.mpr fun n found => ?_
  obtain ⟨v, rfl⟩ := h.prefix_of_prefix (by decide) (Terminal.prefix_of_heredocLength found)
  cases v with
  | nil => exact marked rfl
  | cons d v =>
      have opening : heredocOpening? ("<<<".toList ++ d :: v ++ X) = none :=
        heredocOpening_of_sign (h.isSign d (by simp))
      rw [heredocLength?, opening] at found
      cases found

theorem numberLength_eq_none (digit : w = ['.'] → X.head?.any isDecimalDigit = false)
    (nonempty : w ≠ []) : numberLength? (w ++ X) = none := by
  have other (c : Char) (mem : c ∈ w) : isDecimalDigit c = false :=
    of_isSign (p := fun d => isDecimalDigit d = false) (h.isSign c mem) (by decide)
  obtain ⟨c, v, rfl⟩ := List.exists_cons_of_ne_nil nonempty
  have next (point : c = '.') : (v ++ X).head?.any isDecimalDigit = false := by
    cases v with
    | nil => exact digit (by rw [point])
    | cons e v => exact other e (by simp)
  rw [List.cons_append, numberLength_cons, other c (by simp)]
  split
  · rename_i point
    rw [next point]
    rfl
  · rfl

/-- Two colons stay two: the second one would have gone on with the operator. -/
theorem startsColon_eq_false (run : operatorRun (w ++ Y) = w.length) (nonempty : w ≠ [])
    (absent : startsColon (w ++ Y) = false) : startsColon (w ++ X) = false := by
  obtain ⟨c, v, rfl⟩ := List.exists_cons_of_ne_nil nonempty
  rw [List.cons_append, startsColon_cons, Bool.and_eq_false_iff, bne_eq_false_iff_eq] at absent ⊢
  refine absent.imp_right fun twice => ?_
  cases v with
  | nil =>
      obtain ⟨Y, rfl⟩ := List.head?_eq_some_iff.mp twice
      have long : operatorRun (':' :: Y) = operatorRun Y + 1 := if_pos rfl
      rw [List.cons_append, List.nil_append, operatorRun, long] at run
      split at run
      · cases run
      · cases run
  | cons e v => exact twice

end Rivals

end IsOperator

namespace Terminal

theorem increment_eq_none_iff {t : Text} : increment.length? before t = none ↔
    fixedLength? "++".toList t = none ∧ fixedLength? "--".toList t = none := by
  simp [length?, fixedLength?]

theorem colon_eq_none_iff {t : Text} : colon.length? before t = none ↔ startsColon t = false := by
  simp [length?]

theorem first_operator (first : first? before (w ++ Y) = some (operator, w.length))
    (stop : X.head?.any isSign = false) (digit : w = ['.'] → X.head?.any isDecimalDigit = false)
    (marked : w ≠ "<<<".toList ∧ w ≠ "<?".toList) :
    first? before' (w ++ X) = some (operator, w.length) := by
  obtain ⟨-, -, -, found, -⟩ := first_eq_some_iff.mp first
  simp only [length?, someLength, Option.ite_none_left_eq_some, Option.some.injEq] at found
  obtain ⟨pos, run⟩ := found
  have h : IsOperator w X :=
    ⟨by rw [operatorRun_append_of_stop stop, operatorRun_of_append (Nat.le_of_eq run.symm)], stop⟩
  have lost (k : Terminal) (earlier : k ∈ inOrder.takeWhile (· != operator)) :
      k.length? before (w ++ Y) = none := length_eq_none_of_first first earlier
  have taken : operator.length? before' (w ++ X) = some w.length := by
    rw [length?, someLength, h.run, if_neg (run ▸ pos)]
  cases w with
  | nil => exact absurd run pos
  | cons c v =>
      have goesOn : continuesOperator c (v ++ X).head? = true := h.continues (u := [])
      rw [List.cons_append] at taken ⊢
      refine first_of_rivals operatorRivals taken (opensWith_sign (h.isSign c (by simp))) ?_
      simp only [operatorRivals, List.forall_mem_cons]
      refine ⟨?_, ?_, ?_, ?_, ?_, ?_, ?_, ?_, ?_, List.forall_mem_nil _⟩
      · rw [inlineHtml_cons, if_neg]
        rintro ⟨rfl, close⟩
        rw [close] at goesOn
        cases goesOn
      · exact h.openTagLength_eq_none (lost openTag (by decide)) marked.2
      · exact h.heredocLength_eq_none marked.1
      · rw [length?, lineCommentLength_cons, if_neg, if_neg]
        · rintro ⟨rfl, -⟩
          cases goesOn
        · rintro ⟨rfl, slash⟩
          rw [slash] at goesOn
          cases goesOn
      · rw [length?, blockCommentLength_cons, if_neg]
        rintro ⟨rfl, star⟩
        rw [star] at goesOn
        cases goesOn
      · exact h.numberLength_eq_none digit (List.cons_ne_nil c v)
      · exact h.fixedLength_eq_none (by decide) (lost ellipsis (by decide))
      · have absent := increment_eq_none_iff.mp (lost increment (by decide))
        exact increment_eq_none_iff.mpr ⟨h.fixedLength_eq_none (by decide) absent.1,
          h.fixedLength_eq_none (by decide) absent.2⟩
      · have absent := colon_eq_none_iff.mp (lost colon (by decide))
        exact colon_eq_none_iff.mpr
          (h.startsColon_eq_false run (List.cons_ne_nil c v) absent)

end Terminal

end PhpGate
