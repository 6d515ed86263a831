import PhpGate.Proofs.Token.Break
import PhpGate.Proofs.Token.LineEnding

/-!
Strings, comments, heredocs and markup hold line breaks. Each of them ends at the same place of two
texts that differ in their line endings only, and so every terminal takes the same lines of both.
-/

namespace PhpGate

open Text

variable {a b label : Text} {n m : Nat}

section Quoted

/-- A backslash that takes a line feed along takes the carriage return of a pair along. -/
theorem sameMatch_escape {f : Text → Option Nat} (h : SameLines a b)
    (later : ∀ a' b', a'.length < a.length → SameLines a' b' → SameMatch a' b' (f a') (f b'))
    (feed : ∀ t, f ('\n' :: t) = (f t).map (· + 1)) :
    SameMatch ('\\' :: a) ('\\' :: b) (if a.isEmpty then none else (f a.tail).map (· + 2))
      (if b.isEmpty then none else (f b.tail).map (· + 2)) := by
  have backslash : '\\' ≠ '\r' := by decide
  cases h with
  | nil => exact .none
  | @char c a b visible rest =>
      have taken := ((later a b (Nat.lt_succ_self _) rest).char visible).char backslash
      rwa [Option.map_map, Option.map_map] at taken
  | @pair a b rest =>
      have taken := (later a b (Nat.lt_succ_self _) rest).pair.char backslash
      simp only [Option.map_map, List.isEmpty_cons, List.tail_cons, feed] at taken ⊢
      exact taken

theorem quotedLength_same (h : SameLines a b) {quote : Char} (plain : quote ≠ '\\')
    (visible : quote ≠ '\n' ∧ quote ≠ '\r') :
    SameMatch a b (quotedLength? quote a) (quotedLength? quote b) := by
  have feed (t : Text) : quotedLength? quote ('\n' :: t) = (quotedLength? quote t).map (· + 1) := by
    rw [quotedLength_cons plain, if_neg (by decide), if_neg visible.1.symm]
  have ret (t : Text) : quotedLength? quote ('\r' :: t) = (quotedLength? quote t).map (· + 1) := by
    rw [quotedLength_cons plain, if_neg (by decide), if_neg visible.2.symm]
  induction hn : a.length using Nat.strongRecOn generalizing a b with
  | ind n ih =>
      subst hn
      cases h with
      | nil => exact .none
      | @char c r r' visible' rest =>
          rw [quotedLength_cons plain, quotedLength_cons plain]
          by_cases escape : c = '\\'
          · rw [if_pos escape, if_pos escape, escape]
            refine sameMatch_escape rest (fun s s' shorter rest => ?_) feed
            exact ih s.length (Nat.lt_trans shorter (Nat.lt_succ_self _)) rest rfl
          · rw [if_neg escape, if_neg escape]
            split
            · exact .some ((SameCut.zero rest).char visible')
            · exact (ih r.length (Nat.lt_succ_self _) rest rfl).char visible'
      | @pair r r' rest =>
          rw [feed, ret, feed]
          exact (ih r.length (Nat.lt_succ_self _) rest rfl).pair

theorem interpolatedLength_same (h : SameLines a b) (state : Interpolation) :
    SameMatch a b (interpolatedLength? state a) (interpolatedLength? state b) := by
  have feed (state : Interpolation) (t : Text) : interpolatedLength? state ('\n' :: t)
      = (interpolatedLength? state t).map (· + 1) := by
    cases state
    · simp [interpolatedLength_outside_cons]
    · simp [interpolatedLength_inside_cons]
  have ret (state : Interpolation) (t : Text) : interpolatedLength? state ('\r' :: t)
      = (interpolatedLength? state t).map (· + 1) := by
    cases state
    · simp [interpolatedLength_outside_cons]
    · simp [interpolatedLength_inside_cons]
  induction hn : a.length using Nat.strongRecOn generalizing a b state with
  | ind n ih =>
      subst hn
      cases h with
      | nil => cases state <;> exact .none
      | @char c r r' visible rest =>
          have later (state : Interpolation) := ih r.length (Nat.lt_succ_self _) rest state rfl
          cases state with
          | inside =>
              rw [interpolatedLength_inside_cons, interpolatedLength_inside_cons]
              exact (later _).char visible
          | outside =>
              rw [interpolatedLength_outside_cons, interpolatedLength_outside_cons]
              by_cases escape : c = '\\'
              · rw [if_pos escape, if_pos escape, escape]
                refine sameMatch_escape rest (fun s s' shorter rest => ?_) (feed _)
                exact ih s.length (Nat.lt_trans shorter (Nat.lt_succ_self _)) rest _ rfl
              · have opens := rest.head_eq_iff (c := '$') (by decide)
                simp only [if_neg escape, opens]
                split
                · next begins =>
                    cases rest with
                    | nil => cases begins.2
                    | @char d s s' visible' rest =>
                        have inside := ih s.length
                          (Nat.lt_trans (Nat.lt_succ_self _) (Nat.lt_succ_self _)) rest .inside rfl
                        have taken := (inside.char visible').char visible
                        rwa [Option.map_map, Option.map_map] at taken
                    | pair => cases begins.2
                · split
                  · exact .some ((SameCut.zero rest).char visible)
                  · exact (later _).char visible
      | @pair r r' rest =>
          rw [feed, ret, feed]
          exact (ih r.length (Nat.lt_succ_self _) rest _ rfl).pair

/-- A string whose inside ends at the same place of both texts. -/
theorem quoted_same {k : Terminal} {quote : Char} {inside : Text → Option Nat} {before : Text}
    (nothing : k.length? before [] = none) (visible : quote ≠ '\n' ∧ quote ≠ '\r')
    (start : ∀ c r, k.length? before (c :: r) = if c = quote then (inside r).map (· + 1) else none)
    (ends : ∀ {a b}, SameLines a b → SameMatch a b (inside a) (inside b)) (h : SameLines a b) :
    SameMatch a b (k.length? before a) (k.length? before b) := by
  cases h with
  | nil =>
      rw [nothing]
      exact .none
  | char visible' rest =>
      rw [start, start]
      split
      · exact (ends rest).char visible'
      · exact .none
  | pair =>
      rw [start, start, if_neg visible.1.symm, if_neg visible.2.symm]
      exact .none

end Quoted

section Comments

theorem lineCommentTail_same (h : SameLines a b) :
    SameCut a b (lineCommentTail a) (lineCommentTail b) := by
  induction h with
  | nil => exact .zero .nil
  | @char c _ _ visible rest ih =>
      have closes := rest.head_eq_iff (c := '>') (by decide)
      simp only [lineCommentTail_cons, closes]
      split
      · exact .zero (rest.char visible)
      · exact ih.char visible
  | pair rest => exact .zero rest.pair

theorem blockCommentTail_same (h : SameLines a b) :
    SameMatch a b (blockCommentTail? a) (blockCommentTail? b) := by
  induction h with
  | nil => exact .none
  | @char c r r' visible rest ih =>
      have closes := rest.head_eq_iff (c := '/') (by decide)
      simp only [blockCommentTail_cons, closes]
      split
      · next ends =>
          cases rest with
          | nil => cases ends.2
          | char visible' rest => exact .some (((SameCut.zero rest).char visible').char visible)
          | pair => cases ends.2
      · exact ih.char visible
  | pair rest ih =>
      rw [blockCommentTail_cons, blockCommentTail_cons, blockCommentTail_cons, if_neg (by simp),
        if_neg (by simp), if_neg (by simp)]
      exact ih.pair

theorem lineCommentLength_same (h : SameLines a b) :
    SameMatch a b (lineCommentLength? a) (lineCommentLength? b) := by
  cases h with
  | nil => exact .none
  | @char c r r' visible rest =>
      have slash := rest.head_eq_iff (c := '/') (by decide)
      have bracket := rest.head_eq_iff (c := '[') (by decide)
      simp only [lineCommentLength_cons, slash, ne_eq, bracket]
      split
      · next opens =>
          cases rest with
          | nil => cases opens.2
          | char visible' rest =>
              exact .some (((lineCommentTail_same rest).char visible').char visible)
          | pair => cases opens.2
      · split
        · exact .some ((lineCommentTail_same rest).char visible)
        · exact .none
  | pair => exact .none

theorem blockCommentLength_same (h : SameLines a b) :
    SameMatch a b (blockCommentLength? a) (blockCommentLength? b) := by
  cases h with
  | nil => exact .none
  | @char c r r' visible rest =>
      have star := rest.head_eq_iff (c := '*') (by decide)
      simp only [blockCommentLength_cons, star]
      split
      · next opens =>
          cases rest with
          | nil => cases opens.2
          | char visible' rest =>
              have taken := ((blockCommentTail_same rest).char visible').char visible
              rwa [Option.map_map, Option.map_map] at taken
          | pair => cases opens.2
      · exact .none
  | pair => exact .none

end Comments

section Markup

theorem openTagLength_eq (t : Text) :
    openTagLength? t = if "<?=".toList.isPrefixOf t then some 3
      else if beginsWith "<?php".toList t then some 5 else none := by
  have sign {c d : Char} (plain : d.isLower = false) (fixed : foldCase d = d) :
      (foldCase c == d) = (d == c) := by
    rw [Bool.eq_iff_iff, beq_iff_eq, beq_iff_eq]
    exact ⟨fun h => (foldCase_eq h plain).symm, fun h => h ▸ fixed⟩
  have echo : "<?=".toList = ['<', '?', '='] := rfl
  have long : "<?php".toList = '<' :: '?' :: "php".toList := rfl
  rw [echo, long]
  match t with
  | [] => rfl
  | [c] => simp [openTagLength_cons, beginsWith]
  | c :: d :: r =>
      rw [openTagLength_cons, List.head?_cons, List.tail_cons, beginsWith, beginsWith,
        sign rfl rfl, sign rfl rfl, List.isPrefixOf_cons_cons, List.isPrefixOf_cons_cons,
        ← Bool.and_assoc, ← Bool.and_assoc]
      by_cases opens : c = '<' ∧ some d = some '?'
      · obtain ⟨rfl, mark⟩ := opens
        cases mark
        cases r with
        | nil => rfl
        | cons e r => simp [@eq_comm _ e '=']
      · have other : ('<' == c && '?' == d) = false := by
          rw [Bool.and_eq_false_iff, beq_eq_false_iff_ne, beq_eq_false_iff_ne]
          rw [Option.some.injEq, Decidable.not_and_iff_or_not] at opens
          exact opens.imp Ne.symm Ne.symm
        rw [if_neg opens, other]
        rfl

theorem openTagLength_same (h : SameLines a b) :
    SameMatch a b (openTagLength? a) (openTagLength? b) := by
  have echo : Unbroken "<?=".toList := by decide
  have long : Unbroken "<?php".toList := by decide
  rw [openTagLength_eq, openTagLength_eq, ← isPrefixOf_same h echo, ← beginsWith_same h long]
  split
  · next begins => exact .some (isPrefixOf_cut h echo begins)
  · split
    · next begins => exact .some (beginsWith_cut h long begins)
    · exact .none

theorem markupLength_same (h : SameLines a b) : SameCut a b (markupLength a) (markupLength b) := by
  induction h with
  | nil => exact .zero .nil
  | @char c r r' visible rest ih =>
      have tag := openTagLength_same (rest.char visible)
      rw [markupLength, markupLength]
      generalize openTagLength? (c :: r) = o, openTagLength? (c :: r') = o' at tag
      cases tag with
      | none => exact ih.char visible
      | some cut => exact cut
  | pair rest ih => exact ih.pair

theorem inlineHtml_same (h : SameLines a b) (before : Text) :
    SameMatch a b (Terminal.length? before a .inlineHtml)
      (Terminal.length? before b .inlineHtml) := by
  cases h with
  | nil => exact .none
  | @char c r r' visible rest =>
      have closes := rest.head_eq_iff (c := '>') (by decide)
      simp only [Terminal.inlineHtml_cons, closes]
      split
      · next ends =>
          cases rest with
          | nil => cases ends.2
          | char visible' rest =>
              exact .some (((markupLength_same rest).char visible').char visible)
          | pair => cases ends.2
      · exact .none
  | pair => exact .none

end Markup

section Heredoc

theorem lineBreakLength_same (h : SameLines a b) :
    SameMatch a b (lineBreakLength? a) (lineBreakLength? b) := by
  cases h with
  | nil => exact .none
  | @char c r r' visible rest =>
      simp only [lineBreakLength_cons, visible, false_and, if_false]
      split
      · exact .some ((SameCut.zero rest).char visible)
      · exact .none
  | pair rest => exact .some (SameCut.zero rest).pair

theorem heredocQuote_same (h : SameLines a b) : heredocQuote a = heredocQuote b := by
  cases h with
  | nil => rfl
  | char => rfl
  | pair => rfl

theorem heredocQuote_cut (h : SameLines a b) :
    SameCut a b (heredocQuote a).length (heredocQuote a).length := by
  cases h with
  | nil => exact .zero .nil
  | @char c r r' visible rest =>
      rw [heredocQuote, List.head?_cons, Option.toList_some, List.filter_cons]
      split
      · exact (SameCut.zero rest).char visible
      · exact .zero (rest.char visible)
  | pair rest => exact .zero rest.pair

theorem heredocQuote_unbroken (t : Text) : Unbroken (heredocQuote t) := by
  obtain none | double | single := heredocQuote_eq t
  · rw [none]; rfl
  · rw [double]; rfl
  · rw [single]; rfl

/-- From the label on, the opening lines hold the same label and end at the same place. -/
theorem heredocLabel_same {body body' quote : Text} {indent : Nat} (h : SameLines body body')
    (unbroken : Unbroken quote) (within : ∀ n m, SameCut body body' n m →
      SameCut a b (3 + indent + quote.length + n) (3 + indent + quote.length + m)) :
    Option.Rel (fun p q => p.1 = q.1 ∧ Unbroken p.1 ∧ SameCut a b p.2 q.2)
      (heredocLabel? indent quote body) (heredocLabel? indent quote body') := by
  have named := identifierLength_same h
  rw [heredocLabel?, heredocLabel?]
  cases found : identifierLength? body with
  | none =>
      rw [found] at named
      rw [eq_none_of_rel named]
      exact .none
  | some n =>
      rw [found] at named
      obtain ⟨m, cut, found'⟩ := exists_of_rel_some named
      have unfed := (identifierLength_start found).2 _ isBreak_line
      have label := cut.front.eq_of_unbroken unfed
      have plain : Unbroken (body.take n) := unbroken_iff.mpr ⟨unfed, cut.front.unpaired⟩
      simp only [found', Option.bind_some, ← isPrefixOf_same cut.back unbroken, ← label]
      split
      · next closes =>
          have quoted := cut.add (isPrefixOf_cut cut.back unbroken closes)
          have line := lineBreakLength_same quoted.back
          rw [List.drop_drop, List.drop_drop]
          generalize lineBreakLength? (body.drop (n + quote.length)) = p,
            lineBreakLength? (body'.drop (m + quote.length)) = q at line ⊢
          cases line with
          | none => exact .none
          | some ends =>
              have whole := within _ _ (quoted.add ends)
              exact .some ⟨rfl, plain, by simpa only [Nat.add_assoc] using whole⟩
      · exact .none

theorem heredocOpening_same (h : SameLines a b) :
    Option.Rel (fun p q => p.1 = q.1 ∧ Unbroken p.1 ∧ SameCut a b p.2 q.2)
      (heredocOpening? a) (heredocOpening? b) := by
  by_cases opens : ∃ r, a = '<' :: '<' :: '<' :: r
  · obtain ⟨r, rfl⟩ := opens
    obtain ⟨r', rfl, rest⟩ : ∃ r', b = '<' :: '<' :: '<' :: r' ∧ SameLines r r' := by
      obtain - | ⟨-, - | ⟨-, - | ⟨-, rest⟩⟩⟩ := h
      exact ⟨_, rfl, rest⟩
    have signs : SameCut ('<' :: '<' :: '<' :: r) ('<' :: '<' :: '<' :: r') 3 3 :=
      isPrefixOf_cut h (show Unbroken "<<<".toList by decide) rfl
    have indent := SameCut.takeWhile rest (p := isTabOrSpace) rfl
    rw [heredocOpening_eq, heredocOpening_eq]
    rw [← rest.takeWhile_eq (p := isTabOrSpace) ⟨rfl, rfl⟩] at indent ⊢
    rw [← heredocQuote_same indent.back]
    have label := indent.add (heredocQuote_cut indent.back)
    refine heredocLabel_same label.back (heredocQuote_unbroken _) fun n m cut => ?_
    simpa only [Nat.add_assoc] using signs.add (label.add cut)
  · have still (r' : Text) : b ≠ '<' :: '<' :: '<' :: r' := by
      rintro rfl
      obtain - | ⟨-, - | ⟨-, - | ⟨-, rest⟩⟩⟩ := h
      exact opens ⟨_, rfl⟩
    rw [heredocOpening_eq_none fun r e => opens ⟨r, e⟩, heredocOpening_eq_none still]
    exact .none

theorem heredocClosing_same (h : SameLines a b) (unbroken : Unbroken label) :
    SameMatch a b (heredocClosing? label a) (heredocClosing? label b) := by
  have indent := SameCut.takeWhile h (p := isTabOrSpace) rfl
  simp only [heredocClosing?]
  rw [← h.takeWhile_eq (p := isTabOrSpace) ⟨rfl, rfl⟩] at indent ⊢
  rw [← isPrefixOf_same indent.back unbroken]
  cases stands : label.isPrefixOf (a.drop (a.takeWhile isTabOrSpace).length) with
  | false => exact .none
  | true =>
      have cut := indent.add (isPrefixOf_cut indent.back unbroken stands)
      have boundary := cut.back.any_head_eq (p := isWord) rfl
      rw [isBoundary, isBoundary, boundary]
      split
      · exact .some cut
      · exact .none

/-- A closing label stands on its line, not in front of a line break. -/
theorem heredocClosing_break {c : Char} (start : label.head?.any isIdentifierStart = true)
    (ends : c = '\n' ∨ c = '\r') (r : Text) : heredocClosing? label (c :: r) = none := by
  cases label with
  | nil => cases start
  | cons d label =>
      have other : d ≠ c := by
        rintro rfl
        obtain rfl | rfl := ends <;> cases start
      have indent : isTabOrSpace c = false := by
        obtain rfl | rfl := ends <;> rfl
      simp [heredocClosing?, indent, List.isPrefixOf_cons_cons, other]

theorem heredocBody_same (h : SameLines a b) (unbroken : Unbroken label)
    (start : label.head?.any isIdentifierStart = true) (lineStart : Bool) :
    SameMatch a b (heredocBody? label lineStart a) (heredocBody? label lineStart b) := by
  have onBreak (lineStart : Bool) {c : Char} (ends : c = '\n' ∨ c = '\r') (r : Text) :
      heredocBody? label lineStart (c :: r)
        = (heredocBody? label (c == '\n') r).map (· + 1) := by
    rw [heredocBody?, heredocClosing_break start ends, ite_self]
  induction h generalizing lineStart with
  | nil => exact .none
  | @char c r r' visible rest ih =>
      have closing : SameMatch (c :: r) (c :: r')
          (if lineStart then heredocClosing? label (c :: r) else none)
          (if lineStart then heredocClosing? label (c :: r') else none) := by
        split
        · exact heredocClosing_same (rest.char visible) unbroken
        · exact .none
      rw [heredocBody?, heredocBody?]
      generalize (if lineStart = true then heredocClosing? label (c :: r) else none) = o,
        (if lineStart = true then heredocClosing? label (c :: r') else none) = o' at closing
      cases closing with
      | none => exact (ih _).char visible
      | some cut => exact .some cut
  | pair rest ih =>
      rw [onBreak _ (.inl rfl), onBreak _ (.inr rfl), onBreak _ (.inl rfl)]
      exact (ih true).pair

theorem heredocLength_same (h : SameLines a b) :
    SameMatch a b (heredocLength? a) (heredocLength? b) := by
  have opening := heredocOpening_same h
  rw [heredocLength?, heredocLength?]
  cases found : heredocOpening? a with
  | none =>
      rw [found] at opening
      rw [eq_none_of_rel opening]
      exact .none
  | some p =>
      obtain ⟨label, n⟩ := p
      rw [found] at opening
      obtain ⟨⟨label', m⟩, ⟨same, unbroken, cut⟩, found'⟩ := exists_of_rel_some opening
      obtain rfl : label = label' := same
      have start := (heredocOpening_start found).1
      rw [found', Option.bind_some, Option.bind_some]
      exact .after cut (heredocBody_same cut.back unbroken start true)

end Heredoc

section Terminals

/-- Every terminal matches neither text, or both up to the same place. -/
theorem Terminal.length_same (h : SameLines a b) (before : Text) (k : Terminal) :
    SameMatch a b (k.length? before a) (k.length? before b) := by
  cases k with
  | inlineHtml => exact inlineHtml_same h before
  | openTag => exact openTagLength_same h
  | heredoc => exact heredocLength_same h
  | anonymousClass => exact anonymousClassLength_same before h
  | lineComment => exact lineCommentLength_same h
  | blockComment => exact blockCommentLength_same h
  | doubleQuoted =>
      exact quoted_same rfl (by decide) (doubleQuoted_cons before)
        (interpolatedLength_same · .outside) h
  | backtick =>
      exact quoted_same rfl (by decide) (backtick_cons before)
        (quotedLength_same · (by decide) (by decide)) h
  | singleQuoted =>
      exact quoted_same rfl (by decide) (singleQuoted_cons before)
        (quotedLength_same · (by decide) (by decide)) h
  | keywordOperator => exact keywordOperatorLength_same before h
  | classKeyword => exact classKeywordLength_same before h
  | matchKeyword => exact matchKeywordLength_same before h
  | name => exact nameLength_same h
  | number => exact numberLength_same h
  | variableName => exact variableLength_same h
  | increment => exact increment_same h before
  | colon => exact colon_same h before
  | operator => exact someLength_same (operatorRun_same h) (operatorRun_le a) (operatorRun_le b)
  | blank =>
      exact someLength_same (blankLength_same h) (length_takeWhile_le _ a) (length_takeWhile_le _ b)
  | expressionBrace =>
      simp only [length?]
      split
      · exact fixedLength_same h (by decide)
      · exact .none
  | ellipsis | attributeBracket | comma | openBrace | openParen | openBracket | closeBrace
  | closeParen | closeBracket | semicolon => exact fixedLength_same h (by decide)

end Terminals
end PhpGate
