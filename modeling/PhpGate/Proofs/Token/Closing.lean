import PhpGate.Proofs.Token.Context
import PhpGate.Proofs.Token.Tail
import PhpGate.SelfCheck

/-!
Runs of the lexer over a text with a closing line behind it. The lexemes of the text stay as they
are, except that white space at its end takes the line feed along, and that markup which no open tag
ends goes on until the open tag of the closing line.
-/

namespace PhpGate

open Text Source

variable {X t : Text}

/-- Whether the markup at the start of a text comes to an open tag. -/
def markupOpens : Text → Bool
  | [] => false
  | c :: r => (openTagLength? (c :: r)).isSome || markupOpens r

theorem markupLength_of_not_opens (h : markupOpens t = false) : markupLength t = t.length := by
  induction t with
  | nil => rfl
  | cons c r ih =>
      simp only [markupOpens, Bool.or_eq_false_iff, Option.isSome_eq_false_iff,
        Option.isNone_iff_eq_none] at h
      simp [markupLength, h.1, ih h.2]

theorem markupLength_append_line_of_opens (h : markupOpens t = true) :
    markupLength (t ++ '\n' :: X) = markupLength t := by
  induction t with
  | nil => cases h
  | cons c r ih =>
      have tag : openTagLength? (c :: (r ++ '\n' :: X)) = openTagLength? (c :: r) :=
        isBreak_line.openTagLength_append (t := c :: r)
      simp only [List.cons_append, markupLength, tag]
      cases found : openTagLength? (c :: r) with
      | some n => rfl
      | none =>
          simp only [markupOpens, found, Option.isSome_none, Bool.false_or] at h
          simp only [ih h]

theorem markupLength_append_line_of_not_opens (h : markupOpens t = false) :
    markupLength (t ++ '\n' :: X) = t.length + 1 + markupLength X := by
  induction t with
  | nil =>
      simp only [List.nil_append, markupLength, openTagLength_cons, List.length_nil]
      simp
      omega
  | cons c r ih =>
      have tag : openTagLength? (c :: (r ++ '\n' :: X)) = openTagLength? (c :: r) :=
        isBreak_line.openTagLength_append (t := c :: r)
      simp only [markupOpens, Bool.or_eq_false_iff, Option.isSome_eq_false_iff,
        Option.isNone_iff_eq_none] at h
      simp only [List.cons_append, markupLength, tag, h.1, ih h.2, List.length_cons]
      omega

theorem markupOpens_of_suffix {u : Text} (h : (openTagLength? t).isSome = true) :
    markupOpens (u ++ t) = true := by
  induction u with
  | nil =>
      cases t with
      | nil => cases h
      | cons c r => simp only [List.nil_append, markupOpens, h, Bool.true_or]
  | cons c u ih => simp only [List.cons_append, markupOpens, ih, Bool.or_true]

/-- The open tags, of which the long one may be written in either case. -/
def IsOpenTag (tag : Text) : Prop :=
  tag = "<?=".toList ∨ beginsWith "<?php".toList tag = true ∧ tag.length = 5

theorem IsOpenTag.exists_cons {tag : Text} (h : IsOpenTag tag) : ∃ r, tag = '<' :: r := by
  obtain rfl | ⟨begins, -⟩ := h
  · exact ⟨_, rfl⟩
  · obtain ⟨p, h, q, rest, rfl⟩ := beginsWith_openTag begins
    exact ⟨_, rfl⟩

theorem openTagLength_of_isOpenTag {tag : Text} (h : IsOpenTag tag) (v : Text) :
    openTagLength? (tag ++ v) = some tag.length := by
  obtain rfl | ⟨begins, length⟩ := h
  · rfl
  · obtain ⟨p, h, q, rest, rfl⟩ := beginsWith_openTag begins
    obtain rfl : rest = [] := by simpa using length
    have word : beginsWith "php".toList [p, h, q] = true := begins
    have more : beginsWith "php".toList (p :: h :: q :: v) = true := by
      rw [← word]
      exact beginsWith_append (u := [p, h, q]) (Nat.le_refl 3)
    have letter : p ≠ '=' := by
      rintro rfl
      exact absurd begins (by rw [Bool.not_eq_true]; rfl)
    simp only [List.cons_append, List.nil_append, openTagLength_cons, List.head?_cons,
      List.tail_cons, Option.some.injEq, and_self, if_true, letter, if_false, more, List.length_cons,
      List.length_nil]

theorem isOpenTag_of_openTagLength {n : Nat} (h : openTagLength? t = some n) :
    ∃ tag v, t = tag ++ v ∧ tag.length = n ∧ IsOpenTag tag := by
  fun_cases openTagLength? t with
  | case1 r =>
      cases h
      exact ⟨"<?=".toList, r, rfl, rfl, .inl rfl⟩
  | case2 r shape begins =>
      rw [openTagLength?.eq_2 _ shape, if_pos begins] at h
      cases h
      have long : 3 ≤ r.length := length_le_of_beginsWith begins
      have word : beginsWith "php".toList (r.take 3) = true := by
        rw [beginsWith_take (by decide), begins]
      exact ⟨'<' :: '?' :: r.take 3, r.drop 3, by simp, by simp [long], .inr ⟨word, by simp [long]⟩⟩
  | case3 r shape begins =>
      rw [openTagLength?.eq_2 _ shape, if_neg begins] at h
      cases h
  | case4 => simp_all [openTagLength?]

/-- Markup that comes to an open tag ends with it. -/
theorem markup_of_opens (h : markupOpens t = true) :
    ∃ u tag v, t = u ++ (tag ++ v) ∧ markupLength t = (u ++ tag).length ∧ IsOpenTag tag := by
  induction t with
  | nil => cases h
  | cons c r ih =>
      cases found : openTagLength? (c :: r) with
      | some n =>
          obtain ⟨tag, v, split, rfl, kind⟩ := isOpenTag_of_openTagLength found
          exact ⟨[], tag, v, split, by simp [markupLength, found], kind⟩
      | none =>
          simp only [markupOpens, found, Option.isSome_none, Bool.false_or] at h
          obtain ⟨u, tag, v, rfl, length, kind⟩ := ih h
          exact ⟨c :: u, tag, v, rfl, by simp [markupLength, found, length], kind⟩

theorem endsInOpenTag_of_isOpenTag {u tag : Text} (h : IsOpenTag tag) :
    endsInOpenTag (u ++ tag) = true := by
  rw [endsInOpenTag, Bool.or_eq_true]
  obtain rfl | ⟨begins, length⟩ := h
  · right
    rw [endsWith, List.isSuffixOf_iff_suffix]
    exact List.suffix_append _ _
  · left
    rw [List.length_append, length, Nat.add_sub_cancel, List.drop_left, begins]

theorem isOpenTag_of_endsInOpenTag (h : endsInOpenTag t = true) :
    ∃ u tag, t = u ++ tag ∧ IsOpenTag tag := by
  rw [endsInOpenTag, Bool.or_eq_true, endsWith, List.isSuffixOf_iff_suffix] at h
  obtain long | ⟨u, rfl⟩ := h
  · refine ⟨t.take (t.length - 5), t.drop (t.length - 5), (List.take_append_drop ..).symm,
      .inr ⟨long, ?_⟩⟩
    have : 5 ≤ (t.drop (t.length - 5)).length := length_le_of_beginsWith long
    simp only [List.length_drop] at *
    omega
  · exact ⟨u, _, rfl, .inl rfl⟩

/-- Markup behind a closing tag ends in an open tag just when it comes to one. -/
theorem endsInOpenTag_markup (t : Text) :
    endsInOpenTag ('?' :: '>' :: t.take (markupLength t)) = markupOpens t := by
  cases opens : markupOpens t with
  | true =>
      obtain ⟨u, tag, v, rfl, length, kind⟩ := markup_of_opens opens
      rw [length, ← List.append_assoc, List.take_left]
      exact endsInOpenTag_of_isOpenTag (u := '?' :: '>' :: u) kind
  | false =>
      rw [markupLength_of_not_opens opens, List.take_length, ← Bool.not_eq_true]
      intro ends
      obtain ⟨u, tag, split, kind⟩ := isOpenTag_of_endsInOpenTag ends
      have here := openTagLength_of_isOpenTag kind []
      rw [List.append_nil] at here
      match u with
      | [] | [_] =>
          cases split
          simp [openTagLength?] at here
      | _ :: _ :: u =>
          obtain ⟨rfl, rfl, rfl⟩ : _ ∧ _ ∧ t = u ++ tag := by simpa using split
          rw [markupOpens_of_suffix (by rw [here]; rfl)] at opens
          cases opens

theorem blankLength_eq_length_iff : blankLength t = t.length ↔ t.all isBlank = true := by
  constructor
  · intro h
    have whole : t.takeWhile isBlank = t := (List.takeWhile_prefix isBlank).eq_of_length h
    rw [← whole]
    exact List.all_takeWhile
  · intro h
    rw [blankLength, takeWhile_eq_self_of_all h]

namespace Inert

variable {before : Text} {k : Terminal} {n : Nat}

/-- A terminal that leaves some of the text takes the same when a line is appended. -/
theorem first_append_line_of_lt (h : Inert X) (first : Terminal.first? before t = some (k, n))
    (lt : n < t.length) : Terminal.first? before (t ++ '\n' :: X) = some (k, n) := by
  obtain ⟨-, -, -, found, -⟩ := Terminal.first_eq_some_iff.mp first
  refine h.first_append_line first ?_
  by_cases markup : k = .inlineHtml
  · subst markup
    obtain ⟨r, rfl, rfl⟩ := Terminal.inlineHtml_eq_some_iff.mp found
    refine Terminal.inlineHtml_eq_some_iff.mpr ⟨r ++ '\n' :: X, rfl, ?_⟩
    cases opens : markupOpens r with
    | true => rw [markupLength_append_line_of_opens opens]
    | false =>
        rw [markupLength_of_not_opens opens] at lt
        exact absurd lt (Nat.lt_irrefl _)
  · by_cases space : k = .blank
    · subst space
      obtain ⟨rfl, pos⟩ := Terminal.blank_eq_some_iff.mp found
      refine Terminal.blank_eq_some_iff.mpr ⟨?_, pos⟩
      rw [blankLength_append_line h.head_blank, if_neg]
      rw [← blankLength_eq_length_iff]
      exact Nat.ne_of_lt lt
    · rw [h.length_append_line before markup space, found]

end Inert

namespace Lexes

variable {before rest : Text} {ls : List Lexeme} {l : Lexeme}

/-- Where lexing stops it still stops with a line behind. -/
theorem append_line_of_rest (run : Lexes before t ls rest) (h : Inert X) (stopped : rest ≠ []) :
    Lexes before (t ++ '\n' :: X) ls (rest ++ '\n' :: X) := by
  induction run with
  | stop stuck =>
      refine .stop (Terminal.first_eq_none_iff.mpr fun k => ?_)
      exact h.length_append_line_eq_none _ stopped k (Terminal.first_eq_none_iff.mp stuck k)
  | @take before w r rest k ls first later ih =>
      have nonempty : 0 < r.length := by
        rw [later.eq_append, List.length_append]
        exact Nat.add_pos_right _ (List.length_pos_iff.mpr stopped)
      have same := h.first_append_line_of_lt first (by simp; omega)
      rw [List.append_assoc] at same ⊢
      exact .take same (ih stopped)

/-- All lexemes but the last are taken as before. -/
theorem append_line_of_last (run : Lexes before t (ls ++ [l]) []) (h : Inert X) :
    ∃ u, t = u ++ l.text ∧
      Terminal.first? (u.reverse ++ before) l.text = some (l.terminal, l.text.length) ∧
      ∀ ls' rest', Lexes (u.reverse ++ before) (l.text ++ '\n' :: X) ls' rest' →
        Lexes before (t ++ '\n' :: X) (ls ++ ls') rest' := by
  induction ls generalizing before t with
  | nil =>
      cases run with
      | take first later =>
          cases later with
          | stop stuck =>
              refine ⟨[], by simp, by simpa using first, fun ls' rest' run => ?_⟩
              simpa using run
  | cons l' ls ih =>
      cases run with
      | @take _ w r _ k _ first later =>
          have nonempty := later.length_pos (by simp)
          obtain ⟨u, rfl, last, further⟩ := ih later
          refine ⟨w ++ u, by simp, by simpa using last, fun ls' rest' run => ?_⟩
          have same := h.first_append_line_of_lt first (by simp at nonempty ⊢; omega)
          rw [List.append_assoc] at same ⊢
          exact .take same (further ls' rest' (by simpa using run))

end Lexes

/-- The lexemes of a text when a line feed and no white space is appended. -/
def endLine (ls : List Lexeme) : List Lexeme :=
  match ls.getLast? with
  | some ⟨.blank, w⟩ => ls.dropLast ++ [⟨.blank, w ++ ['\n']⟩]
  | _ => ls ++ [⟨.blank, ['\n']⟩]

theorem endLine_blank (ls : List Lexeme) (w : Text) :
    endLine (ls ++ [⟨.blank, w⟩]) = ls ++ [⟨.blank, w ++ ['\n']⟩] := by
  simp [endLine]

theorem endLine_of_ne {ls : List Lexeme} (h : ∀ l, ls.getLast? = some l → l.terminal ≠ .blank) :
    endLine ls = ls ++ [⟨.blank, ['\n']⟩] := by
  rw [endLine]
  split
  · rename_i w last
    exact absurd rfl (h _ last)
  · rfl

theorem significant_endLine (ls : List Lexeme) : significant (endLine ls) = significant ls := by
  obtain rfl | ⟨init, ⟨k, w⟩, rfl⟩ := List.eq_nil_or_concat ls
  · rfl
  · by_cases space : k = .blank
    · subst space
      rw [List.concat_eq_append, endLine_blank, significant_append, significant_append]
      rfl
    · rw [endLine_of_ne (by simpa using space), significant_append]
      exact List.append_nil _

/-- Markup that is not followed by PHP. -/
def Lexeme.isOpenMarkup (l : Lexeme) : Bool :=
  l.terminal == .inlineHtml && !endsInOpenTag l.text

theorem Lexeme.terminal_of_isOpenMarkup {l : Lexeme} (h : l.isOpenMarkup = true) :
    l.terminal = .inlineHtml := by
  rw [isOpenMarkup, Bool.and_eq_true, beq_iff_eq] at h
  exact h.1

theorem isOpenMarkup_eq_not_opens {r : Text}
    (whole : markupLength r + 2 = ('?' :: '>' :: r).length) :
    (Lexeme.mk .inlineHtml ('?' :: '>' :: r)).isOpenMarkup = !markupOpens r := by
  have rest : r.take (markupLength r) = r := List.take_of_length_le (by simp at whole; omega)
  have ends := endsInOpenTag_markup r
  rw [rest] at ends
  simp [Lexeme.isOpenMarkup, ends]

/-- What ends a text, white space and markup without an end apart, is taken as before. -/
theorem Inert.first_append_line_of_closed {before w : Text} {k : Terminal} (h : Inert X)
    (first : Terminal.first? before w = some (k, w.length)) (space : k ≠ .blank)
    (closed : (Lexeme.mk k w).isOpenMarkup = false) :
    Terminal.first? before (w ++ '\n' :: X) = some (k, w.length) := by
  obtain ⟨-, -, -, found, -⟩ := Terminal.first_eq_some_iff.mp first
  refine h.first_append_line first ?_
  by_cases markup : k = .inlineHtml
  · subst markup
    obtain ⟨r, rfl, whole⟩ := Terminal.inlineHtml_eq_some_iff.mp found
    rw [isOpenMarkup_eq_not_opens whole, Bool.not_eq_false'] at closed
    refine Terminal.inlineHtml_eq_some_iff.mpr ⟨r ++ '\n' :: X, rfl, ?_⟩
    rw [markupLength_append_line_of_opens closed, whole]
  · rw [h.length_append_line _ markup space, found]

theorem inert_wrapperTail : Inert wrapperTail where
  unquoted := by simp [wrapperTail]
  head := ⟨_, _, rfl, .inr rfl⟩
  label := by
    intro label start
    cases label with
    | nil => cases start
    | cons c r =>
        have brace : c ≠ '\x7d' := by
          rintro rfl
          cases start
        simp [wrapperTail, heredocBody?, heredocClosing?, isTabOrSpace, List.isPrefixOf, brace]

theorem inert_reopen : Inert ("<?php\n".toList ++ wrapperTail) where
  unquoted := by simp [wrapperTail]
  head := ⟨_, _, rfl, .inl rfl⟩
  label := by
    intro label start
    cases label with
    | nil => cases start
    | cons c r =>
        have brace : c ≠ '\x7d' := by
          rintro rfl
          cases start
        have less : c ≠ '<' := by
          rintro rfl
          cases start
        simp [wrapperTail, heredocBody?, heredocClosing?, isTabOrSpace, List.isPrefixOf, brace, less]

/-- The lexemes of the wrapper's tail. -/
def tailLexemes : List Lexeme :=
  [⟨.closeBrace, ['\x7d']⟩, ⟨.semicolon, [';']⟩]

namespace Lexes

variable {before : Text} {ls : List Lexeme} {l : Lexeme}

theorem wrapperTail (before : Text) : Lexes before Source.wrapperTail tailLexemes [] := by
  have brace : Terminal.first? before (['\x7d'] ++ [';']) = some (.closeBrace, 1) :=
    (Terminal.first_of_plain before (by decide) (by decide)).trans rfl
  exact .take brace (.semicolon _)

theorem line_wrapperTail (before : Text) :
    Lexes before ('\n' :: Source.wrapperTail) (⟨.blank, ['\n']⟩ :: tailLexemes) [] := by
  have blank : Terminal.first? before (['\n'] ++ Source.wrapperTail) = some (.blank, 1) :=
    (Terminal.first_of_plain before (by decide) (by decide)).trans rfl
  exact .take blank (wrapperTail _)

/-- A line feed behind a text that ends within PHP starts a blank or lengthens the last one. -/
theorem append_wrapperTail (run : Lexes before t ls [])
    (inside : ∀ l, ls.getLast? = some l → l.isOpenMarkup = false) :
    Lexes before (t ++ '\n' :: Source.wrapperTail) (endLine ls ++ tailLexemes) [] := by
  have h := inert_wrapperTail
  obtain rfl | ⟨init, ⟨k, w⟩, rfl⟩ := List.eq_nil_or_concat ls
  · cases run with
    | stop stuck => exact line_wrapperTail before
  · rw [List.concat_eq_append] at *
    obtain ⟨u, rfl, first, further⟩ := run.append_line_of_last h
    by_cases space : k = .blank
    · subst space
      obtain ⟨-, -, -, found, -⟩ := Terminal.first_eq_some_iff.mp first
      obtain ⟨whole, -⟩ := Terminal.blank_eq_some_iff.mp found
      rw [endLine_blank, List.append_assoc init]
      refine further _ _ ?_
      have longer : Terminal.first? (u.reverse ++ before) (w ++ '\n' :: Source.wrapperTail)
          = some (.blank, (w ++ ['\n']).length) := by
        refine h.first_append_line first (Terminal.blank_eq_some_iff.mpr ⟨?_, by simp⟩)
        rw [blankLength_append_line h.head_blank, if_pos (blankLength_eq_length_iff.mp whole)]
        simp
      have split : w ++ '\n' :: Source.wrapperTail = (w ++ ['\n']) ++ Source.wrapperTail := by simp
      rw [split] at longer ⊢
      exact .take longer (wrapperTail _)
    · rw [endLine_of_ne (by simpa using space), List.append_assoc (init ++ _),
        List.append_assoc init]
      have closed := inside _ List.getLast?_concat
      exact further _ _ (.take (h.first_append_line_of_closed first space closed)
        (line_wrapperTail _))

/-- Markup at the end of a text runs on to the open tag that follows. -/
theorem append_reopen (run : Lexes before t (ls ++ [l]) []) (outside : l.isOpenMarkup = true) :
    Lexes before (t ++ '\n' :: ("<?php\n".toList ++ Source.wrapperTail))
      (ls ++ ⟨.inlineHtml, l.text ++ "\n<?php".toList⟩ :: ⟨.blank, ['\n']⟩ :: tailLexemes) [] := by
  have h := inert_reopen
  obtain ⟨u, rfl, first, further⟩ := run.append_line_of_last h
  obtain ⟨-, -, -, found, -⟩ := Terminal.first_eq_some_iff.mp first
  obtain ⟨k, w⟩ := l
  obtain rfl : k = .inlineHtml := Lexeme.terminal_of_isOpenMarkup outside
  obtain ⟨r, rfl, whole⟩ := Terminal.inlineHtml_eq_some_iff.mp found
  rw [isOpenMarkup_eq_not_opens whole, Bool.not_eq_true'] at outside
  refine further _ _ ?_
  have longer : Terminal.first? (u.reverse ++ before)
      ('?' :: '>' :: r ++ '\n' :: ("<?php\n".toList ++ Source.wrapperTail))
        = some (.inlineHtml, ('?' :: '>' :: r ++ "\n<?php".toList).length) := by
    have tag : markupLength ("<?php\n".toList ++ Source.wrapperTail) = 5 := rfl
    refine h.first_append_line first (Terminal.inlineHtml_eq_some_iff.mpr
      ⟨r ++ '\n' :: ("<?php\n".toList ++ Source.wrapperTail), rfl, ?_⟩)
    rw [markupLength_append_line_of_not_opens outside, tag]
    simp
  have split : '?' :: '>' :: r ++ '\n' :: ("<?php\n".toList ++ Source.wrapperTail)
      = ('?' :: '>' :: r ++ "\n<?php".toList) ++ '\n' :: Source.wrapperTail := by simp
  rw [split] at longer ⊢
  exact .take longer (line_wrapperTail _)

/-- Markup that no open tag ends is the end of the text. -/
theorem eq_nil_of_isOpenMarkup {rest : Text} {ls' : List Lexeme}
    (run : Lexes before t (ls ++ l :: ls') rest) (outside : l.isOpenMarkup = true) :
    ls' = [] ∧ rest = [] := by
  induction ls generalizing before t with
  | nil =>
      cases run with
      | @take _ w r _ k _ first later =>
          obtain ⟨-, -, -, found, -⟩ := Terminal.first_eq_some_iff.mp first
          obtain rfl : k = .inlineHtml := Lexeme.terminal_of_isOpenMarkup outside
          obtain ⟨r', split, whole⟩ := Terminal.inlineHtml_eq_some_iff.mp found
          have text : w = '?' :: '>' :: r'.take (markupLength r') := by
            have taken : (w ++ r).take w.length = w := List.take_left
            rw [← taken, split, ← whole]
            rfl
          have closed : markupOpens r' = false := by
            rw [text] at outside
            simpa [Lexeme.isOpenMarkup, endsInOpenTag_markup] using outside
          have length := congrArg List.length split
          rw [markupLength_of_not_opens closed] at whole
          obtain rfl : r = [] := List.eq_nil_of_length_eq_zero (by simp at length; omega)
          exact later.unique (.stop (Terminal.first_nil _))
  | cons l' ls ih =>
      cases run with
      | take first later => exact ih later

end Lexes

theorem Lexes.getLast_significant {ls : List Lexeme} {before rest : Text}
    (run : Lexes before t ls rest) :
    (significant ls).getLast?.any Lexeme.isOpenMarkup = ls.getLast?.any Lexeme.isOpenMarkup := by
  rw [Bool.eq_iff_iff, Option.any_eq_true, Option.any_eq_true]
  constructor
  · rintro ⟨l, last, outside⟩
    have mem : l ∈ ls := (List.mem_filter.mp (List.mem_of_getLast? last)).1
    obtain ⟨a, b, rfl⟩ := List.append_of_mem mem
    obtain ⟨rfl, -⟩ := run.eq_nil_of_isOpenMarkup outside
    exact ⟨l, List.getLast?_concat, outside⟩
  · rintro ⟨l, last, outside⟩
    obtain ⟨init, rfl⟩ := List.getLast?_eq_some_iff.mp last
    have markup := Lexeme.terminal_of_isOpenMarkup outside
    refine ⟨l, ?_, outside⟩
    rw [significant_append]
    simp [significant, markup, Terminal.isTrivia]

theorem endsInMarkup_eq (h : (Lexing.of t).complete = true) :
    endsInMarkup t = (Lexing.of t).lexemes.getLast?.any Lexeme.isOpenMarkup := by
  rw [← (Lexes.of t).getLast_significant, ← tokens_toLexeme, List.getLast?_map]
  simp only [endsInMarkup, h, if_true, tokens]
  cases (Lexing.of t).tokens.getLast? with
  | none => rfl
  | some token => rfl

/-- What stands behind the line feed after a text: the wrapper's tail, and before it a line that
goes back to PHP if the text has left it. -/
def closingLine (reopen : Bool) : Text :=
  (if reopen then "<?php\n".toList else []) ++ wrapperTail

theorem inert_closingLine (reopen : Bool) : Inert (closingLine reopen) := by
  cases reopen with
  | false => exact inert_wrapperTail
  | true => exact inert_reopen

/-- The lexemes of a text with the closing line behind it. -/
def closeLexemes (ls : List Lexeme) : List Lexeme :=
  match ls.getLast? with
  | some l =>
      if l.isOpenMarkup then
        ls.dropLast ++ ⟨.inlineHtml, l.text ++ "\n<?php".toList⟩ :: ⟨.blank, ['\n']⟩ :: tailLexemes
      else endLine ls ++ tailLexemes
  | none => endLine ls ++ tailLexemes

theorem closeLexemes_of_inside {ls : List Lexeme}
    (h : ls.getLast?.any Lexeme.isOpenMarkup = false) :
    closeLexemes ls = endLine ls ++ tailLexemes := by
  rw [closeLexemes]
  cases last : ls.getLast? with
  | none => rfl
  | some l =>
      rw [last] at h
      exact if_neg (by simpa using h)

theorem closeLexemes_of_outside {ls : List Lexeme} {l : Lexeme} (h : l.isOpenMarkup = true) :
    closeLexemes (ls ++ [l]) = ls ++
      ⟨.inlineHtml, l.text ++ "\n<?php".toList⟩ :: ⟨.blank, ['\n']⟩ :: tailLexemes := by
  simp [closeLexemes, h]

theorem Lexes.append_closingLine {before : Text} {ls : List Lexeme} (run : Lexes before t ls []) :
    Lexes before (t ++ '\n' :: closingLine (ls.getLast?.any Lexeme.isOpenMarkup))
      (closeLexemes ls) [] := by
  cases leaves : ls.getLast?.any Lexeme.isOpenMarkup with
  | false =>
      rw [closeLexemes_of_inside leaves]
      refine run.append_wrapperTail fun l last => ?_
      simpa [last] using leaves
  | true =>
      obtain ⟨l, last, outside⟩ := (Option.any_eq_true _ _).mp leaves
      obtain ⟨init, rfl⟩ := List.getLast?_eq_some_iff.mp last
      rw [closeLexemes_of_outside outside]
      exact run.append_reopen outside

theorem terminals_closeLexemes (ls : List Lexeme) :
    (significant (closeLexemes ls)).map Lexeme.terminal
      = (significant ls).map Lexeme.terminal ++ [.closeBrace, .semicolon] := by
  cases leaves : ls.getLast?.any Lexeme.isOpenMarkup with
  | false =>
      rw [closeLexemes_of_inside leaves, significant_append, significant_endLine, List.map_append]
      rfl
  | true =>
      obtain ⟨l, last, outside⟩ := (Option.any_eq_true _ _).mp leaves
      obtain ⟨init, rfl⟩ := List.getLast?_eq_some_iff.mp last
      have markup := Lexeme.terminal_of_isOpenMarkup outside
      rw [closeLexemes_of_outside outside, significant_append, significant_append]
      simp [significant, tailLexemes, markup, Terminal.isTrivia]

end PhpGate
