import PhpGate.Proofs.SelfCheck.Wrapper
import PhpGate.Proofs.Token.Place

/-!
The tokens of a wrapped text with their places. The wrapper's head stands on the first line, so the
tokens of the neutral text keep their lines and are moved by the length of the head; those of the
wrapper's tail are the last two characters, on the last line.
-/

namespace PhpGate

open Text Source Lexing

variable {t : Text} {offset line : Nat} {ls : List Lexeme}

theorem tokensFrom_endLine (ls : List Lexeme) :
    tokensFrom offset line (endLine ls) = tokensFrom offset line ls := by
  obtain rfl | ⟨init, ⟨k, w⟩, rfl⟩ := List.eq_nil_or_concat ls
  · rfl
  · rw [List.concat_eq_append]
    by_cases space : k = .blank
    · subst space
      rw [endLine_blank, tokensFrom_append, tokensFrom_append, tokensFrom_singleton_trivia rfl,
        tokensFrom_singleton_trivia rfl]
    · rw [endLine_of_ne (by simpa using space), tokensFrom_append,
        tokensFrom_singleton_trivia rfl, List.append_nil]

/-- In front of the wrapper's tail stand the tokens of the text, of which markup at the end runs on
to the open tag. -/
theorem exists_front_closeLexemes (ls : List Lexeme) :
    ∃ front, closeLexemes ls = front ++ tailLexemes ∧
      ∀ offset line, tokensFrom offset line front =
        (if ls.getLast?.any Lexeme.isOpenMarkup then extendLast "\n<?php".toList else id)
          (tokensFrom offset line ls) := by
  cases leaves : ls.getLast?.any Lexeme.isOpenMarkup with
  | false =>
      exact ⟨endLine ls, closeLexemes_of_inside leaves, fun _ _ => tokensFrom_endLine ls⟩
  | true =>
      obtain ⟨l, last, outside⟩ := (Option.any_eq_true _ _).mp leaves
      obtain ⟨init, rfl⟩ := List.getLast?_eq_some_iff.mp last
      obtain ⟨k, w⟩ := l
      obtain rfl : k = .inlineHtml := Lexeme.terminal_of_isOpenMarkup outside
      refine ⟨init ++ [⟨.inlineHtml, w ++ "\n<?php".toList⟩, ⟨.blank, ['\n']⟩], ?_, fun offset line => ?_⟩
      · rw [closeLexemes_of_outside outside, List.append_assoc]
        rfl
      · rw [tokensFrom_append, tokensFrom_append]
        exact (extendLast_concat _ (tokensFrom offset line init) ⟨⟨.inlineHtml, w⟩, _, _⟩).symm

theorem getLast_tokensFrom (h : ls.getLast?.any Lexeme.isOpenMarkup = true) :
    ∃ token, (tokensFrom offset line ls).getLast? = some token ∧ token.terminal = .inlineHtml := by
  obtain ⟨l, last, outside⟩ := (Option.any_eq_true _ _).mp h
  obtain ⟨init, rfl⟩ := List.getLast?_eq_some_iff.mp last
  have markup := Lexeme.terminal_of_isOpenMarkup outside
  have token : l.terminal.isTrivia = false := by
    rw [markup]
    rfl
  rw [tokensFrom_append, tokensFrom_token token]
  exact ⟨_, List.getLast?_concat, markup⟩

/-- The tokens of the wrapper's tail at the end of a text. -/
def tailTokens (t : Text) : List Token :=
  [⟨⟨.closeBrace, ['\x7d']⟩, t.length - 2, t.newlines + 1⟩,
   ⟨⟨.semicolon, [';']⟩, t.length - 1, t.newlines + 1⟩]

theorem tokensFrom_tailLexemes (u : Text) :
    tokensFrom u.length (1 + u.newlines) tailLexemes = tailTokens (u ++ wrapperTail) := by
  have newlines : (u ++ wrapperTail).newlines = u.newlines := newlines_append u _
  rw [tailTokens, newlines, List.length_append, Nat.add_comm u.newlines]
  rfl

/-- A complete lexing that ends with the wrapper's tail. -/
theorem tokens_of_tail {t : Text} {front : List Lexeme}
    (lexing : Lexing.of t = ⟨front ++ tailLexemes, []⟩) :
    tokens t = tokensFrom 0 1 front ++ tailTokens t := by
  have text : t = front.flatMap Lexeme.text ++ wrapperTail := by
    have whole := (Lexes.of t).eq_append
    rw [lexing, List.append_nil, List.flatMap_append] at whole
    exact whole
  rw [tokens_eq_tokensFrom, lexing, tokensFrom_append, Nat.zero_add, tokensFrom_tailLexemes, ← text]

theorem lexing_wrapperHead :
    Lexing.of wrapperHead = ⟨headLexemes ++ [⟨.inlineHtml, closeTag⟩], []⟩ := by
  rfl

/-- Behind the wrapper's head and the open tag the neutral text goes on where it would alone, but for
the length of the head. -/
theorem place_behind_head (tag : Text) :
    tokensFrom (0 + (headLexemes.flatMap Lexeme.text).length + (closeTag ++ tag).length)
        (1 + newlines (headLexemes.flatMap Lexeme.text) + (closeTag ++ tag).newlines) ls
      = (tokensFrom tag.length (1 + tag.newlines) ls).map (Token.shift wrapperHead.length) := by
  have offset : 0 + (headLexemes.flatMap Lexeme.text).length + (closeTag ++ tag).length
      = tag.length + wrapperHead.length := by
    rw [wrapperHead_eq, List.length_append, List.length_append]
    omega
  have head : newlines (headLexemes.flatMap Lexeme.text) = 0 := rfl
  have close : newlines closeTag = 0 := rfl
  rw [offset, newlines_append, head, close, Nat.zero_add, Nat.add_zero, tokensFrom_shift]

/-- Wrapping leaves the tokens of a text that lexes in their places, but for the length of the head. -/
theorem tokens_wrap (begins : beginsWith "<?php".toList t = true)
    (complete : (Lexing.of (neutralize t)).complete = true) :
    (Lexing.of (wrap t)).complete = true ∧
      ∃ head markup tag later,
        tokens wrapperHead = head ++ [markup] ∧ markup.terminal = .inlineHtml ∧
        tokens (neutralize t) = tag :: later ∧ tag.terminal = .openTag ∧
        (endsInMarkup (neutralize t) = true →
          ∃ last, later.getLast? = some last ∧ last.terminal = .inlineHtml) ∧
        tokens (wrap t) =
          head ++ markup.extend tag.text ::
            ((if endsInMarkup (neutralize t) then extendLast "\n<?php".toList else id)
                (later.map (Token.shift wrapperHead.length))
              ++ tailTokens (wrap t)) := by
  obtain ⟨tag, ls, neutral, wrapped⟩ := lexing_wrap begins complete
  obtain ⟨front, split, places⟩ := exists_front_closeLexemes ls
  have leaves := endsInMarkup_of_openTag neutral
  rw [split, ← List.cons_append, ← List.append_assoc] at wrapped
  refine ⟨by rw [wrapped]; rfl, tokensFrom 0 1 headLexemes,
    ⟨⟨.inlineHtml, closeTag⟩, (headLexemes.flatMap Lexeme.text).length, 1⟩, ⟨⟨.openTag, tag⟩, 0, 1⟩,
    tokensFrom tag.length (1 + tag.newlines) ls, ?_, rfl, ?_, rfl, ?_, ?_⟩
  · rw [tokens_eq_tokensFrom, lexing_wrapperHead, tokensFrom_append]
    rfl
  · rw [tokens_eq_tokensFrom, neutral, tokensFrom_token rfl, Nat.zero_add]
  · rw [leaves]
    exact getLast_tokensFrom
  · rw [tokens_of_tail wrapped, tokensFrom_append, tokensFrom_token rfl, places, leaves,
      List.append_assoc, List.cons_append, place_behind_head]
    rfl

theorem tokens_wrap_markup :
    (Lexing.of (wrap "<?php\nf(); ?>a".toList)).complete = true ∧
      ((tokens (wrap "<?php\nf(); ?>a".toList)).drop 9).map (fun token => (token.toLexeme, token.line)) =
        [(⟨.inlineHtml, "?><?php".toList⟩, 1), (⟨.name, ['f']⟩, 2), (⟨.openParen, ['(']⟩, 2),
         (⟨.closeParen, [')']⟩, 2), (⟨.semicolon, [';']⟩, 2),
         (⟨.inlineHtml, "?>a\n<?php".toList⟩, 2), (⟨.closeBrace, ['\x7d']⟩, 4),
         (⟨.semicolon, [';']⟩, 4)] := by
  obtain ⟨complete, head, markup, tag, later, headTokens, -, neutral, -, -, whole⟩ :=
    tokens_wrap (t := "<?php\nf(); ?>a".toList) rfl rfl
  have split : head ++ [markup] = tokensFrom 0 1 headLexemes ++ [⟨⟨.inlineHtml, closeTag⟩, 28, 1⟩] :=
    headTokens.symm.trans rfl
  obtain ⟨rfl, last⟩ := List.append_inj' split rfl
  have first : ⟨⟨.openTag, "<?php".toList⟩, 0, 1⟩ :: (tokens "<?php\nf(); ?>a".toList).tail
      = tag :: later := neutral
  cases last
  cases first
  refine ⟨complete, ?_⟩
  rw [whole]
  rfl

end PhpGate
