import PhpGate.Proofs.Grammar.Stack
import PhpGate.Proofs.SelfCheck.Neutral
import PhpGate.Proofs.Token.Closing

/-!
The lexemes of a wrapped text: those of the wrapper's head, whose markup takes the open tag of the
text along, then those of the neutral text behind its open tag, then those of the tail.
-/

namespace PhpGate

open Text Source

/-- The lexemes of the wrapper's head in front of its closing tag. -/
def headLexemes : List Lexeme :=
  [⟨.openTag, "<?php".toList⟩, ⟨.blank, [' ']⟩, ⟨.name, "return".toList⟩, ⟨.blank, [' ']⟩,
   ⟨.name, "true".toList⟩, ⟨.semicolon, [';']⟩, ⟨.blank, [' ']⟩, ⟨.name, "if".toList⟩,
   ⟨.blank, [' ']⟩, ⟨.openParen, ['(']⟩, ⟨.number, ['0']⟩, ⟨.closeParen, [')']⟩, ⟨.blank, [' ']⟩,
   ⟨.openBrace, ['\x7b']⟩, ⟨.blank, [' ']⟩]

theorem wrapperHead_eq : wrapperHead = headLexemes.flatMap Lexeme.text ++ closeTag := rfl

theorem takes_headLexemes (r : Text) : Takes [] headLexemes ('?' :: '>' :: r) :=
  ⟨rfl, rfl, rfl, rfl, rfl, rfl, rfl, rfl, rfl, rfl, rfl, rfl, rfl, rfl, rfl, trivial⟩

variable {tag r t : Text}

theorem markupLength_openTag (kind : IsOpenTag tag) : markupLength (tag ++ r) = tag.length := by
  have found := openTagLength_of_isOpenTag kind r
  obtain ⟨tag, rfl⟩ := kind.exists_cons
  rw [List.cons_append] at found ⊢
  rw [markupLength, found]

/-- Behind a closing tag markup takes an open tag along at once. -/
theorem first_markup (before : Text) (kind : IsOpenTag tag) :
    Terminal.first? before (closeTag ++ tag ++ r)
      = some (.inlineHtml, (closeTag ++ tag).length) := by
  refine Terminal.first_eq_some_iff.mpr ⟨[], _, rfl, ?_, by simp⟩
  refine Terminal.inlineHtml_eq_some_iff.mpr ⟨tag ++ r, rfl, ?_⟩
  rw [markupLength_openTag kind, List.length_append, Nat.add_comm]
  rfl

theorem first_openTag (before : Text) (kind : IsOpenTag tag) :
    Terminal.first? before (tag ++ r) = some (.openTag, tag.length) := by
  have found := openTagLength_of_isOpenTag kind r
  refine Terminal.first_eq_some_iff.mpr ⟨[.inlineHtml], _, rfl, found, ?_⟩
  intro k mem
  obtain rfl := List.mem_singleton.mp mem
  obtain ⟨tag, rfl⟩ := kind.exists_cons
  rfl

/-- A text that begins with the long open tag, cut behind it. -/
theorem exists_openTag (h : beginsWith "<?php".toList t = true) :
    ∃ p h q r, t = ['<', '?', p, h, q] ++ r ∧ IsOpenTag ['<', '?', p, h, q] := by
  obtain ⟨p, q, s, r, rfl⟩ := beginsWith_openTag h
  exact ⟨p, q, s, r, rfl, .inr ⟨h, rfl⟩⟩

theorem lexes_wrapperHead {u rest : Text} {ls : List Lexeme} (kind : IsOpenTag tag)
    (run : ∀ earlier, Lexes (tag.reverse ++ earlier) u ls rest) :
    Lexes [] (wrapperHead ++ (tag ++ u))
      (headLexemes ++ ⟨.inlineHtml, closeTag ++ tag⟩ :: ls) rest := by
  have split : wrapperHead ++ (tag ++ u)
      = headLexemes.flatMap Lexeme.text ++ (closeTag ++ tag ++ u) := by
    rw [wrapperHead_eq]
    simp only [List.append_assoc]
  rw [split]
  refine (takes_headLexemes (tag ++ u)).lexes (.take (first_markup _ kind) ?_)
  rw [List.reverse_append, List.append_assoc]
  exact run _

theorem wrap_eq (t : Text) :
    wrap t = wrapperHead ++ (neutralize t ++ '\n' :: closingLine (endsInMarkup (neutralize t))) := by
  rw [wrap, closingLine]
  simp only [List.append_assoc, List.cons_append, List.nil_append]

theorem endsInMarkup_of_openTag {ls : List Lexeme}
    (lexing : Lexing.of t = ⟨⟨.openTag, tag⟩ :: ls, []⟩) :
    endsInMarkup t = ls.getLast?.any Lexeme.isOpenMarkup := by
  rw [endsInMarkup_eq (by rw [lexing]; rfl), lexing]
  cases ls with
  | nil => rfl
  | cons l ls => rw [List.getLast?_cons_cons]

section

variable (begins : beginsWith "<?php".toList t = true)
include begins

theorem lexing_neutralize :
    ∃ tag r ls rest, neutralize t = tag ++ r ∧ IsOpenTag tag ∧
      Lexing.of (neutralize t) = ⟨⟨.openTag, tag⟩ :: ls, rest⟩ ∧
      ∀ earlier, Lexes (tag.reverse ++ earlier) r ls rest := by
  obtain ⟨p, h, q, r, neutral, kind⟩ := exists_openTag (neutralize_openTag begins)
  obtain ⟨ls, rest, run⟩ := Lexes.total [q, h, p, '?', '<'] r
  refine ⟨_, r, ls, rest, neutral, kind, ?_, fun earlier => run.congr (sameContext_openTag p h q _)⟩
  rw [neutral]
  exact (Lexes.take (first_openTag [] kind) run).scanAfter_eq

/-- The lexemes of a wrapped text that lexes. -/
theorem lexing_wrap (complete : (Lexing.of (neutralize t)).complete = true) :
    ∃ tag ls, Lexing.of (neutralize t) = ⟨⟨.openTag, tag⟩ :: ls, []⟩ ∧
      Lexing.of (wrap t) =
        ⟨headLexemes ++ ⟨.inlineHtml, closeTag ++ tag⟩ :: closeLexemes ls, []⟩ := by
  obtain ⟨tag, r, ls, rest, neutral, kind, lexing, run⟩ := lexing_neutralize begins
  obtain rfl : rest = [] := by simpa [lexing, Lexing.complete] using complete
  refine ⟨tag, ls, lexing, ?_⟩
  rw [wrap_eq, endsInMarkup_of_openTag lexing, neutral, List.append_assoc]
  exact (lexes_wrapperHead kind fun earlier => (run earlier).append_closingLine).scanAfter_eq

/-- The lexemes of a wrapped text up to the place where the text does not lex. -/
theorem lexing_wrap_of_rest (stops : (Lexing.of (neutralize t)).complete = false) :
    ∃ tag ls rest, Lexing.of (neutralize t) = ⟨⟨.openTag, tag⟩ :: ls, rest⟩ ∧
      Lexing.of (wrap t) = ⟨headLexemes ++ ⟨.inlineHtml, closeTag ++ tag⟩ :: ls,
        rest ++ '\n' :: closingLine (endsInMarkup (neutralize t))⟩ := by
  obtain ⟨tag, r, ls, rest, neutral, kind, lexing, run⟩ := lexing_neutralize begins
  have stopped : rest ≠ [] := by simpa [lexing, Lexing.complete] using stops
  have wrapped := lexes_wrapperHead kind fun earlier =>
    (run earlier).append_line_of_rest (inert_closingLine (endsInMarkup (neutralize t))) stopped
  rw [← List.append_assoc tag, ← neutral, ← wrap_eq] at wrapped
  exact ⟨tag, ls, rest, lexing, wrapped.scanAfter_eq⟩

/-- A text that does not lex does not lex wrapped either. -/
theorem complete_wrap : (Lexing.of (wrap t)).complete = (Lexing.of (neutralize t)).complete := by
  cases complete : (Lexing.of (neutralize t)).complete with
  | true =>
      obtain ⟨tag, ls, -, lexing⟩ := lexing_wrap begins complete
      rw [lexing]
      rfl
  | false =>
      obtain ⟨tag, ls, rest, -, lexing⟩ := lexing_wrap_of_rest begins complete
      rw [lexing]
      simp [Lexing.complete]

theorem terminals_wrap (complete : (Lexing.of (neutralize t)).complete = true) :
    terminals (wrap t) = (significant headLexemes).map Lexeme.terminal
      ++ .inlineHtml :: ((terminals (neutralize t)).tail ++ [.closeBrace, .semicolon]) := by
  obtain ⟨tag, ls, neutral, wrapped⟩ := lexing_wrap begins complete
  rw [terminals_eq, terminals_eq, neutral, wrapped]
  rw [significant_append, List.map_append]
  exact congrArg (fun w => _ ++ Terminal.inlineHtml :: w) (terminals_closeLexemes ls)

end

end PhpGate
