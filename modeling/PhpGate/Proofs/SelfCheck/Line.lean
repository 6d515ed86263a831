import PhpGate.Proofs.Grammar.Viable
import PhpGate.Proofs.SelfCheck.Placement
import PhpGate.Proofs.SelfCheck.Verdict
import PhpGate.Proofs.Source.Rewriting
import PhpGate.Proofs.Token.Stop

/-!
The line that the self check reports. A fault at a character of the source is reported on the line of
that character, whatever was rewritten in front of it. A fault behind the source, in the tail of the
wrapper or at the end of file, is reported on a line that the source does not have.
-/

namespace PhpGate

open Text Source

variable {t : Text} {i k n : Nat}

/-- The offset of the token or the character that compiling fails at. -/
def faultOffset? (t : Text) : Option Nat :=
  match Machine.initial.run (tokens t) with
  | .error token => some token.offset
  | .ok _ => (Lexing.of t).stop?.map LexicalStop.offset

/-- The token or the character that a failure names, or the end of file, is what a text begins with. -/
def CompileFault.Begins : CompileFault → Text → Prop
  | unexpectedToken l, s => l.text <+: s
  | unexpectedCharacter c, s => s.head? = some c
  | unexpectedEnd, s => s = []

/-- A failure at an offset names what stands there, with the line of that offset. -/
theorem compile_of_faultOffset (failed : faultOffset? t = some n) :
    ∃ failure, compile t = .error failure ∧ failure.fault.Begins (t.drop n) ∧
      failure.line = 1 + newlines (t.take n) := by
  rw [faultOffset?] at failed
  cases run : Machine.initial.run (tokens t) with
  | error token =>
      rw [run] at failed
      cases failed
      have mem : token ∈ tokens t := Machine.mem_of_run_eq_error run
      obtain ⟨-, r, here, -⟩ := first_of_mem_tokens mem
      rw [tokens] at run
      refine ⟨⟨.unexpectedToken token.toLexeme, token.line⟩, ?_, ⟨r, here.symm⟩,
        line_of_mem_tokens mem⟩
      rw [compile, run]
  | ok m =>
      rw [run] at failed
      obtain ⟨stop, stopped, rfl⟩ := Option.map_eq_some_iff.mp failed
      obtain ⟨r, -, here⟩ := drop_offset_of_stop stopped
      rw [tokens] at run
      refine ⟨⟨.unexpectedCharacter stop.char, stop.line⟩, ?_, ?_, line_of_stop stopped⟩
      · simp only [compile, run, stopped]
      · rw [here]
        rfl

/-- What stands in front of a place of the neutral text, wrapped, is the head and what stands there. -/
theorem take_wrap (le : k ≤ (neutralize t).length) :
    (wrap t).take (wrapperHead.length + k) = wrapperHead ++ (neutralize t).take k := by
  rw [wrap_eq, List.take_length_add_append, List.take_append_of_le_length le]

theorem selfCheck_of_compile_error {failure : CompileFailure}
    (failed : compile (wrap t) = .error failure) (file : Option Text) :
    selfCheck t file = .error { Rejection.of .parse failure.fault.message file failure.line with
      cause := some .compileFailure } := by
  delta selfCheck
  rw [failed]

/-- A failure at a character that was copied from the source is reported on the line of that character
in the source. -/
theorem line_of_isCopied (copied : IsCopied t i k)
    (failed : faultOffset? (wrap t) = some (wrapperHead.length + k)) (file : Option Text) :
    ∃ failure, compile (wrap t) = .error failure ∧
      failure.fault.Begins ((wrap t).drop (wrapperHead.length + k)) ∧
      failure.line = 1 + newlines (t.take i) ∧
      selfCheck t file = .error { Rejection.of .parse failure.fault.message file failure.line with
        cause := some .compileFailure } := by
  obtain ⟨failure, failed, begins, line⟩ := compile_of_faultOffset failed
  obtain ⟨c, -, here⟩ := copied.getElem
  have le : k ≤ (neutralize t).length := Nat.le_of_lt (List.getElem?_eq_some_iff.mp here).1
  have head : newlines wrapperHead = 0 := rfl
  rw [take_wrap le, newlines_append, head, Nat.zero_add, copied.newlines] at line
  exact ⟨failure, failed, begins, line, selfCheck_of_compile_error failed file⟩

/-- A bracket too many behind a directive and a declaration that go over several lines. -/
theorem line_of_isCopied_bracket :
    IsCopied "<?php\ndeclare(\na=1);\nuse\nA;\n)".toList 28 14 ∧
    faultOffset? (wrap "<?php\ndeclare(\na=1);\nuse\nA;\n)".toList)
      = some (wrapperHead.length + 14) ∧
    selfCheck "<?php\ndeclare(\na=1);\nuse\nA;\n)".toList none
      = .error { Rejection.of .parse "syntax error, unexpected token \")\"".toList none 6 with
          cause := some .compileFailure } := by
  have copied : IsCopied "<?php\ndeclare(\na=1);\nuse\nA;\n)".toList 28 14 :=
    ⟨27, ⟨(declarationSegments "<?php\ndeclare(\na=1);\nuse\nA;\n)".toList).take 24, [], ')', [],
        [], by decide +kernel, by decide +kernel, by decide +kernel⟩,
      ⟨[.copied "<?php\n".toList, .replaced "declare(\na=1);".toList ['\n']], "\nuse;\n\n".toList,
        ')', [], [], by decide +kernel, by decide +kernel, by decide +kernel⟩⟩
  have failed : faultOffset? (wrap "<?php\ndeclare(\na=1);\nuse\nA;\n)".toList)
      = some (wrapperHead.length + 14) := by decide +kernel
  have fault : compile (wrap "<?php\ndeclare(\na=1);\nuse\nA;\n)".toList)
      = .error ⟨.unexpectedToken ⟨.closeParen, [')']⟩, 6⟩ := by rfl
  obtain ⟨failure, compiled, -, -, checked⟩ := line_of_isCopied copied failed none
  cases compiled.symm.trans fault
  exact ⟨copied, failed, checked⟩

section Bound

variable {ls : List Lexeme} {token : Token} {offset line : Nat} {failure : CompileFailure}

/-- A text that does not lex fails on a line up to the place where lexing stops. -/
theorem line_of_not_complete (failed : compile t = .error failure)
    (stops : (Lexing.of t).complete = false) :
    1 ≤ failure.line ∧ failure.line ≤ 1 + (Lexing.of t).consumed.newlines := by
  rw [compile] at failed
  cases run : Machine.initial.run (Lexing.of t).tokens with
  | error token =>
      rw [run] at failed
      cases failed
      rw [← tokens, tokens_eq_tokensFrom] at run
      exact line_of_mem_tokensFrom (Machine.mem_of_run_eq_error run)
  | ok m =>
      simp only [run] at failed
      cases stopped : (Lexing.of t).stop? with
      | none => simp_all [Lexing.stop?, Lexing.complete]
      | some stop =>
          rw [stopped] at failed
          cases failed
          obtain ⟨c, -, rfl⟩ := Option.map_eq_some_iff.mp stopped
          dsimp only
          omega

/-- A source whose tokens can all stand in the block that is put around it, so that nothing but the
end of that block can be misplaced. -/
structure OutrunsBlock (t : Text) : Prop where
  complete : (Lexing.of (neutralize t)).complete = true
  viable : Viable (.openTag :: .openBrace :: (terminals (neutralize t)).tail)

theorem newlines_wrap (t : Text) :
    (wrap t).newlines = t.newlines + 1 + if endsInMarkup (neutralize t) then 1 else 0 := by
  have head : newlines wrapperHead = 0 := rfl
  have line (reopen : Bool) : newlines ('\n' :: closingLine reopen)
      = 1 + if reopen then 1 else 0 := by
    cases reopen <;> rfl
  rw [wrap_eq, newlines_append, newlines_append, head, newlines_neutralize, line]
  omega

/-- In front of the wrapper's tail stand tokens on the lines of the source. -/
theorem exists_front_tokens_wrap (begins : beginsWith "<?php".toList t = true)
    (complete : (Lexing.of (neutralize t)).complete = true) :
    ∃ front, tokens (wrap t) = front ++ tailTokens (wrap t) ∧
      (front.map fun token => token.terminal) = (significant headLexemes).map Lexeme.terminal
        ++ .inlineHtml :: (terminals (neutralize t)).tail ∧
      ∀ token ∈ front, 1 ≤ token.line ∧ token.line ≤ 1 + t.newlines := by
  obtain ⟨tag, ls, neutral, wrapped⟩ := lexing_wrap begins complete
  obtain ⟨front, split, places⟩ := exists_front_closeLexemes ls
  rw [split, ← List.cons_append, ← List.append_assoc] at wrapped
  have whole := tokens_of_tail wrapped
  refine ⟨_, whole, ?_, ?_⟩
  · have kinds := terminals_wrap begins complete
    rw [terminals, whole, List.map_append, ← List.cons_append, ← List.append_assoc] at kinds
    exact List.append_cancel_right kinds
  · have text := (Lexes.of (neutralize t)).eq_append
    rw [neutral, List.append_nil, List.flatMap_cons] at text
    have count : tag.newlines + newlines (ls.flatMap Lexeme.text) = t.newlines := by
      rw [← newlines_append, ← newlines_neutralize t, text]
    have head : newlines (headLexemes.flatMap Lexeme.text) = 0 := rfl
    have close : newlines closeTag = 0 := rfl
    intro token mem
    rw [tokensFrom_append, tokensFrom_token rfl, places, List.mem_append, List.mem_cons] at mem
    obtain mem | rfl | mem := mem
    · have bounds := line_of_mem_tokensFrom mem
      omega
    · dsimp only
      omega
    · obtain ⟨token', mem', same⟩ : ∃ token' ∈ tokensFrom _ _ ls, token'.line = token.line := by
        split at mem
        · exact line_of_mem_extendLast mem
        · exact ⟨token, mem, rfl⟩
      have bounds := line_of_mem_tokensFrom mem'
      rw [newlines_append] at bounds
      omega

/-- What is consumed of a wrapped text that does not lex has no more lines than the text. -/
theorem consumed_wrap_of_rest (begins : beginsWith "<?php".toList t = true)
    (stops : (Lexing.of (neutralize t)).complete = false) :
    (Lexing.of (wrap t)).consumed.newlines ≤ t.newlines := by
  obtain ⟨tag, ls, rest, neutral, wrapped⟩ := lexing_wrap_of_rest begins stops
  have text := (Lexes.of (neutralize t)).eq_append
  rw [neutral, List.flatMap_cons] at text
  have count : tag.newlines + newlines (ls.flatMap Lexeme.text) + newlines rest = t.newlines := by
    rw [← newlines_append, ← newlines_append, ← newlines_neutralize t, text]
  have head : newlines (headLexemes.flatMap Lexeme.text) = 0 := rfl
  have close : newlines closeTag = 0 := rfl
  rw [wrapped, Lexing.consumed, List.flatMap_append, List.flatMap_cons, newlines_append,
    newlines_append, newlines_append]
  omega

/-- The machine takes the tokens in front of the wrapper's tail just when they can stand in a block. -/
theorem viable_iff_run {front : List Token}
    (kinds : (front.map fun token => token.terminal) = (significant headLexemes).map Lexeme.terminal
      ++ .inlineHtml :: (terminals (neutralize t)).tail) :
    Viable (.openTag :: .openBrace :: (terminals (neutralize t)).tail) ↔
      ∃ m, Machine.initial.run front = .ok m := by
  simp only [viable_iff_feed, Machine.run_eq_ok_iff, kinds, feed_openBlock, feed_wrapperHead]

theorem line_of_mem_tailTokens (mem : token ∈ tailTokens t) : token.line = t.newlines + 1 := by
  obtain rfl | rfl : token = _ ∨ token = _ := by simpa [tailTokens] using mem
  · rfl
  · rfl

/-- The wrapped form of a source fails on a line of the source or, if the source outruns the block, on
its own last line. -/
theorem line_compile_wrap (begins : beginsWith "<?php".toList t = true)
    (failed : compile (wrap t) = .error failure) :
    (¬ OutrunsBlock t ∧ 1 ≤ failure.line ∧ failure.line ≤ 1 + t.newlines) ∨
      (OutrunsBlock t ∧ failure.line = (wrap t).newlines + 1) := by
  cases complete : (Lexing.of (neutralize t)).complete with
  | false =>
      left
      have bounds := line_of_not_complete failed ((complete_wrap begins).trans complete)
      have consumed := consumed_wrap_of_rest begins complete
      refine ⟨fun h => ?_, bounds.1, by omega⟩
      cases complete.symm.trans h.complete
  | true =>
      obtain ⟨front, whole, kinds, lines⟩ := exists_front_tokens_wrap begins complete
      have stop : (Lexing.of (wrap t)).stop? = none := by
        rw [← complete_wrap begins, Lexing.complete, List.isEmpty_iff] at complete
        rw [Lexing.stop?, complete]
        rfl
      have run := Machine.run_append Machine.initial front (tailTokens (wrap t))
      rw [← whole] at run
      rw [compile, ← tokens, run] at failed
      cases inside : Machine.initial.run front with
      | error token =>
          rw [inside] at failed
          cases failed
          refine .inl ⟨fun h => ?_, lines token (Machine.mem_of_run_eq_error inside)⟩
          obtain ⟨m, ok⟩ := (viable_iff_run kinds).mp h.viable
          cases inside.symm.trans ok
      | ok m =>
          refine .inr ⟨⟨complete, (viable_iff_run kinds).mpr ⟨m, inside⟩⟩, ?_⟩
          rw [inside] at failed
          cases behind : m.run (tailTokens (wrap t)) with
          | error token =>
              simp only [Except.bind, behind] at failed
              cases failed
              exact line_of_mem_tailTokens (Machine.mem_of_run_eq_error behind)
          | ok m' =>
              simp only [Except.bind, behind, stop] at failed
              split at failed
              · cases failed
              · cases failed
                rfl

/-- The line that the self check reports for a source is a line of the source, unless the source
outruns the block. Then it is the line of the wrapper's tail. -/
theorem line_selfCheck (begins : beginsWith "<?php".toList t = true) {file : Option Text}
    {rejection : Rejection} (rejected : selfCheck t file = .error rejection) :
    1 ≤ rejection.diagnostic.line ∧
      (rejection.diagnostic.line ≤ 1 + t.newlines ↔ ¬ OutrunsBlock t) ∧
      (OutrunsBlock t → rejection.diagnostic.line
        = t.newlines + 2 + if endsInMarkup (neutralize t) then 1 else 0) := by
  cases failed : compile (wrap t) with
  | ok => cases rejected.symm.trans ((selfCheck_eq_ok_iff_compile_wrap t file).mpr failed)
  | error failure =>
      cases rejected.symm.trans (selfCheck_of_compile_error failed file)
      have reported : (Rejection.of .parse failure.fault.message file failure.line).diagnostic.line
          = failure.line := rfl
      rw [reported]
      obtain ⟨inside, bounds⟩ | ⟨outruns, last⟩ := line_compile_wrap begins failed
      · exact ⟨bounds.1, ⟨fun _ => inside, fun _ => bounds.2⟩, fun h => absurd h inside⟩
      · rw [newlines_wrap] at last
        refine ⟨by omega, ⟨fun le => ?_, fun h => absurd outruns h⟩, fun _ => by omega⟩
        omega

/-- A bracket that closes another one is found on its line. -/
theorem line_selfCheck_bracket :
    beginsWith "<?php".toList "<?PHP\n(];".toList = true ∧
    selfCheck "<?PHP\n(];".toList none
      = .error { Rejection.of .parse "syntax error, unexpected token \"]\"".toList none 2 with
          cause := some .compileFailure } ∧
    ¬ OutrunsBlock "<?PHP\n(];".toList := by
  have rejected : selfCheck "<?PHP\n(];".toList none
      = .error { Rejection.of .parse "syntax error, unexpected token \"]\"".toList none 2 with
          cause := some .compileFailure } := by rfl
  exact ⟨rfl, rejected, (line_selfCheck rfl rejected).2.1.mp (by decide)⟩

/-- Sources of one line of which a later line is reported: a bracket that is left open and a block that
is left open in front of markup. -/
theorem line_selfCheck_behind :
    selfCheck "<?php f(".toList none
      = .error { Rejection.of .parse "syntax error, unexpected token \"\x7d\"".toList none 2 with
          cause := some .compileFailure } ∧
    selfCheck "<?php \x7b ?>".toList none
      = .error { Rejection.of .parse "syntax error, unexpected end of file".toList none 3 with
          cause := some .compileFailure } ∧
    newlines "<?php f(".toList = 0 ∧ newlines "<?php \x7b ?>".toList = 0 :=
  ⟨by rfl, by rfl, rfl, rfl⟩

end Bound

end PhpGate
