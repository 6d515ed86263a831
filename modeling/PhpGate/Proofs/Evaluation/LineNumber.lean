import PhpGate.Proofs.Evaluation.OneLine
import PhpGate.Proofs.SelfCheck.Line
import PhpGate.Proofs.Text.LineNumber

/-!
The two line numbers of a place. Tokens and failures of compiling count the line feeds in front of
it; a declaration is looked up in the full text. The two agree if a line ends within the declaration,
and otherwise just where every line in front of it ends by a line feed.
-/

namespace PhpGate

open Text Source

variable {needle t stripped : Text} {file : Option Text} {rejection : Rejection}
  {failure : CompileFailure} {n : Nat}

/-- A bad declaration is reported on the line of the text that its message quotes. -/
theorem line_of_checkDeclarations (rejected : checkDeclarations stripped t file = .error rejection)
    (quoted : rejection.diagnostic.message
      = "Error syntax on: \x60".toList ++ needle ++ "\x60".toList) :
    rejection.diagnostic.line = lineOf needle t := by
  obtain ⟨-, -, d, -, -, -, -, rfl⟩ := checkDeclarations_eq_error rejected
  have message : quote d = "Error syntax on: \x60".toList ++ needle ++ "\x60".toList :=
    (trim_quote d).symm.trans quoted
  have same : d.text = needle :=
    List.append_cancel_left (List.append_cancel_right message)
  rw [← same]
  rfl

theorem line_of_faultOffset (failed : compile t = .error failure) (place : faultOffset? t = some n) :
    failure.line = 1 + newlines (t.take n) := by
  obtain ⟨failure', failed', -, line⟩ := compile_of_faultOffset place
  cases failed.symm.trans failed'
  exact line

/-- Where a text stands first, the line it is found on is the one that tokens and failures have
there if a line ends within it, or else if every line in front of it ends by a line feed. -/
theorem lineOf_eq_line_iff (nonempty : needle ≠ []) (first : StandsFirst needle t n) :
    (lineOf needle t = 1 + newlines (t.take n) ↔
      (IsOneLine needle → BreaksByFeed (t.take n))) ∧
    (∀ token ∈ tokens t, token.offset = n → token.line = 1 + newlines (t.take n)) ∧
    ∀ stripped file rejection failure, checkDeclarations stripped t file = .error rejection →
      rejection.diagnostic.message
        = "Error syntax on: \x60".toList ++ needle ++ "\x60".toList →
      compile t = .error failure → faultOffset? t = some n →
      (rejection.diagnostic.line = failure.line ↔
        (IsOneLine needle → BreaksByFeed (t.take n))) := by
  have agree := lineOf_eq_newlines_iff nonempty first
  rw [Nat.add_comm] at agree
  refine ⟨agree, ?_, ?_⟩
  · rintro token mem rfl
    exact line_of_mem_tokens mem
  · intro stripped file rejection failure rejected quoted failed place
    rw [line_of_checkDeclarations rejected quoted, line_of_faultOffset failed place]
    exact agree

theorem lineOf_eq_line_iff_use :
    let t := "<?php $a\nuse 2;".toList
    let r := Rejection.of .parse "Error syntax on: \x60use 2;\x60".toList none 2
    let failure : CompileFailure := ⟨.unexpectedToken ⟨.name, "use".toList⟩, 2⟩
    "use 2;".toList ≠ [] ∧ StandsFirst "use 2;".toList t 9 ∧
    checkDeclarations t t none = .error r ∧ compile t = .error failure ∧
    faultOffset? t = some 9 ∧
    (lineOf "use 2;".toList t = 2 ↔ (IsOneLine "use 2;".toList → BreaksByFeed (t.take 9))) ∧
    (r.diagnostic.line = failure.line ↔
      (IsOneLine "use 2;".toList → BreaksByFeed (t.take 9))) := by
  have first : StandsFirst "use 2;".toList "<?php $a\nuse 2;".toList 9 := by decide +kernel
  have place : faultOffset? "<?php $a\nuse 2;".toList = some 9 := by decide +kernel
  obtain ⟨agree, -, report⟩ := lineOf_eq_line_iff (by decide) first
  exact ⟨by decide, first, rfl, rfl, place, agree,
    report "<?php $a\nuse 2;".toList none _ _ rfl rfl rfl place⟩

/-- Behind a lone carriage return a bad declaration and a token that is misplaced at the same place
are reported on different lines. -/
theorem lineOf_ne_line_return :
    let t := "<?php $a\ruse 2;".toList
    StandsFirst "use 2;".toList t 9 ∧ lineOf "use 2;".toList t = 2 ∧ newlines (t.take 9) = 0 ∧
    checkDeclarations t t none
      = .error (Rejection.of .parse "Error syntax on: \x60use 2;\x60".toList none 2) ∧
    faultOffset? t = some 9 ∧
    compile t = .error ⟨.unexpectedToken ⟨.name, "use".toList⟩, 1⟩ :=
  ⟨by decide +kernel, by decide +kernel, by decide +kernel, rfl, by decide +kernel, rfl⟩

end PhpGate
