import PhpGate.Proofs.SelfCheck.Wrapper

/-!
What the self check accepts. Its answer is decided by the tokens of the neutral text inside a block;
a neutral text that compiles is accepted, and an accepted one compiles unless it closes the block
that was put around it.
-/

namespace PhpGate

open Text Source Nonterminal

variable {t : Text}

theorem neverUnderflows_cons {k : Terminal} {w : List Terminal} (opening : k.isOpening = false)
    (closing : k.isClosing = false) : NeverUnderflows (k :: w) ↔ NeverUnderflows w := by
  constructor
  · intro h u prefix'
    have bound := h (k :: u) (List.cons_prefix_cons.mpr ⟨rfl, prefix'⟩)
    simpa [opening, closing] using bound
  · intro h u prefix'
    cases u with
    | nil => exact Nat.le_refl _
    | cons k' u =>
        obtain ⟨rfl, shorter⟩ := List.cons_prefix_cons.mp prefix'
        simpa [opening, closing] using h u shorter

section Head

variable (w : List Terminal)

theorem feed_openTag : Machine.initial.feed (.openTag :: w)
    = Machine.feed ⟨.sequence .neutral, []⟩ w := rfl

theorem feed_openBlock : Machine.initial.feed (.openTag :: .openBrace :: w)
    = Machine.feed ⟨.sequence .neutral, [.block]⟩ w := rfl

/-- The wrapper's head leaves a block open. -/
theorem feed_wrapperHead :
    Machine.initial.feed ((significant headLexemes).map Lexeme.terminal ++ .inlineHtml :: w)
      = Machine.feed ⟨.sequence .neutral, [.block]⟩ w := rfl

end Head

section

variable (begins : beginsWith "<?php".toList t = true)
include begins

theorem terminals_neutralize :
    terminals (neutralize t) = .openTag :: (terminals (neutralize t)).tail := by
  obtain ⟨tag, r, ls, rest, -, -, lexing, -⟩ := lexing_neutralize begins
  rw [terminals_eq, lexing]
  rfl

theorem compile_neutralize_iff_feed :
    compile (neutralize t) = .ok () ↔
      (Lexing.of (neutralize t)).complete = true ∧
        Machine.feed ⟨.sequence .neutral, []⟩ (terminals (neutralize t)).tail
          = some ⟨.sequence .neutral, []⟩ := by
  rw [compile_eq_ok_iff_feed, terminals_neutralize begins, feed_openTag, List.tail_cons]

theorem compile_wrap_iff_feed :
    compile (wrap t) = .ok () ↔
      (Lexing.of (neutralize t)).complete = true ∧
        Machine.feed ⟨.sequence .neutral, [.block]⟩
            ((terminals (neutralize t)).tail ++ [.closeBrace, .semicolon])
          = some ⟨.sequence .neutral, []⟩ := by
  rw [compile_eq_ok_iff_feed, complete_wrap begins]
  refine and_congr_right fun complete => ?_
  rw [terminals_wrap begins complete, feed_wrapperHead]

/-- The neutral text compiles just when its wrapped form does and it closes no more brackets than it
has opened at any point. -/
theorem compile_neutralize_iff_compile_wrap :
    compile (neutralize t) = .ok () ↔
      compile (wrap t) = .ok () ∧ NeverUnderflows (terminals (neutralize t)) := by
  rw [terminals_neutralize begins, neverUnderflows_cons rfl rfl, compile_wrap_iff_feed begins,
    compile_neutralize_iff_feed begins, ← Machine.feed_block_iff, and_assoc]

end

theorem compile_wrap_call :
    compile (wrap "<?php f();".toList) = .ok () ∧
      NeverUnderflows (terminals (neutralize "<?php f();".toList)) :=
  (compile_neutralize_iff_compile_wrap rfl).mp rfl

/-- A text that closes the block around it and opens another is accepted wrapped. -/
theorem compile_wrap_escape :
    beginsWith "<?php".toList "<?php \x7d if (1) \x7b".toList = true ∧
      compile (wrap "<?php \x7d if (1) \x7b".toList) = .ok () ∧
      compile (neutralize "<?php \x7d if (1) \x7b".toList) ≠ .ok () := by
  have fault : compile (neutralize "<?php \x7d if (1) \x7b".toList)
      = .error ⟨.unexpectedToken ⟨.closeBrace, ['\x7d']⟩, 1⟩ := rfl
  refine ⟨rfl, rfl, fun accepted => ?_⟩
  cases fault.symm.trans accepted

/-- Wrapping loses no neutral text that compiles, however it ends. -/
theorem compile_wrap_of_compile_neutralize (begins : beginsWith "<?php".toList t = true)
    (compiles : compile (neutralize t) = .ok ()) : compile (wrap t) = .ok () := by
  rw [compile_neutralize_iff_feed begins] at compiles
  obtain ⟨complete, run⟩ := compiles
  rw [compile_wrap_iff_feed begins]
  exact ⟨complete, Machine.feed_block_of_feed run⟩

/-- Texts that end in code, in a line comment, at a closing tag, in markup and at an open tag. -/
theorem compile_wrap_endings :
    compile (wrap "<?php use A;f();".toList) = .ok () ∧
      compile (wrap "<?php f(); // \x7b".toList) = .ok () ∧
      compile (wrap "<?php f() ?>".toList) = .ok () ∧
      compile (wrap "<?php f() ?>a\x7b".toList) = .ok () ∧
      compile (wrap "<?php ?>a<?PHP".toList) = .ok () :=
  ⟨compile_wrap_of_compile_neutralize rfl rfl, compile_wrap_of_compile_neutralize rfl rfl,
    compile_wrap_of_compile_neutralize rfl rfl, compile_wrap_of_compile_neutralize rfl rfl,
    compile_wrap_of_compile_neutralize rfl rfl⟩

theorem selfCheck_eq_ok_iff_compile_wrap (t : Text) (file : Option Text) :
    selfCheck t file = .ok () ↔ compile (wrap t) = .ok () := by
  delta selfCheck
  cases compile (wrap t) <;> simp

/-- The self check accepts a source whose neutral text lexes and whose tokens, put into a block, are
derivable. -/
theorem selfCheck_eq_ok_iff (begins : beginsWith "<?php".toList t = true) (file : Option Text) :
    selfCheck t file = .ok () ↔
      (Lexing.of (neutralize t)).complete = true ∧
        start.Generates (.openTag :: .openBrace ::
          ((terminals (neutralize t)).tail ++ [.closeBrace, .semicolon])) := by
  rw [selfCheck_eq_ok_iff_compile_wrap, compile_wrap_iff_feed begins, ← feed_initial_iff_generates,
    feed_openBlock]

theorem selfCheck_call :
    selfCheck "<?php use A\\B; f();".toList none = .ok () :=
  (selfCheck_eq_ok_iff rfl none).mpr ⟨rfl, (feed_initial_iff_generates _).mp rfl⟩

/-- A string that reads like a declaration is cut open by neutralising. -/
theorem selfCheck_quoted :
    beginsWith "<?php".toList "<?php $a = \"use it\";".toList = true ∧
      compile "<?php $a = \"use it\";".toList = .ok () ∧
      selfCheck "<?php $a = \"use it\";".toList none ≠ .ok () := by
  have fault : compile (wrap "<?php $a = \"use it\";".toList)
      = .error ⟨.unexpectedCharacter '"', 1⟩ := rfl
  refine ⟨rfl, rfl, fun accepted => ?_⟩
  cases fault.symm.trans ((selfCheck_eq_ok_iff_compile_wrap _ _).mp accepted)

end PhpGate
