import PhpGate.Proofs.SelfCheck.Verdict
import PhpGate.Proofs.Source.LineEnding
import PhpGate.Proofs.Token.SameTokens

/-!
Wrapping treats both line endings alike, and the self check accepts both of two texts that differ in
their line endings only or neither.
-/

namespace PhpGate.Source

open Text

variable {a b : Text}

section Frame

theorem trimEnd_cons (c : Char) (t : Text) :
    trimEnd (c :: t) = if trimEnd t = [] ∧ isBlank c then [] else c :: trimEnd t := by
  have whole : ((c :: t).reverse.dropWhile isBlank)
      = if (t.reverse.dropWhile isBlank).isEmpty then [c].dropWhile isBlank
        else t.reverse.dropWhile isBlank ++ [c] := by
    rw [List.reverse_cons, List.dropWhile_append]
  rw [trimEnd, whole, trimEnd]
  cases h : t.reverse.dropWhile isBlank with
  | nil => cases blank : isBlank c <;> simp [blank]
  | cons d r => simp

theorem trimEnd_same (h : SameLines a b) : SameLines (trimEnd a) (trimEnd b) := by
  induction h with
  | nil => exact .nil
  | @char c r r' visible rest ih =>
      simp only [trimEnd_cons, ih.eq_nil_iff]
      split
      · exact .nil
      · exact ih.char visible
  | @pair r r' rest ih =>
      have feed : isBlank '\n' = true := rfl
      have ret : isBlank '\r' = true := rfl
      simp only [trimEnd_cons, ih.eq_nil_iff, feed, ret, and_true]
      by_cases blank : trimEnd r' = []
      · simp only [blank, if_true]
        exact .nil
      · simp only [blank, if_false, List.cons_ne_nil]
        exact ih.pair

theorem endsWith_same (h : SameLines a b) {tail : Text} (unbroken : Unbroken tail) :
    endsWith tail a = endsWith tail b := by
  have ends (t : Text) : endsWith tail t = true ↔ ∃ w, w <:+ t ∧ w = tail := by
    rw [endsWith, List.isSuffixOf_iff_suffix]
    constructor
    · intro h
      exact ⟨tail, h, rfl⟩
    · rintro ⟨w, h, rfl⟩
      exact h
  rw [Bool.eq_iff_iff, ends, ends]
  refine h.suffix_iff (P := fun w => w = tail) fun w same => ?_
  rwa [same]

theorem endsInOpenTag_same (h : SameLines a b) : endsInOpenTag a = endsInOpenTag b := by
  have ends (t : Text) : beginsWith "<?php".toList (t.drop (t.length - 5)) = true ↔
      ∃ w, w <:+ t ∧ w.map foldCase = "<?php".toList := by
    have five : "<?php".toList.length = 5 := rfl
    rw [beginsWith_iff, five]
    constructor
    · intro begins
      have short : (t.drop (t.length - 5)).take 5 = t.drop (t.length - 5) := by
        apply List.take_of_length_le
        rw [List.length_drop]
        omega
      rw [short] at begins
      exact ⟨_, List.drop_suffix _ t, begins⟩
    · rintro ⟨w, ⟨x, rfl⟩, folded⟩
      have length : w.length = 5 := by
        simpa using congrArg List.length folded
      rw [List.length_append, length, Nat.add_sub_cancel, List.drop_left,
        List.take_of_length_le (Nat.le_of_eq length), folded]
  have long : beginsWith "<?php".toList (a.drop (a.length - 5))
      = beginsWith "<?php".toList (b.drop (b.length - 5)) := by
    rw [Bool.eq_iff_iff, ends, ends]
    refine h.suffix_iff (P := fun w => w.map foldCase = "<?php".toList) fun w folded => ?_
    apply unbroken_of_map_foldCase
    rw [folded]
    rfl
  rw [endsInOpenTag, endsInOpenTag, long, endsWith_same h (by decide)]

theorem checkOpenTag_same (h : SameLines a b) (file : Option Text) :
    checkOpenTag a file = checkOpenTag b file := by
  have tag : (a.take openTag.length).map Char.toLower = openTag ↔
      (b.take openTag.length).map Char.toLower = openTag := by
    refine h.take_iff (P := fun w => w.map Char.toLower = openTag) fun w lowered => ?_
    refine unbroken_iff.mpr ⟨fun feed => ?_, fun ret => ?_⟩
    · have mem : Char.toLower '\n' ∈ openTag := lowered ▸ List.mem_map_of_mem feed
      exact absurd mem (by decide)
    · have mem : Char.toLower '\r' ∈ openTag := lowered ▸ List.mem_map_of_mem ret
      exact absurd mem (by decide)
  simp only [checkOpenTag, tag]

/-- Text stands behind a last closing tag of both texts or of neither. -/
theorem trailingBuffer_same (h : SameLines a b) :
    (trailingBuffer? a (stripComments a)).isSome = (trailingBuffer? b (stripComments b)).isSome := by
  have unbroken : Unbroken closeTag := by decide
  rw [trailingBuffer?, trailingBuffer?, ← endsWith_same h unbroken,
    ← endsWith_same (trimEnd_same (stripComments_same h)) unbroken]
  split <;> rfl

theorem endsInMarkup_same (h : SameLines a b) : endsInMarkup a = endsInMarkup b := by
  have whole := complete_same h
  cases complete : (Lexing.of a).complete with
  | true =>
      rw [endsInMarkup_eq complete, endsInMarkup_eq (whole.symm.trans complete)]
      refine any_getLast_same (Lexing.same h).1 fun l l' same => ?_
      rw [Lexeme.isOpenMarkup, Lexeme.isOpenMarkup, same.terminal, endsInOpenTag_same same.text]
  | false =>
      simp only [endsInMarkup, complete, whole.symm.trans complete]
      exact endsWith_same (trimEnd_same h) (by decide)

end Frame

section Wrapping

theorem declareLength_same (h : SameLines a b) :
    SameMatch a b (declareLength? a) (declareLength? b) := by
  have unbroken : Unbroken "declare".toList := by decide
  rw [declareLength?, declareLength?, ← beginsWith_same h unbroken]
  split
  · next begins =>
      have word : SameCut a b 7 7 := beginsWith_cut h unbroken begins
      have opening := word.add (blankLength_same word.back)
      have opens := opening.back.head_eq_iff (c := '(') (by decide)
      simp only [opens]
      split
      · next paren =>
          have inside := opening.add (.one opening.back (opens.mpr paren) (by decide))
          have closing := inside.add (.takeWhile inside.back (p := fun c => c != ')') rfl)
          have closes := closing.back.head_eq_iff (c := ')') (by decide)
          simp only [closes]
          split
          · next paren' =>
              have behind := closing.add (.one closing.back (closes.mpr paren') (by decide))
              have finish := behind.add (blankLength_same behind.back)
              have ends := finish.back.head_eq_iff (c := ';') (by decide)
              simp only [ends]
              split
              · next semicolon =>
                  exact .some (finish.add (.one finish.back (ends.mpr semicolon) (by decide)))
              · exact .none
          · exact .none
      · exact .none
  · exact .none

theorem stripLeadingDeclare_same (h : SameLines a b) :
    SameLines (stripLeadingDeclare a) (stripLeadingDeclare b) := by
  have unbroken : Unbroken "<?php".toList := by decide
  rw [stripLeadingDeclare, stripLeadingDeclare, ← beginsWith_same h unbroken]
  split
  · next begins =>
      have tag : SameCut a b 5 5 := beginsWith_cut h unbroken begins
      have head := tag.add (blankLength_same tag.back)
      have directive := declareLength_same head.back
      dsimp only
      generalize declareLength? (a.drop (5 + blankLength (a.drop 5))) = o,
        declareLength? (b.drop (5 + blankLength (b.drop 5))) = o' at directive ⊢
      cases directive with
      | none => exact h
      | some cut =>
          exact (head.front.append (sameLines_keepNewlines cut.front)).append (head.add cut).back
  · exact h

theorem neutralize_same (h : SameLines a b) : SameLines (neutralize a) (neutralize b) :=
  stripLeadingDeclare_same (neutralizeDeclarations_same h)

theorem wrap_same (h : SameLines a b) : SameLines (wrap a) (wrap b) := by
  have neutral := neutralize_same h
  have feed : SameLines ['\n'] ['\n'] := .refl (by decide)
  have reopen : SameLines (if endsInMarkup (neutralize a) then "<?php\n".toList else [])
      (if endsInMarkup (neutralize b) then "<?php\n".toList else []) := by
    rw [endsInMarkup_same neutral]
    split
    · exact .refl (by decide)
    · exact .nil
  exact ((((SameLines.refl (by decide)).append neutral).append feed).append reopen).append
    (.refl (by decide))

end Wrapping

end PhpGate.Source

namespace PhpGate

open Text

/-- The self check accepts both texts or neither. -/
theorem selfCheck_same {a b : Text} (h : SameLines a b) (file : Option Text) :
    selfCheck a file = .ok () ↔ selfCheck b file = .ok () := by
  rw [selfCheck_eq_ok_iff_compile_wrap, selfCheck_eq_ok_iff_compile_wrap,
    compile_same (Source.wrap_same h)]

end PhpGate
