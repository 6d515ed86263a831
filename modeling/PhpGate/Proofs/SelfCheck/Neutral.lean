import PhpGate.Proofs.Token.Context
import PhpGate.SelfCheck

/-!
Neutralising keeps the open tag: no declaration starts within it, and what is dropped after it
stands behind it.
-/

namespace PhpGate.Source

open Text

variable {c : Char} {r t : Text}

theorem read_eq_none (namespace' : foldCase c ≠ 'n') (use : foldCase c ≠ 'u') :
    Declaration.read? (c :: r) = none := by
  have none : declarationKeywords.find? (beginsWith · (c :: r)) = Option.none := by
    simp [declarationKeywords, beginsWith, namespace', use]
  rw [Declaration.read?, none, Option.bind_none]

theorem cutAfter_declaration {before : Text} (namespace' : foldCase c ≠ 'n')
    (use : foldCase c ≠ 'u') :
    cutAfter Declaration.pattern before 0 (c :: r)
      = .kept c :: cutAfter Declaration.pattern (c :: before) 0 r := by
  have none : Declaration.pattern before (c :: r) = Option.none := by
    simp [Declaration.pattern, read_eq_none namespace' use]
  simp [cutAfter, none]

/-- A word without the first letters of the declarations stays at the start of a text. -/
theorem beginsWith_neutralizeDeclarations {word before : Text}
    (letters : ∀ w ∈ word, w ≠ 'n' ∧ w ≠ 'u') (h : beginsWith word t = true) :
    beginsWith word
      ((cutAfter Declaration.pattern before 0 t).flatMap (Piece.substitute bareKeyword)) = true := by
  induction word generalizing t before with
  | nil => rfl
  | cons w word ih =>
      cases t with
      | nil => cases h
      | cons c r =>
          rw [beginsWith, Bool.and_eq_true, beq_iff_eq] at h
          obtain ⟨rfl, rest⟩ := h
          obtain ⟨first, later⟩ := List.forall_mem_cons.mp letters
          rw [cutAfter_declaration first.1 first.2]
          simp [Piece.substitute, beginsWith, ih later rest]

theorem neutralizeDeclarations_openTag (h : beginsWith "<?php".toList t = true) :
    beginsWith "<?php".toList (neutralizeDeclarations t) = true :=
  beginsWith_neutralizeDeclarations (by simp) h

theorem stripLeadingDeclare_openTag (h : beginsWith "<?php".toList t = true) :
    beginsWith "<?php".toList (stripLeadingDeclare t) = true := by
  rw [stripLeadingDeclare, if_pos h]
  dsimp only
  split
  · have long : "<?php".toList.length ≤ t.length := length_le_of_beginsWith h
    have kept : "<?php".toList.length ≤ 5 + blankLength (t.drop 5) := Nat.le_add_right 5 _
    rw [List.append_assoc, beginsWith_append, beginsWith_take kept, h]
    rw [List.length_take]
    exact Nat.le_min.mpr ⟨kept, long⟩
  · exact h

theorem neutralize_openTag (h : beginsWith "<?php".toList t = true) :
    beginsWith "<?php".toList (neutralize t) = true :=
  stripLeadingDeclare_openTag (neutralizeDeclarations_openTag h)

end PhpGate.Source
