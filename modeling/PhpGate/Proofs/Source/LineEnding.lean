import PhpGate.Proofs.SelfCheck.Neutral
import PhpGate.Proofs.Source.Declaration
import PhpGate.Proofs.Text.SamePieces
import PhpGate.Proofs.Token.Multiline

/-!
The filters on raw text treat both line endings alike: given two texts that differ in their line
endings only, each gives two such texts again, and the same declarations are found in both.
-/

namespace PhpGate.Source

open Text

variable {a b c : Text} {n m : Nat}

section Filters

theorem stringLength_same (h : SameLines a b) :
    SameMatch a b (stringLength? a) (stringLength? b) := by
  cases h with
  | nil => exact .none
  | @char q r r' visible rest =>
      rw [stringLength?, stringLength?]
      split
      · next quote =>
          have plain : q ≠ '\\' ∧ q ≠ '\n' ∧ q ≠ '\r' := by
            obtain rfl | rfl := quote <;> decide
          exact (quotedLength_same rest plain.1 plain.2).char visible
      · exact .none
  | pair => exact .none

theorem stringPattern_ignoresLineEndings : stringPattern.IgnoresLineEndings where
  breaks _ _ _ ends := by obtain rfl | rfl := ends <;> rfl
  same _ h := stringLength_same h

theorem commentOrStringPattern_ignoresLineEndings :
    commentOrStringPattern.IgnoresLineEndings where
  breaks _ _ _ ends := by obtain rfl | rfl := ends <;> rfl
  same := by
    intro before before' a b _ h
    have string := stringLength_same h
    have block := blockCommentLength_same h
    have line := lineCommentLength_same h
    rw [commentOrStringPattern, commentOrStringPattern]
    generalize stringLength? a = o, stringLength? b = o' at string ⊢
    generalize blockCommentLength? a = p, blockCommentLength? b = p' at block ⊢
    cases string with
    | some cut => exact .some cut
    | none =>
        cases block with
        | some cut => exact .some cut
        | none => exact line

theorem sameLines_keepNewlines (h : SameLines a b) :
    SameLines (keepNewlines a) (keepNewlines b) := by
  rw [h.keepNewlines_eq]
  apply SameLines.refl
  intro mem
  cases List.eq_of_mem_replicate mem

/-- Comments are dropped alike. -/
theorem stripComments_same (h : SameLines a b) : SameLines (stripComments a) (stripComments b) := by
  refine substitute_same commentOrStringPattern_ignoresLineEndings h fun c w v visible same => ?_
  rw [dropComment, dropComment, List.head?_cons, List.head?_cons]
  split
  · exact same.char visible
  · exact sameLines_keepNewlines (same.char visible)

theorem blankStrings_same (h : SameLines a b) : SameLines (blankStrings a) (blankStrings b) := by
  refine substitute_same stringPattern_ignoresLineEndings h fun c w v visible same => ?_
  have whole := same.char visible
  have kept : emptyString (c :: w) = emptyString (c :: v) := by
    rw [emptyString, emptyString, whole.keepNewlines_eq, whole.getLast_eq]
    rfl
  rw [← kept]
  apply SameLines.refl
  intro mem
  rw [emptyString, List.mem_append, List.mem_append, Option.mem_toList] at mem
  obtain (first | feeds) | last := mem
  · exact visible (Option.some.inj first)
  · cases List.eq_of_mem_replicate feeds
  · exact whole.unpaired (List.mem_of_getLast? (Option.mem_toList.mp last))

end Filters

section Declarations

theorem unbroken_declarationKeywords : ∀ w ∈ declarationKeywords, Unbroken w := by
  decide

theorem find_keyword_same (h : SameLines a b) :
    declarationKeywords.find? (beginsWith · a) = declarationKeywords.find? (beginsWith · b) := by
  have unbroken := unbroken_declarationKeywords
  generalize declarationKeywords = words at unbroken
  induction words with
  | nil => rfl
  | cons w words ih =>
      rw [List.find?_cons, List.find?_cons, beginsWith_same h (unbroken w List.mem_cons_self),
        ih fun w' mem => unbroken w' (List.mem_cons_of_mem w mem)]

/-- A declaration is read off both texts or off neither, with the same keyword and path. -/
theorem read_same (h : SameLines a b) :
    Option.Rel (fun d d' => SameLines d.keyword d'.keyword ∧ d.path = d'.path ∧
        SameCut a b d.text.length d'.text.length)
      (Declaration.read? a) (Declaration.read? b) := by
  rw [Declaration.read?, Declaration.read?, ← find_keyword_same h]
  cases found : declarationKeywords.find? (beginsWith · a) with
  | none => exact .none
  | some keyword =>
      have begins : beginsWith keyword a = true :=
        List.find?_some (p := fun w => beginsWith w a) found
      have unbroken := unbroken_declarationKeywords keyword (List.mem_of_find?_eq_some found)
      have begins' : beginsWith keyword b = true := (beginsWith_same h unbroken).symm.trans begins
      have word := beginsWith_cut h unbroken begins
      have space := SameCut.takeWhile word.back (p := isBlank) rfl
      have spaced := (word.back.takeWhile (p := isBlank) rfl).eq_nil_iff
      have path := SameCut.takeWhile space.back (p := isPathChar) rfl
      have named := space.back.takeWhile_eq (p := isPathChar) ⟨rfl, rfl⟩
      rw [← named] at path
      have gap := SameCut.takeWhile path.back (p := isBlank) rfl
      have closed := gap.back.head_eq_iff (c := ';') (by decide)
      dsimp only [Option.bind_some]
      rw [← named]
      have empty : ((a.drop keyword.length).takeWhile isBlank).isEmpty
          = ((b.drop keyword.length).takeWhile isBlank).isEmpty := by
        rw [Bool.eq_iff_iff, List.isEmpty_iff, List.isEmpty_iff, spaced]
      have closes {s s' : Text} (closed : s.head? = some ';' ↔ s'.head? = some ';') :
          (s.head? != some ';') = (s'.head? != some ';') := by
        rw [Bool.eq_iff_iff, bne_iff_ne, bne_iff_ne, Ne, Ne, closed]
      rw [← empty, ← closes closed]
      split
      · exact .none
      · next shape =>
          simp only [Bool.or_eq_true, bne_iff_ne, not_or, ne_eq, Decidable.not_not] at shape
          have whole := word.add (space.add (path.add (gap.add (.one gap.back shape.2 (by decide)))))
          have long := List.length_take_of_le (length_le_of_beginsWith begins)
          have long' := List.length_take_of_le (length_le_of_beginsWith begins')
          refine .some ⟨word.front, rfl, ?_⟩
          simpa only [Declaration.text, List.length_append, List.length_singleton, long, long',
            Nat.add_assoc] using whole

theorem declarationPattern_ignoresLineEndings : Declaration.pattern.IgnoresLineEndings where
  breaks before c r ends := by
    have unread : Declaration.read? (c :: r) = none := by
      obtain rfl | rfl := ends <;> exact read_eq_none (by decide) (by decide)
    rw [Declaration.pattern, unread, Option.map_none, ite_self]
  same := by
    intro before before' a b context h
    rw [Declaration.pattern, Declaration.pattern, context]
    split
    · exact .none
    · have read := read_same h
      generalize Declaration.read? a = o, Declaration.read? b = o' at read ⊢
      cases read with
      | none => exact .none
      | some same => exact .some same.2.2

theorem neutralizeDeclarations_same (h : SameLines a b) :
    SameLines (neutralizeDeclarations a) (neutralizeDeclarations b) := by
  refine substitute_same declarationPattern_ignoresLineEndings h fun c w v visible same => ?_
  have whole := same.char visible
  have read := read_same whole
  rw [bareKeyword, bareKeyword]
  generalize Declaration.read? (c :: w) = o, Declaration.read? (c :: v) = o' at read ⊢
  cases read with
  | none => exact whole
  | some same =>
      exact (same.1.append (.refl (by decide))).append (sameLines_keepNewlines whole)

/-- The declarations among some hits. -/
def declarationsAmong (hits : List (Nat × Text)) : List (Nat × Declaration) :=
  hits.filterMap fun (offset, found) => (Declaration.read? found).map (offset, ·)

theorem declarationsAmong_cons (offset : Nat) (t : Text) (hits : List (Nat × Text)) :
    declarationsAmong ((offset, t) :: hits)
      = ((Declaration.read? t).map (offset, ·)).toList ++ declarationsAmong hits := by
  cases read : Declaration.read? t <;> simp [declarationsAmong, read]

theorem find_among_same {p q : List Piece} (pieces : SamePieces p q) (test : Text → Bool)
    (offset offset' : Nat) :
    ((declarationsAmong (hitsFrom offset p)).find? fun d => test d.2.path).isSome
      = ((declarationsAmong (hitsFrom offset' q)).find? fun d => test d.2.path).isSome := by
  induction pieces generalizing offset offset' with
  | nil => rfl
  | kept _ _ ih => exact ih _ _
  | pair _ ih => exact ih _ _
  | @hit c w v _ _ visible same _ ih =>
      have read := read_same (same.char visible)
      have later := ih (offset + (c :: w).length) (offset' + (c :: v).length)
      rw [hitsFrom, hitsFrom, declarationsAmong_cons, declarationsAmong_cons]
      generalize Declaration.read? (c :: w) = o, Declaration.read? (c :: v) = o' at read ⊢
      cases read with
      | none => exact later
      | some same =>
          simp only [Option.map_some, Option.toList_some, List.cons_append, List.nil_append,
            List.find?_cons, same.2.1]
          split
          · rfl
          · exact later

/-- A test of paths finds a declaration in both texts or in neither. -/
theorem find_declaration_same (h : SameLines a b) (test : Text → Bool) :
    ((Declaration.all a).find? fun d => test d.2.path).isSome
      = ((Declaration.all b).find? fun d => test d.2.path).isSome := by
  have seen : ([] : Text).head? = ([] : Text).head? := rfl
  exact find_among_same (cutAfter_same declarationPattern_ignoresLineEndings h seen) test 0 0

end Declarations

end PhpGate.Source
