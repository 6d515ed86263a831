import PhpGate.Proofs.Source.Declaration
import PhpGate.Proofs.Text.Segment
import PhpGate.SelfCheck

/-!
The two rewritings of a neutral text in segments. The first keeps the keyword of a declaration, the
second what stands in front of and behind a declare directive; both put as many line feeds in the
place of what they drop.
-/

namespace PhpGate.Source

open Text

variable {t : Text}

/-- The segments of a piece that is neutralised: of a declaration the keyword is copied. -/
def segmentsOf : Piece → List Segment
  | .kept c => [.copied [c]]
  | .hit found =>
      match Declaration.read? found with
      | some d => [.copied d.keyword,
          .replaced (found.drop d.keyword.length) (';' :: keepNewlines found)]
      | none => [.copied found]

def declarationSegments (t : Text) : List Segment :=
  (cut Declaration.pattern t).flatMap segmentsOf

/-- A declare directive right after the open tag is dropped, everything else copied. -/
def directiveSegments (t : Text) : List Segment :=
  if beginsWith "<?php".toList t then
    let head := 5 + blankLength (t.drop 5)
    match declareLength? (t.drop head) with
    | some n => [.copied (t.take head),
        .replaced ((t.drop head).take n) (keepNewlines ((t.drop head).take n)),
        .copied (t.drop (head + n))]
    | none => [.copied t]
  else [.copied t]

theorem newlines_keepNewlines (t : Text) : (keepNewlines t).newlines = t.newlines := by
  rw [keepNewlines, newlines, List.count_replicate_self]

section Declaration

variable {d : Declaration} {found : Text}

/-- A keyword holds no line feed. -/
theorem newlines_keyword (wellFormed : d.IsWellFormed) : d.keyword.newlines = 0 := by
  refine List.count_eq_zero.mpr fun mem => ?_
  have folded : '\n' ∈ d.keyword.map foldCase := List.mem_map.mpr ⟨'\n', mem, rfl⟩
  have listed := wellFormed.keyword
  simp only [declarationKeywords, List.map_cons, List.map_nil, List.mem_cons, List.not_mem_nil,
    or_false] at listed
  obtain named | used := listed
  · rw [named] at folded
    exact absurd folded (by decide)
  · rw [used] at folded
    exact absurd folded (by decide)

theorem keyword_append (read : Declaration.read? found = some d) :
    d.keyword ++ found.drop d.keyword.length = found := by
  refine List.prefix_iff_eq_append.mp (List.IsPrefix.trans ?_ (Declaration.read_sound read).2)
  rw [Declaration.text, List.append_assoc, List.append_assoc]
  exact List.prefix_append _ _

theorem source_segmentsOf (piece : Piece) :
    (segmentsOf piece).flatMap Segment.source = piece.source := by
  cases piece with
  | kept c => rfl
  | hit found =>
      rw [segmentsOf, Piece.source]
      split
      · rename_i d read
        simp [Segment.source, keyword_append read]
      · simp [Segment.source]

theorem target_segmentsOf (piece : Piece) :
    (segmentsOf piece).flatMap Segment.target = piece.substitute bareKeyword := by
  cases piece with
  | kept c => rfl
  | hit found =>
      cases read : Declaration.read? found <;>
        simp [segmentsOf, Piece.substitute, bareKeyword, read, Segment.target]

theorem keepsLines_segmentsOf (piece : Piece) : ∀ s ∈ segmentsOf piece, s.KeepsLines := by
  cases piece with
  | kept c => simp [segmentsOf, Segment.keepsLines_copied]
  | hit found =>
      cases read : Declaration.read? found with
      | none => simp [segmentsOf, read, Segment.keepsLines_copied]
      | some d =>
          have whole := congrArg newlines (keyword_append read)
          rw [newlines_append, newlines_keyword (Declaration.read_sound read).1, Nat.zero_add] at whole
          have replaced : newlines (';' :: keepNewlines found) = newlines found := by
            rw [← newlines_keepNewlines found]
            exact (newlines_append [';'] _).trans (Nat.zero_add _)
          simp [segmentsOf, read, Segment.KeepsLines, Segment.target, Segment.source, replaced,
            whole]

theorem source_declarationSegments (t : Text) :
    (declarationSegments t).flatMap Segment.source = t := by
  rw [declarationSegments, List.flatMap_assoc]
  simp only [source_segmentsOf, flatMap_source_cut]

theorem target_declarationSegments (t : Text) :
    (declarationSegments t).flatMap Segment.target = neutralizeDeclarations t := by
  rw [declarationSegments, List.flatMap_assoc, neutralizeDeclarations, substitute]
  simp only [target_segmentsOf]

theorem keepsLines_declarationSegments (t : Text) :
    ∀ s ∈ declarationSegments t, s.KeepsLines := by
  intro s mem
  obtain ⟨piece, -, here⟩ := List.mem_flatMap.mp mem
  exact keepsLines_segmentsOf piece s here

end Declaration

theorem source_directiveSegments (t : Text) :
    (directiveSegments t).flatMap Segment.source = t := by
  rw [directiveSegments]
  split
  · dsimp only
    generalize 5 + blankLength (t.drop 5) = head
    split
    · simp only [List.flatMap_cons, List.flatMap_nil, Segment.source, List.append_nil]
      rw [← List.drop_drop, List.take_append_drop, List.take_append_drop]
    · exact List.append_nil t
  · exact List.append_nil t

theorem target_directiveSegments (t : Text) :
    (directiveSegments t).flatMap Segment.target = stripLeadingDeclare t := by
  rw [directiveSegments, stripLeadingDeclare]
  split
  · dsimp only
    cases declareLength? (t.drop (5 + blankLength (t.drop 5))) with
    | none => exact List.append_nil t
    | some n => simp [Segment.target]
  · exact List.append_nil t

theorem keepsLines_directiveSegments (t : Text) : ∀ s ∈ directiveSegments t, s.KeepsLines := by
  rw [directiveSegments]
  split
  · dsimp only
    split
    · simp [Segment.KeepsLines, Segment.target, Segment.source, newlines_keepNewlines]
    · simp [Segment.keepsLines_copied]
  · simp [Segment.keepsLines_copied]

/-- A character at offset `i` of a text is copied to offset `k` of the neutral text. -/
def IsCopied (t : Text) (i k : Nat) : Prop :=
  ∃ j, Copies (declarationSegments t) i j ∧ Copies (directiveSegments (neutralizeDeclarations t)) j k

/-- What is copied to the neutral text stays on its line. -/
theorem IsCopied.newlines {i k : Nat} (copied : IsCopied t i k) :
    Text.newlines ((neutralize t).take k) = Text.newlines (t.take i) := by
  obtain ⟨j, first, second⟩ := copied
  have declarations := first.newlines (keepsLines_declarationSegments t)
  have directive := second.newlines (keepsLines_directiveSegments _)
  rw [target_directiveSegments, source_directiveSegments] at directive
  rw [target_declarationSegments, source_declarationSegments] at declarations
  rw [neutralize, directive, declarations]

theorem IsCopied.getElem {i k : Nat} (copied : IsCopied t i k) :
    ∃ c, t[i]? = some c ∧ (neutralize t)[k]? = some c := by
  obtain ⟨j, first, second⟩ := copied
  obtain ⟨c, here, there⟩ := first.getElem
  obtain ⟨d, here', there'⟩ := second.getElem
  rw [source_declarationSegments] at here
  rw [target_declarationSegments] at there
  rw [source_directiveSegments, there, Option.some.injEq] at here'
  subst here'
  rw [target_directiveSegments] at there'
  exact ⟨c, here, there'⟩

/-- Neutralising keeps the number of line feeds. -/
theorem newlines_neutralize (t : Text) : (neutralize t).newlines = t.newlines := by
  have declarations := newlines_target (keepsLines_declarationSegments t)
  have directive := newlines_target (keepsLines_directiveSegments (neutralizeDeclarations t))
  rw [target_directiveSegments, source_directiveSegments] at directive
  rw [target_declarationSegments, source_declarationSegments] at declarations
  rw [neutralize, directive, declarations]

end PhpGate.Source
