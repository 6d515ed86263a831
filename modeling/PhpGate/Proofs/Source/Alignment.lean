import PhpGate.Proofs.Source.Blanking
import PhpGate.Proofs.Source.Rewriting

/-!
The four rewritings of raw text in segments: comments go, strings are emptied, declarations are cut
down to their keyword and a directive behind the open tag goes. Each copies a text but for the parts
it is made for, and leaves as many line feeds in the place of such a part as it had, so whatever is
copied stays on its line.
-/

namespace PhpGate

open Text Source

inductive Rewriting where
  | comments | strings | declarations | directive
  deriving Repr, DecidableEq

/-- Strings are copied and comments replaced. -/
def commentSegmentsOf : Piece → List Segment
  | .kept c => [.copied [c]]
  | .hit w =>
      if w.head? = some '\'' ∨ w.head? = some '"' then [.copied w] else [.replaced w (dropComment w)]

/-- The quotes of a string are copied and what stands between them replaced. -/
def stringSegmentsOf : Piece → List Segment
  | .kept c => [.copied [c]]
  | .hit w =>
      let body := w.tail.dropLast
      [.copied w.head?.toList, .replaced body (keepNewlines body), .copied w.getLast?.toList]

section Matches

variable {t w : Text}

/-- A match that the first filter takes out of a text is a comment if it starts with no quote. -/
theorem comment_of_hit (hit : .hit w ∈ cut commentOrStringPattern t)
    (unquoted : ¬ (w.head? = some '\'' ∨ w.head? = some '"')) :
    ∃ r, blockCommentLength? (w ++ r) = some w.length ∨
      lineCommentLength? (w ++ r) = some w.length := by
  obtain ⟨u, s, n, -, found, rfl⟩ := exists_of_mem_cutAfter hit
  obtain ⟨w, r, rfl, rfl, string | comment⟩ := exists_of_commentOrString found
  · rw [List.take_left] at unquoted
    obtain ⟨q, v, rfl, quote, -⟩ := string
    exact absurd (quote.imp (congrArg some) (congrArg some)) unquoted
  · rw [List.take_left]
    exact ⟨r, comment⟩

theorem isString_of_hit (hit : .hit w ∈ cut stringPattern t) : IsString w := by
  obtain ⟨u, s, n, -, found, rfl⟩ := exists_of_mem_cutAfter hit
  exact isString_take found

/-- A string stands between two quotes, and these are no line feeds. -/
theorem IsString.exists_body (string : IsString w) :
    ∃ q body, w = q :: (body ++ [q]) ∧ keepNewlines w = keepNewlines body := by
  obtain ⟨q, v, rfl, quote, whole⟩ := string
  have last := (quotedLength_take (quote_plain quote) whole).2
  rw [List.take_length] at last
  obtain ⟨body, rfl⟩ := List.getLast?_eq_some_iff.mp last
  refine ⟨q, body, rfl, ?_⟩
  have visible : q ≠ '\n' := by obtain rfl | rfl := quote <;> decide
  simp [keepNewlines, newlines, visible]

/-- A match of the declarations is the text of one. -/
theorem exists_of_hit_declaration (hit : .hit w ∈ cut Declaration.pattern t) :
    ∃ d, Declaration.read? w = some d ∧ w = d.text := by
  obtain ⟨u, s, n, -, found, rfl⟩ := exists_of_mem_cutAfter hit
  obtain ⟨-, d, read, rfl⟩ := Declaration.pattern_eq_some_iff.mp found
  obtain ⟨wellFormed, stands⟩ := Declaration.read_sound read
  rw [← List.prefix_iff_eq_take.mp stands]
  exact ⟨d, Declaration.read_complete wellFormed (List.prefix_refl _), rfl⟩

theorem declareLength_le {n : Nat} (found : declareLength? t = some n) : n ≤ t.length := by
  simp only [declareLength?, Option.ite_none_right_eq_some, Option.some.injEq] at found
  obtain ⟨-, -, -, close, rfl⟩ := found
  rw [List.head?_drop] at close
  exact (List.getElem?_eq_some_iff.mp close).1

end Matches

namespace Rewriting

def apply : Rewriting → Text → Text
  | comments => stripComments
  | strings => blankStrings
  | declarations => neutralizeDeclarations
  | directive => stripLeadingDeclare

def segments : Rewriting → Text → List Segment
  | comments, t => (cut commentOrStringPattern t).flatMap commentSegmentsOf
  | strings, t => (cut stringPattern t).flatMap stringSegmentsOf
  | declarations, t => declarationSegments t
  | directive, t => directiveSegments t

/-- What each rewriting puts in the place of which part. Nothing is left of a line comment, and the
line feeds of anything else, behind a semicolon if it is a declaration. -/
inductive Replaces : Rewriting → (old new : Text) → Prop
  | blockComment {w r : Text} (found : blockCommentLength? (w ++ r) = some w.length) :
      Replaces comments w (keepNewlines w)
  | lineComment {w r : Text} (found : lineCommentLength? (w ++ r) = some w.length) :
      Replaces comments w []
  | body {q : Char} {w : Text} (string : IsString (q :: (w ++ [q]))) :
      Replaces strings w (keepNewlines w)
  | declaration {d : Declaration} (wellFormed : d.IsWellFormed) :
      Replaces declarations (d.space ++ (d.path ++ d.tail)) (';' :: keepNewlines d.text)
  | directive {w r : Text} (found : declareLength? (w ++ r) = some w.length) :
      Replaces directive w (keepNewlines w)

variable {rewriting : Rewriting} {t old new w : Text}

theorem Replaces.newlines (replaces : rewriting.Replaces old new) :
    Text.newlines new = Text.newlines old := by
  cases replaces with
  | blockComment | body | directive => exact newlines_keepNewlines _
  | lineComment found => exact (newlines_of_lineComment found).symm
  | @declaration d wellFormed =>
      calc Text.newlines (';' :: keepNewlines d.text)
          = Text.newlines d.text := by
            rw [← newlines_keepNewlines d.text]
            exact (newlines_append [';'] _).trans (Nat.zero_add _)
        _ = Text.newlines (d.space ++ (d.path ++ d.tail)) := by
            rw [Declaration.text, List.append_assoc, List.append_assoc, newlines_append,
              newlines_keyword wellFormed, Nat.zero_add]

theorem rewrites_comments (t : Text) :
    Rewrites comments.Replaces (comments.segments t) t (stripComments t) := by
  have each : ∀ piece ∈ cut commentOrStringPattern t, Rewrites comments.Replaces
      (commentSegmentsOf piece) piece.source (piece.substitute dropComment) := by
    intro piece mem
    cases piece with
    | kept c => exact .copied [c]
    | hit w =>
        rw [commentSegmentsOf, Piece.source, Piece.substitute]
        split
        · rename_i quoted
          rw [dropComment, if_pos quoted]
          exact .copied w
        · rename_i unquoted
          obtain ⟨r, comment⟩ := comment_of_hit mem unquoted
          obtain ⟨-, feeds⟩ := commentOrString_of_comment comment []
          rw [feeds]
          refine .replaced_one ?_
          obtain block | line := comment
          · exact .blockComment block
          · rw [keepNewlines, newlines_of_lineComment line]
            exact .lineComment line
  have whole := Rewrites.flatMap each
  rwa [flatMap_source_cut] at whole

theorem rewrites_strings (t : Text) :
    Rewrites strings.Replaces (strings.segments t) t (blankStrings t) := by
  have each : ∀ piece ∈ cut stringPattern t, Rewrites strings.Replaces
      (stringSegmentsOf piece) piece.source (piece.substitute emptyString) := by
    intro piece mem
    cases piece with
    | kept c => exact .copied [c]
    | hit w =>
        have string := isString_of_hit mem
        obtain ⟨q, body, rfl, feeds⟩ := string.exists_body
        have last : (q :: (body ++ [q])).getLast? = some q := by
          rw [← List.cons_append, List.getLast?_concat]
        have parts : stringSegmentsOf (.hit (q :: (body ++ [q])))
            = [.copied [q], .replaced body (keepNewlines body), .copied [q]] := by
          simp [stringSegmentsOf, last]
        rw [parts]
        refine ⟨rfl, ?_, ?_⟩
        · simp [Segment.target, Piece.substitute, emptyString, feeds, last]
        · rintro u v listed
          obtain ⟨rfl, rfl⟩ : u = body ∧ v = keepNewlines body := by simpa using listed
          exact .body string
  have whole := Rewrites.flatMap each
  rwa [flatMap_source_cut] at whole

theorem rewrites_declarations (t : Text) :
    Rewrites declarations.Replaces (declarations.segments t) t (neutralizeDeclarations t) where
  source := source_declarationSegments t
  target := target_declarationSegments t
  replaced := by
    intro u v mem
    obtain ⟨piece, hit, here⟩ := List.mem_flatMap.mp mem
    cases piece with
    | kept c => simp [segmentsOf] at here
    | hit w =>
        obtain ⟨d, read, rfl⟩ := exists_of_hit_declaration hit
        obtain ⟨rfl, rfl⟩ : u = d.text.drop d.keyword.length ∧ v = ';' :: keepNewlines d.text := by
          simpa [segmentsOf, read] using here
        have rest : d.text.drop d.keyword.length = d.space ++ (d.path ++ d.tail) := by
          rw [Declaration.text, List.append_assoc, List.append_assoc, List.drop_left]
        rw [rest]
        exact .declaration (Declaration.read_sound read).1

theorem rewrites_directive (t : Text) :
    Rewrites directive.Replaces (directive.segments t) t (stripLeadingDeclare t) where
  source := source_directiveSegments t
  target := target_directiveSegments t
  replaced := by
    intro u v mem
    rw [segments, directiveSegments] at mem
    split at mem
    · dsimp only at mem
      split at mem
      · rename_i n found
        obtain ⟨rfl, rfl⟩ : u = _ ∧ v = _ := by simpa using mem
        refine .directive (r := (t.drop (5 + blankLength (t.drop 5))).drop n) ?_
        rw [List.take_append_drop, found, List.length_take_of_le (declareLength_le found)]
      · simp at mem
    · simp at mem

theorem rewrites (rewriting : Rewriting) (t : Text) :
    Rewrites rewriting.Replaces (rewriting.segments t) t (rewriting.apply t) := by
  cases rewriting with
  | comments => exact rewrites_comments t
  | strings => exact rewrites_strings t
  | declarations => exact rewrites_declarations t
  | directive => exact rewrites_directive t

end Rewriting

/-- Each rewriting copies segments of a text and puts in the place of the others as many line feeds
as they hold, so a character that is copied stays on its line. -/
theorem rewriting_keepsLines (rewriting : Rewriting) (t : Text) :
    Rewrites rewriting.Replaces (rewriting.segments t) t (rewriting.apply t) ∧
      (∀ s ∈ rewriting.segments t, s.KeepsLines) ∧
      ∀ i j, Copies (rewriting.segments t) i j →
        (∃ c, t[i]? = some c ∧ (rewriting.apply t)[j]? = some c) ∧
          newlines ((rewriting.apply t).take j) = newlines (t.take i) := by
  have rewrites := rewriting.rewrites t
  have keep := rewrites.keepsLines fun _ _ replaces => replaces.newlines
  refine ⟨rewrites, keep, fun i j copies => ?_⟩
  have same := copies.getElem
  have line := copies.newlines keep
  rw [rewrites.source, rewrites.target] at same line
  exact ⟨same, line⟩

/-- A character behind a comment over two lines, with a comment sign in a string before. -/
theorem rewriting_keepsLines_comments :
    Copies (Rewriting.comments.segments "'/*'/*\n*/b//c".toList) 9 5 ∧
      Segment.replaced "//c".toList [] ∈ Rewriting.comments.segments "'/*'/*\n*/b//c".toList ∧
      (Segment.replaced "//c".toList []).KeepsLines ∧
      newlines ((stripComments "'/*'/*\n*/b//c".toList).take 5)
        = newlines ("'/*'/*\n*/b//c".toList.take 9) := by
  have parts : Rewriting.comments.segments "'/*'/*\n*/b//c".toList
      = [.copied "'/*'".toList, .replaced "/*\n*/".toList ['\n'], .copied ['b'],
          .replaced "//c".toList []] := by decide +kernel
  have copied : Copies (Rewriting.comments.segments "'/*'/*\n*/b//c".toList) 9 5 :=
    ⟨[.copied "'/*'".toList, .replaced "/*\n*/".toList ['\n']], [], 'b', [],
      [.replaced "//c".toList []], parts, rfl, rfl⟩
  have listed : Segment.replaced "//c".toList []
      ∈ Rewriting.comments.segments "'/*'/*\n*/b//c".toList := by
    rw [parts]
    simp
  obtain ⟨-, keep, copies⟩ := rewriting_keepsLines .comments "'/*'/*\n*/b//c".toList
  exact ⟨copied, listed, keep _ listed, (copies 9 5 copied).2⟩

end PhpGate
