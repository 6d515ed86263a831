import Mathlib.Data.List.Basic
import PhpGate.Proofs.Source.Stripping

/-!
Both filters one after the other, seen from the lexer. What is left without comments holds quotes
only where a string of the lexer stands, so emptying strings in it goes lexeme by lexeme as well.
-/

namespace PhpGate

open Text Source

namespace Lexeme

/-- What is left of a lexeme without comments: nothing of a line comment, the line feeds of a block
comment and all of anything else. -/
def uncommented (l : Lexeme) : Text :=
  match l.terminal with
  | .lineComment => []
  | .blockComment => keepNewlines l.text
  | _ => l.text

/-- What is left of a lexeme without comments and with empty strings: of a string its quotes around
its line feeds. -/
def blanked (l : Lexeme) : Text :=
  match l.terminal with
  | .singleQuoted => '\'' :: (keepNewlines l.text ++ ['\''])
  | .doubleQuoted => '"' :: (keepNewlines l.text ++ ['"'])
  | _ => l.uncommented

theorem blanked_of_quote {k : Terminal} {q : Char} {w : Text} (string : k.quote? = some q) :
    blanked ⟨k, w⟩ = q :: (keepNewlines w ++ [q]) := by
  cases k with
  | singleQuoted | doubleQuoted =>
      cases string
      rfl
  | _ => cases string

theorem blanked_of_unquoted {l : Lexeme} (code : l.terminal.quote? = none) :
    l.blanked = l.uncommented := by
  obtain ⟨k, w⟩ := l
  cases k with
  | singleQuoted | doubleQuoted => cases code
  | _ => rfl

theorem uncommented_of_not_comment {l : Lexeme} (code : l.isComment = false) :
    l.uncommented = l.text := by
  obtain ⟨k, w⟩ := l
  cases k with
  | lineComment | blockComment => cases code
  | _ => rfl

end Lexeme

variable {before t r w : Text} {k : Terminal} {ls : List Lexeme}

/-- A line comment holds no line feed, so nothing is left of it. -/
theorem stripped_eq_uncommented
    (first : Terminal.first? before (w ++ r) = some (k, w.length)) :
    Lexeme.stripped ⟨k, w⟩ = Lexeme.uncommented ⟨k, w⟩ := by
  cases k with
  | lineComment =>
      obtain ⟨-, -, -, found, -⟩ := Terminal.first_eq_some_iff.mp first
      rw [Lexeme.stripped_of_comment rfl, keepNewlines, newlines_of_lineComment found]
      rfl
  | _ => rfl

theorem unquoted_of_isPlain {c : Char} (h : isPlain c = true) : c ≠ '\'' ∧ c ≠ '"' := by
  simp only [isPlain, Bool.and_eq_true, bne_iff_ne] at h
  exact ⟨h.1.1.1, h.1.1.2⟩

theorem unquoted_of_opensNothing {c : Char} (h : opensNothing t = true) (mem : c ∈ t) :
    c ≠ '\'' ∧ c ≠ '"' := by
  induction t with
  | nil => cases mem
  | cons d t ih =>
      simp only [opensNothing, Bool.and_eq_true, Bool.or_eq_true, beq_iff_eq] at h
      obtain rfl | later := List.mem_cons.mp mem
      · obtain plain | ⟨rfl, -⟩ := h.1
        · exact unquoted_of_isPlain plain
        · decide
      · exact ih h.2 later

theorem unquoted_of_continuesOperator {c : Char} {next : Option Char}
    (h : continuesOperator c next = true) : c ≠ '\'' ∧ c ≠ '"' := by
  constructor <;>
  · rintro rfl
    cases h

/-- Outside strings no quote is left. -/
theorem unquoted_uncommented (legible : Lexeme.isLegible ⟨k, w⟩ = true)
    (first : Terminal.first? before (w ++ r) = some (k, w.length)) (code : k.quote? = none) :
    ∀ c ∈ Lexeme.uncommented ⟨k, w⟩, c ≠ '\'' ∧ c ≠ '"' := by
  intro c mem
  obtain (⟨q, string⟩ | rfl | rfl) | other := matched_cases k
  · rw [code] at string
    cases string
  · cases mem
  · obtain rfl := List.eq_of_mem_replicate mem
    decide
  · rw [Lexeme.uncommented_of_not_comment (by simp [Lexeme.isComment, other])] at mem
    obtain ⟨u, v, split⟩ := List.append_of_mem mem
    obtain plain | goesOn | ⟨rfl, -⟩ | quiet := code_cases legible first other split
    · exact unquoted_of_isPlain plain
    · exact unquoted_of_continuesOperator goesOn
    · decide
    · exact unquoted_of_opensNothing quiet (by simp)

/-- A string of the lexer is one match of the filter, and its quotes stay around its line feeds. -/
theorem string_at {q : Char} (legible : Lexeme.isLegible ⟨k, w⟩ = true)
    (first : Terminal.first? before (w ++ r) = some (k, w.length)) (string : k.quote? = some q)
    (before' r' : Text) :
    stringPattern before' (w ++ r') = some w.length ∧ emptyString w = Lexeme.blanked ⟨k, w⟩ := by
  obtain ⟨v, rfl, whole⟩ := quotedLength_of_isLegible legible first string
  have quote := Terminal.quote_eq_some string
  refine ⟨stringLength_append quote whole r', ?_⟩
  have last := (quotedLength_take (quote_plain quote) whole).2
  rw [List.take_length] at last
  rw [Lexeme.blanked_of_quote string, emptyString, List.getLast?_cons, last]
  simp

/-- Emptying strings goes lexeme by lexeme in what is left without comments, whatever stands behind
the last one. -/
theorem Takes.cut_strings (takes : Takes before ls r) (legible : ∀ l ∈ ls, l.isLegible = true)
    (before' r' : Text) :
    ∃ pieces, cutAfter stringPattern before' 0 (ls.flatMap Lexeme.uncommented ++ r')
        = pieces ++ cutAfter stringPattern ((ls.flatMap Lexeme.uncommented).reverse ++ before') 0 r' ∧
      pieces.flatMap Piece.source = ls.flatMap Lexeme.uncommented ∧
      pieces.flatMap (Piece.substitute emptyString) = ls.flatMap Lexeme.blanked := by
  induction ls generalizing before before' with
  | nil => exact ⟨[], rfl, rfl, rfl⟩
  | cons l ls ih =>
      obtain ⟨k, w⟩ := l
      obtain ⟨first, later⟩ := takes
      obtain ⟨here, others⟩ := List.forall_mem_cons.mp legible
      obtain ⟨pieces, cut, source, left⟩ :=
        ih later others ((Lexeme.uncommented ⟨k, w⟩).reverse ++ before')
      rw [List.flatMap_cons, List.flatMap_cons, List.append_assoc, List.reverse_append,
        List.append_assoc]
      cases string : k.quote? with
      | some q =>
          have text := Lexeme.uncommented_of_not_comment (isComment_of_quote (w := w) string)
          obtain ⟨found, emptied⟩ :=
            string_at here first string before' (ls.flatMap Lexeme.uncommented ++ r')
          have nonempty : w ≠ [] := List.length_pos_iff.mp (Terminal.first_fits first).1
          rw [text] at cut ⊢
          refine ⟨.hit w :: pieces, ?_, ?_, ?_⟩
          · rw [cutAfter_hit nonempty found, cut, List.cons_append]
          · rw [List.flatMap_cons, source, Piece.source]
          · rw [List.flatMap_cons, left, Piece.substitute, emptied]
      | none =>
          have unquoted := unquoted_uncommented here first string
          refine ⟨(Lexeme.uncommented ⟨k, w⟩).map .kept ++ pieces, ?_, ?_, ?_⟩
          · rw [cutAfter_kept, cut, List.append_assoc]
            intro u c v split
            have mem : c ∈ Lexeme.uncommented ⟨k, w⟩ := by simp [split]
            simp [stringPattern, stringLength?, unquoted c mem]
          · rw [List.flatMap_append, source, flatMap_source_kept]
          · rw [List.flatMap_append, left, flatMap_substitute_kept, Lexeme.blanked_of_unquoted string]

/-- On legible code the first filter takes out the comments of the lexer, but for the line feeds of
a block comment. -/
theorem IsLegible.stripComments_eq_flatMap_uncommented (h : IsLegible t) :
    stripComments t = (Lexing.of t).lexemes.flatMap Lexeme.uncommented := by
  rw [h.stripComments_eq]
  refine List.flatMap_congr fun l mem => ?_
  obtain ⟨before, r, first⟩ := (Lexes.of t).first_of_mem mem
  exact stripped_eq_uncommented first

/-- On legible code both filters together take out the comments and empty the strings. -/
theorem IsLegible.blankStrings_eq (h : IsLegible t) :
    blankStrings (stripComments t) = (Lexing.of t).lexemes.flatMap Lexeme.blanked := by
  obtain ⟨pieces, cut, -, left⟩ := (Lexes.of t).takes.cut_strings h.lexemes [] []
  rw [List.append_nil] at cut
  rw [h.stripComments_eq_flatMap_uncommented, blankStrings, substitute, Text.cut, cut, cutAfter,
    List.append_nil, left]

/-- On ordinary code the filters agree with the lexer: the first gives back every lexeme, line
comments without a trace and block comments as their line feeds, and the second leaves of each
string its quotes around its line feeds. -/
theorem stripComments_eq_and_blankStrings_eq (h : IsOrdinary t) :
    stripComments t = (Lexing.of t).lexemes.flatMap Lexeme.uncommented ∧
      blankStrings (stripComments t) = (Lexing.of t).lexemes.flatMap Lexeme.blanked :=
  ⟨h.isLegible.stripComments_eq_flatMap_uncommented, h.isLegible.blankStrings_eq⟩

/-- A comment sign within a string and a quote within a comment. -/
theorem stripComments_and_blankStrings_call :
    stripComments "<?php f('/*\\'', /* \"\n */ \"#\n'\"); // '".toList
        = "<?php f('/*\\'', \n \"#\n'\"); ".toList ∧
      blankStrings (stripComments "<?php f('/*\\'', /* \"\n */ \"#\n'\"); // '".toList)
        = "<?php f('', \n \"\n\"); ".toList := by
  have spec := stripComments_eq_and_blankStrings_eq
    (t := "<?php f('/*\\'', /* \"\n */ \"#\n'\"); // '".toList) ⟨rfl, by decide⟩
  exact ⟨spec.1.trans rfl, spec.2.trans rfl⟩

end PhpGate
