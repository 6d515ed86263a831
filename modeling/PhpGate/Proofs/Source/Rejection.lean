import PhpGate.Proofs.Source.Blanking
import PhpGate.Proofs.Source.Declaration
import PhpGate.Proofs.Token.Keyword
import PhpGate.Token.Report

/-!
Where a rejected declaration comes from. It begins in a name of the lexer or in text that the lexer
takes for no code, never in a string, a comment or any other token.
-/

namespace PhpGate

open Text Source Declaration

/-- The lexemes in which a declaration of the filtered text can begin, seen with those behind. -/
inductive CanDeclare : Lexeme → List Lexeme → Prop
  /-- The keyword itself. -/
  | word {w back} (keyword : w.map foldCase ∈ declarationKeywords) : CanDeclare ⟨.name, w⟩ back
  /-- The beginning of a keyword, which a comment that leaves no trace cuts in two. -/
  | joined {w rest comment back} (proper : rest ≠ [])
      (keyword : w.map foldCase ++ rest ∈ declarationKeywords) (traceless : comment.newlines = 0) :
      CanDeclare ⟨.name, w⟩ (⟨.blockComment, comment⟩ :: back)
  /-- A name with a character in it that the filter takes for none of a name. -/
  | sign {k w c back} (named : k = .name ∨ k = .variableName) (mem : c ∈ w)
      (strange : continuesName c = false) : CanDeclare ⟨k, w⟩ back
  /-- Text that is no code to the lexer and code to the filters. -/
  | unread {k w back} (text : k = .inlineHtml ∨ k = .heredoc ∨ k = .backtick) :
      CanDeclare ⟨k, w⟩ back

/-- A declaration of the filtered text begins in a lexeme: behind no name that goes on, some of what
is left of the lexeme and of those behind it reads as the declaration. -/
def BeginsIn (d : Declaration) (front : List Lexeme) (l : Lexeme) (back : List Lexeme) : Prop :=
  ∃ u v, l.blanked = u ++ v ∧ v ≠ [] ∧
    (front.flatMap Lexeme.blanked ++ u).getLast?.any continuesName = false ∧
    read? (v ++ back.flatMap Lexeme.blanked) = some d

variable {before t u v w r : Text} {k : Terminal} {l : Lexeme} {ls front back : List Lexeme}
  {d : Declaration}

theorem lexicalReport_eq_none_iff : lexicalReport? t = .ok none ↔ (Lexing.of t).complete = true := by
  rw [lexicalReport?, Lexing.stop?, Lexing.complete, List.isEmpty_iff]
  cases (Lexing.of t).rest with
  | nil => simp
  | cons c r =>
      simp only [List.head?_cons, Option.map_some, reduceCtorEq, iff_false]
      intro h
      cases described : LexicalReport.ofDescription _ with
      | error fault => rw [described] at h; cases h
      | ok report => rw [described] at h; cases h

/-- What is left of a lexeme that is no comment begins as the lexeme does. -/
theorem head_blanked (legible : Lexeme.isLegible ⟨k, w⟩ = true)
    (first : Terminal.first? before (w ++ r) = some (k, w.length))
    (code : Lexeme.isComment ⟨k, w⟩ = false) : (Lexeme.blanked ⟨k, w⟩).head? = w.head? := by
  cases string : k.quote? with
  | some q =>
      obtain ⟨v, rfl, -⟩ := quotedLength_of_isLegible legible first string
      rw [Lexeme.blanked_of_quote string]
      rfl
  | none =>
      rw [Lexeme.blanked_of_unquoted string, Lexeme.uncommented_of_not_comment code]

/-- What is left of a run without its comments begins as its text does, unless a comment stands
there. -/
theorem Lexes.head_flatMap_blanked (run : Lexes before t ls [])
    (legible : ∀ l ∈ ls, l.isLegible = true) :
    ls = [] ∨ (∃ l later, ls = l :: later ∧ l.isComment = true) ∨
      (ls.flatMap Lexeme.blanked).head? = t.head? := by
  cases run with
  | stop => exact .inl rfl
  | @take _ w r _ k ls first later =>
      cases code : Lexeme.isComment ⟨k, w⟩ with
      | true => exact .inr (.inl ⟨_, _, rfl, code⟩)
      | false =>
          have head := head_blanked (legible _ List.mem_cons_self) first code
          obtain ⟨c, v, rfl⟩ := List.exists_cons_of_length_pos (Terminal.first_fits first).1
          refine .inr (.inr ?_)
          rw [List.flatMap_cons, List.head?_append, head]
          rfl

/-- Behind a line comment no letter is left. -/
theorem not_letter_of_lineComment {c : Char} (found : lineCommentLength? (w ++ r) = some w.length)
    (later : Lexes before r back []) (legible : ∀ l ∈ back, l.isLegible = true)
    (head : (back.flatMap Lexeme.blanked).head? = some c) : (foldCase c).isLower = false := by
  obtain rfl | ⟨l, back, rfl, comment⟩ | same := later.head_flatMap_blanked legible
  · cases head
  · cases later with
    | take first later =>
        obtain ⟨e, v, text, sign⟩ := Lexeme.comment_sign comment first
        dsimp only at text
        subst text
        have stops := lineCommentLength_stop found
        obtain rfl | rfl := sign <;> simp at stops
  · obtain ⟨r, rfl⟩ := List.head?_eq_some_iff.mp (same.symm.trans head)
    obtain rfl | rfl | rfl := lineCommentLength_stop found <;> rfl

/-- Behind a name no letter is left but for a block comment between them without a line feed. -/
theorem comment_of_head_blanked {c : Char}
    (first : Terminal.first? before (w ++ r) = some (.name, w.length))
    (later : Lexes (w.reverse ++ before) r back []) (legible : ∀ l ∈ back, l.isLegible = true)
    (head : (back.flatMap Lexeme.blanked).head? = some c) (letter : (foldCase c).isLower = true) :
    ∃ comment back', back = ⟨.blockComment, comment⟩ :: back' ∧ comment.newlines = 0 := by
  obtain rfl | ⟨⟨k, u⟩, back, rfl, comment⟩ | same := later.head_flatMap_blanked legible
  · cases head
  · cases k with
    | blockComment =>
        refine ⟨u, back, rfl, ?_⟩
        cases feeds : u.newlines with
        | zero => rfl
        | succ n =>
            simp only [List.flatMap_cons, Lexeme.blanked, Lexeme.uncommented, keepNewlines, feeds,
              List.replicate_succ, List.cons_append, List.head?_cons, Option.some.injEq] at head
            subst head
            cases letter
    | lineComment =>
        cases later with
        | take first later =>
            obtain ⟨-, -, -, found, -⟩ := Terminal.first_eq_some_iff.mp first
            have other := not_letter_of_lineComment found later (List.forall_mem_cons.mp legible).2 head
            rw [letter] at other
            cases other
    | _ => cases comment
  · obtain ⟨r, rfl⟩ := List.head?_eq_some_iff.mp (same.symm.trans head)
    obtain ⟨-, -, -, found, -⟩ := Terminal.first_eq_some_iff.mp first
    have stop := nameLength_stop found
    rw [isIdentifierStart_of_foldCase letter] at stop
    cases stop

/-- The keyword of a declaration stands at the start of its text, and white space behind it. -/
theorem keyword_of_read (h : read? t = some d) :
    ∃ b r, t = d.keyword ++ b :: r ∧ isBlank b = true ∧
      d.keyword.map foldCase ∈ declarationKeywords := by
  obtain ⟨wellFormed, r, rfl⟩ := read_eq_some_iff.mp h
  obtain ⟨spaced, blanks⟩ := wellFormed.space
  obtain ⟨b, space, e⟩ := List.exists_cons_of_ne_nil spaced
  rw [e, List.all_cons, Bool.and_eq_true] at blanks
  exact ⟨b, _, by simp only [Declaration.text, e, List.append_assoc, List.cons_append]; rfl,
    blanks.1, wellFormed.keyword⟩

theorem lower_of_keyword {word : Text} (listed : word ∈ declarationKeywords) :
    word.all Char.isLower = true ∧ word.head?.any (fun c => c == 'n' || c == 'u') = true := by
  revert word
  decide

theorem opensKeyword_of_read (h : read? t = some d) :
    ∃ c r, t = c :: r ∧ opensKeyword c = true := by
  obtain ⟨b, r, rfl, -, listed⟩ := keyword_of_read h
  have head := (lower_of_keyword listed).2
  cases keyword : d.keyword with
  | nil =>
      rw [keyword] at head
      cases head
  | cons c rest =>
      rw [keyword] at head
      exact ⟨c, _, rfl, head⟩

theorem beginsWith_of_read (h : read? t = some d) : beginsWith "ne".toList t = false := by
  obtain ⟨b, r, rfl, -, listed⟩ := keyword_of_read h
  have other : ∀ word ∈ declarationKeywords, 2 ≤ word.length ∧ word.take 2 ≠ "ne".toList := by
    decide
  obtain ⟨long, differs⟩ := other _ listed
  rw [List.length_map] at long
  rw [← Bool.not_eq_true, beginsWith_iff]
  intro begins
  rw [show "ne".toList.length = 2 from rfl, List.take_append_of_le_length long] at begins
  rw [← List.map_take] at differs
  exact differs begins

theorem continuesName_of_isBlank {c : Char} (blank : isBlank c = true) :
    continuesName c = false := by
  rw [continuesName, isWord_of_isBlank blank, Bool.false_or, Bool.or_eq_false_iff,
    beq_eq_false_iff_ne, beq_eq_false_iff_ne]
  constructor <;>
  · rintro rfl
    cases blank

/-- A declaration that begins where a name begins has its keyword in that name, or what a comment
left of it. -/
theorem canDeclare_name
    (first : Terminal.first? before (w ++ r) = some (.name, w.length))
    (later : Lexes (w.reverse ++ before) r back []) (legible : ∀ l ∈ back, l.isLegible = true)
    (h : read? (w ++ back.flatMap Lexeme.blanked) = some d) : CanDeclare ⟨.name, w⟩ back := by
  obtain ⟨b, s, split, blank, listed⟩ := keyword_of_read h
  obtain ⟨u, keyword, rest⟩ | ⟨u, rfl, rest⟩ := List.append_eq_append_iff.mp split
  · rw [keyword, List.map_append] at listed
    cases u with
    | nil => exact .word (by simpa using listed)
    | cons c u =>
        have letters := (lower_of_keyword listed).1
        rw [List.all_append, List.map_cons, List.all_cons, Bool.and_eq_true, Bool.and_eq_true]
          at letters
        obtain ⟨comment, back, rfl, traceless⟩ := comment_of_head_blanked first later legible
          (by rw [rest]; rfl) letters.2.1
        exact .joined (by simp) listed traceless
  · cases u with
    | nil => exact .word (by simpa using listed)
    | cons c u =>
        obtain rfl : b = c := (List.cons.inj rest).1
        exact .sign (.inl rfl) (by simp) (continuesName_of_isBlank blank)

theorem isWord_of_free (free : u.getLast?.any continuesName = false) :
    u.getLast?.any isWord = false := by
  rw [← Bool.not_eq_true] at free ⊢
  intro word
  apply free
  rw [Option.any_eq_true] at word ⊢
  obtain ⟨c, last, word⟩ := word
  exact ⟨c, last, continuesName_of_isWord word⟩

/-- Nothing that is left of a string or a comment begins a keyword. -/
theorem quiet_blanked (empty : (∃ q, k.quote? = some q) ∨ k = .lineComment ∨ k = .blockComment) :
    ∀ c ∈ Lexeme.blanked ⟨k, w⟩, opensKeyword c = false := by
  have feeds : ∀ c ∈ keepNewlines w, opensKeyword c = false := by
    intro c mem
    rw [List.eq_of_mem_replicate mem]
    decide
  intro c mem
  obtain ⟨q, string⟩ | rfl | rfl := empty
  · have quote : opensKeyword q = false := by
      obtain rfl | rfl := Terminal.quote_eq_some string <;> decide
    rw [Lexeme.blanked_of_quote string, List.mem_cons, List.mem_append, List.mem_singleton] at mem
    obtain rfl | mem | rfl := mem
    · exact quote
    · exact feeds c mem
    · exact quote
  · cases mem
  · exact feeds c mem

/-- A declaration can begin in a lexeme only if that lexeme can declare. -/
theorem canDeclare_of_read (here : Lexeme.isLegible ⟨k, w⟩ = true)
    (legible : ∀ l ∈ back, l.isLegible = true)
    (first : Terminal.first? before (w ++ r) = some (k, w.length))
    (later : Lexes (w.reverse ++ before) r back [])
    (text : Lexeme.blanked ⟨k, w⟩ = u ++ v) (nonempty : v ≠ [])
    (free : u.getLast?.any continuesName = false)
    (h : read? (v ++ back.flatMap Lexeme.blanked) = some d) : CanDeclare ⟨k, w⟩ back := by
  obtain ⟨c, v, rfl⟩ := List.exists_cons_of_ne_nil nonempty
  have opens : opensKeyword c = true := by
    obtain ⟨e, s, split, opens⟩ := opensKeyword_of_read h
    rwa [(List.cons.inj split).1]
  obtain empty | other := matched_cases k
  · have quiet := quiet_blanked (w := w) empty c (by rw [text]; simp)
    rw [opens] at quiet
    cases quiet
  · obtain rfl : w = u ++ c :: v := by
      rw [← text]
      cases k <;> first | rfl | simp at other
    obtain ⟨-, -, -, found, -⟩ := Terminal.first_eq_some_iff.mp first
    -- A keyword that begins in a closed text begins at its start or goes on with a word.
    have closedAt {starts : Bool} (closed : closedTo starts (u ++ c :: v) = true) :
        u = [] ∧ starts = false :=
      (closedTo_split closed opens).resolve_right (by simp [isWord_of_free free])
    cases k with
    | inlineHtml | heredoc | backtick => exact .unread (by simp)
    | name =>
        obtain rfl | ⟨u, e, rfl⟩ := List.eq_nil_or_concat u
        · exact canDeclare_name first later legible h
        · exact .sign (.inl rfl) (c := e) (by simp) (by simpa using free)
    | variableName =>
        obtain rfl | ⟨u, e, rfl⟩ := List.eq_nil_or_concat u
        · obtain rfl : c = '$' := Option.some.inj (variableLength_head found)
          exact absurd opens (by decide)
        · exact .sign (.inr rfl) (c := e) (by simp) (by simpa using free)
    | anonymousClass =>
        have closed := anonymousClassLength_closed found
        rw [List.take_left] at closed
        obtain ⟨rfl, -⟩ := closedAt closed.1
        rw [← beginsWith_append (v := back.flatMap Lexeme.blanked) (length_le_of_beginsWith closed.2),
          List.nil_append, beginsWith_of_read h] at closed
        cases closed.2
    | doubleQuoted | singleQuoted | lineComment | blockComment => simp at other
    | _ => cases (closedAt (Terminal.closed_of_length rfl found)).2

theorem CanDeclare.token (h : CanDeclare l back) : l.terminal.isTrivia = false := by
  cases h with
  | word | joined => rfl
  | sign named => obtain rfl | rfl := named <;> rfl
  | unread text => obtain rfl | rfl | rfl := text <;> rfl

theorem not_any_getLast_of_append {p : Char → Bool} (h : (u ++ v).getLast?.any p = false) :
    v.getLast?.any p = false := by
  cases last : v.getLast? with
  | none => rfl
  | some c =>
      rw [List.getLast?_append, last] at h
      exact h

theorem exists_declaring (complete : Lexes [] t ls []) (legible : ∀ l ∈ ls, l.isLegible = true)
    (text : ls.flatMap Lexeme.blanked = u ++ v) (free : u.getLast?.any continuesName = false)
    (h : read? v = some d) :
    ∃ front l back, ls = front ++ l :: back ∧ BeginsIn d front l back ∧ CanDeclare l back := by
  have nonempty : v ≠ [] := by
    obtain ⟨c, r, rfl, -⟩ := opensKeyword_of_read h
    exact List.cons_ne_nil c r
  obtain ⟨front, l, back, u, v, rfl, here, rest, rfl, rfl⟩ :=
    exists_of_flatMap_eq text nonempty
  obtain ⟨before, r, first, later⟩ := complete.exists_of_append
  refine ⟨front, l, back, rfl, ⟨u, v, here, rest, free, h⟩, ?_⟩
  simp only [List.mem_append, List.mem_cons] at legible
  exact canDeclare_of_read (legible l (by simp)) (fun m mem => legible m (by simp [mem])) first
    later here rest (not_any_getLast_of_append free) h

/-- A declaration that is rejected in a legible text begins in a token that can declare: in a
keyword, in the beginning of one that a comment cuts in two, in a name with a strange character, or
in text that is no code. -/
theorem exists_declaring_token {file : Option Text} {rejection : Rejection}
    (report : lexicalReport? t = .ok none)
    (legible : ∀ token ∈ tokens t, token.toLexeme.isLegible = true)
    (rejected : checkDeclarations (stripComments t) t file = .error rejection) :
    ∃ front token back d, (Lexing.of t).lexemes = front ++ token.toLexeme :: back ∧
      token ∈ tokens t ∧ CanDeclare token.toLexeme back ∧ BeginsIn d front token.toLexeme back ∧
      isValidPath d.path = false ∧
      rejection = Rejection.of .parse ("Error syntax on: \x60".toList ++ d.text ++ "\x60".toList)
        file (lineOf d.text t) := by
  have clear : IsLegible t := ⟨lexicalReport_eq_none_iff.mp report, legible⟩
  obtain ⟨u, s, d, text, free, read, invalid, rfl⟩ := checkDeclarations_eq_error rejected
  rw [clear.blankStrings_eq] at text
  have run := Lexes.of t
  rw [List.isEmpty_iff.mp clear.complete] at run
  obtain ⟨front, l, back, split, begins, declares⟩ :=
    exists_declaring run clear.lexemes text free read
  obtain ⟨token, mem, rfl⟩ := mem_tokens_iff.mpr ⟨by rw [split]; simp, declares.token⟩
  exact ⟨front, token, back, d, split, mem, declares, begins, invalid, rfl⟩

/-- A string is passed over and the declaration behind it rejected. -/
theorem exists_declaring_token_use :
    checkDeclarations (stripComments "<?php 'use 1;';\nuse 2;".toList)
        "<?php 'use 1;';\nuse 2;".toList none
      = .error (Rejection.of .parse "Error syntax on: \x60use 2;\x60".toList none 2) ∧
    ∃ token ∈ tokens "<?php 'use 1;';\nuse 2;".toList, ∃ back,
      CanDeclare token.toLexeme back := by
  have rejected : checkDeclarations (stripComments "<?php 'use 1;';\nuse 2;".toList)
        "<?php 'use 1;';\nuse 2;".toList none
      = .error (Rejection.of .parse "Error syntax on: \x60use 2;\x60".toList none 2) := by
    rfl
  obtain ⟨-, token, back, -, -, mem, declares, -⟩ :=
    exists_declaring_token rfl (by decide) rejected
  exact ⟨rejected, token, mem, back, declares⟩

/-- Texts without a name that is a keyword, rejected for one in a heredoc, in markup, in a command,
around a comment and behind a sign. -/
theorem rejected_without_keyword :
    (["<?php $a = <<<E\nuse 2;\nE;\n", "<?php f(); ?> use 2; <?php f();",
      "<?php \x60use 2;\x60;", "<?php us/**/e 2;", "<?php ×use 2;"].map String.toList).Forall fun t =>
        lexicalReport? t = .ok none ∧ (checkDeclarations (stripComments t) t none).isOk = false ∧
          ∀ token ∈ tokens t,
            ¬ (token.terminal = .name ∧ token.text.map foldCase ∈ declarationKeywords) := by
  decide +kernel

end PhpGate
