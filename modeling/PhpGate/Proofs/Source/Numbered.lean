import PhpGate.Evaluation
import PhpGate.Proofs.Source.Rejection
import PhpGate.Proofs.Source.Separation
import PhpGate.Proofs.Token.Closing

/-!
A keyword of a declaration with a number behind it. The grammar takes it for two names, so it is the
declarations of the filtered text that have to tell. They do, if white space is left between the
keyword and the number, and if no filter is within a match where the statement begins.
-/

namespace PhpGate

open Text Source Declaration

/-- The tokens that a statement begins behind. -/
def statementLeads : List Terminal :=
  [.openTag, .inlineHtml, .semicolon, .openBrace, .expressionBrace, .closeBrace]

/-- A statement of a text that is a keyword of a declaration, a number and a semicolon, with the
trivia between these and the token in front. -/
structure Numbered (t : Text) where
  front : List Lexeme
  lead : Lexeme
  margin : List Lexeme
  keyword : Text
  space : List Lexeme
  number : Text
  gap : List Lexeme
  close : Text
  back : List Lexeme
  split : (Lexing.of t).lexemes = (front ++ [lead]) ++ ((margin ++ ⟨.name, keyword⟩ ::
    (space ++ ⟨.number, number⟩ :: (gap ++ [⟨.semicolon, close⟩]))) ++ back)
  trivia : ∀ l ∈ margin ++ (space ++ gap), l.terminal.isTrivia = true
  begins : lead.terminal ∈ statementLeads
  listed : keyword.map foldCase ∈ declarationKeywords

/-- Neither filter is within a match where `u` ends: the pieces that a text is cut into without its
comments can be parted there, and those that what is left is cut into as well. -/
def FiltersMeet (u t : Text) : Prop :=
  ∃ ps qs, ps <+: cut commentOrStringPattern t ∧ ps.flatMap Piece.source = u ∧
    qs <+: cut stringPattern (stripComments t) ∧
    qs.flatMap Piece.source = ps.flatMap (Piece.substitute dropComment)

variable {before t u v w r : Text} {c : Char} {k : Terminal} {l : Lexeme} {ls : List Lexeme}

theorem Takes.flatMap_stripped (takes : Takes before ls r) :
    ls.flatMap Lexeme.stripped = ls.flatMap Lexeme.uncommented := by
  induction ls generalizing before with
  | nil => rfl
  | cons l ls ih =>
      rw [List.flatMap_cons, List.flatMap_cons, stripped_eq_uncommented takes.1, ih takes.2]

/-- Behind legible code the filters meet. -/
theorem filtersMeet_of_legible (takes : Takes [] ls r) (legible : ∀ l ∈ ls, l.isLegible = true) :
    FiltersMeet (ls.flatMap Lexeme.text) (ls.flatMap Lexeme.text ++ r) := by
  obtain ⟨ps, cutComments, source, left⟩ := takes.cut_comments legible []
  rw [takes.flatMap_stripped] at left
  have stripped : stripComments (ls.flatMap Lexeme.text ++ r) = ls.flatMap Lexeme.uncommented ++
      (cutAfter commentOrStringPattern ((ls.flatMap Lexeme.text).reverse ++ []) 0 r).flatMap
        (Piece.substitute dropComment) := by
    rw [stripComments, substitute, cut, cutComments, List.flatMap_append, left]
  obtain ⟨qs, cutStrings, source', -⟩ := takes.cut_strings legible [] _
  refine ⟨ps, qs, ⟨_, cutComments.symm⟩, source, ?_, source'.trans left.symm⟩
  rw [stripped]
  exact ⟨_, cutStrings.symm⟩

/-- The last characters of the tokens that a statement begins behind. -/
def leadSigns : List Char :=
  [';', '\x7b', '\x7d', '=']

/-- A sign in front of a statement is left by the first filter, where no line comment ends. -/
theorem getLast_of_comments {ps : List Piece} {d : Char}
    (cuts : ps <+: cut commentOrStringPattern (ps.flatMap Piece.source ++ d :: v))
    (last : (ps.flatMap Piece.source).getLast? = some c) (lead : c ∈ leadSigns)
    (goesOn : ¬ (d = '?' ∨ d = '\r' ∨ d = '\n')) :
    (ps.flatMap (Piece.substitute dropComment)).getLast? = some c := by
  obtain ⟨init, rfl⟩ | ⟨init, w, n, -, ends, taken, found⟩ := last_of_cut cuts last
  · simp [Piece.substitute]
  · exfalso
    obtain rfl : n = w.length := by
      have length := congrArg List.length taken
      simp only [List.length_take, List.length_append, List.length_cons] at length
      omega
    rw [commentOrStringPattern] at found
    split at found
    · rename_i m string
      cases found
      obtain ⟨q, quote, last⟩ := (isString_take string).getLast
      rw [← taken, ends, Option.some.injEq] at last
      subst last
      obtain rfl | rfl := quote <;> simp [leadSigns] at lead
    · split at found
      · rename_i m block
        cases found
        have last := getLast_of_blockCommentLength block
        rw [← taken, ends, Option.some.injEq] at last
        subst last
        simp [leadSigns] at lead
      · exact goesOn (lineCommentLength_stop found)

theorem getLast_of_strings {qs : List Piece}
    (cuts : qs <+: cut stringPattern (qs.flatMap Piece.source ++ v))
    (last : (qs.flatMap Piece.source).getLast? = some c) (lead : c ∈ leadSigns) :
    (qs.flatMap (Piece.substitute emptyString)).getLast? = some c := by
  obtain ⟨init, rfl⟩ | ⟨init, w, n, -, ends, taken, found⟩ := last_of_cut cuts last
  · simp [Piece.substitute]
  · exfalso
    obtain ⟨q, quote, last⟩ := (isString_take found).getLast
    rw [← taken, ends, Option.some.injEq] at last
    subst last
    obtain rfl | rfl := quote <;> simp [leadSigns] at lead

theorem getLast_of_isOpenTag {tag : Text} (h : IsOpenTag tag) :
    tag.getLast? = some '=' ∨ tag.getLast?.any isWord = true := by
  obtain rfl | ⟨begins, length⟩ := h
  · exact .inl rfl
  · obtain ⟨p, h, q, rest, rfl⟩ := beginsWith_openTag begins
    obtain rfl : rest = [] := by simpa using length
    have word : "<?php".toList = ['<', '?', 'p', 'h', 'p'] := rfl
    simp only [word, beginsWith, Bool.and_eq_true, beq_iff_eq] at begins
    have letter : (foldCase q).isLower = true := by
      rw [begins.2.2.2.2.1]
      rfl
    exact .inr (isWord_of_foldCase letter)

/-- The token that a statement begins behind ends with a sign or the long open tag. -/
theorem lead_sign {lead : Lexeme} (begins : lead.terminal ∈ statementLeads)
    (first : Terminal.first? before (lead.text ++ c :: r)
      = some (lead.terminal, lead.text.length)) :
    (∃ d ∈ leadSigns, lead.text.getLast? = some d) ∨ lead.text.getLast?.any isWord = true := by
  obtain ⟨k, w⟩ := lead
  dsimp only at *
  obtain ⟨-, -, -, found, -⟩ := Terminal.first_eq_some_iff.mp first
  simp only [statementLeads, List.mem_cons, List.not_mem_nil, or_false] at begins
  have ofTag {u tag : Text} (kind : IsOpenTag tag) :
      (∃ d ∈ leadSigns, (u ++ tag).getLast? = some d) ∨ (u ++ tag).getLast?.any isWord = true := by
    rw [List.getLast?_append]
    obtain echo | long := getLast_of_isOpenTag kind
    · exact .inl ⟨'=', by simp [leadSigns], by simp [echo]⟩
    · right
      cases last : tag.getLast? with
      | none => simp [last] at long
      | some d => simpa [last] using long
  obtain rfl | rfl | rfl | rfl | rfl | rfl := begins
  · obtain ⟨tag, v, split, length, kind⟩ := isOpenTag_of_openTagLength found
    obtain ⟨rfl, -⟩ := List.append_inj split length.symm
    exact ofTag (u := []) kind
  · obtain ⟨s, split, length⟩ := Terminal.inlineHtml_eq_some_iff.mp found
    cases opens : markupOpens s with
    | true =>
        obtain ⟨u, tag, v, rfl, length', kind⟩ := markup_of_opens opens
        have parted : w ++ c :: r = ('?' :: '>' :: (u ++ tag)) ++ v := by
          rw [split]
          simp
        obtain ⟨rfl, -⟩ := List.append_inj parted (by simp [← length, length'])
        exact ofTag (u := '?' :: '>' :: u) kind
    | false =>
        rw [markupLength_of_not_opens opens] at length
        have whole := congrArg List.length split
        simp at whole
        omega
  · obtain rfl := fixedLength_text found
    exact .inl ⟨';', by simp [leadSigns], rfl⟩
  · obtain rfl := fixedLength_text found
    exact .inl ⟨'\x7b', by simp [leadSigns], rfl⟩
  · rw [Terminal.length?, Option.ite_none_right_eq_some] at found
    obtain rfl := fixedLength_text found.2
    exact .inl ⟨'\x7b', by simp [leadSigns], rfl⟩
  · obtain rfl := fixedLength_text found
    exact .inl ⟨'\x7d', by simp [leadSigns], rfl⟩

section Path

variable {n : Nat}

theorem isIdentifierHead_of_isDecimalDigit (digit : isDecimalDigit c = true) :
    isIdentifierHead c = false := by
  have digits : '0'.toNat = 0x30 ∧ '9'.toNat = 0x39 ∧ '_'.toNat = 0x5f := ⟨rfl, rfl, rfl⟩
  have alpha : c.isAlpha = (c.isUpper || c.isLower) := rfl
  rw [← Bool.not_eq_true]
  intro letter
  rw [isIdentifierHead, Bool.or_eq_true, beq_iff_eq, alpha, Bool.or_eq_true, isUpper_iff,
    isLower_iff] at letter
  rw [isDecimalDigit, digitValue?] at digit
  split at digit
  · rw [Option.isSome_ite, Char.isDigit_iff_toNat] at digit
    obtain alpha | rfl := letter
    · omega
    · omega
  · obtain alpha | rfl := letter
    · omega
    · omega

/-- A number could stand in a path, but begins as no path does. -/
theorem number_path (h : numberLength? (w ++ r) = some w.length) :
    w ≠ [] ∧ w.all isPathChar = true ∧ isValidPath w = false := by
  have chars := numberLength_all (p := isPathChar) (fun _ word => isPathChar_of_isWord word)
    (fun _ digit => isPathChar_of_isWord (isWord_of_isDecimalDigit digit)) rfl h
  rw [List.take_left] at chars
  obtain ⟨d, v, rfl⟩ := List.exists_cons_of_length_pos (numberLength_fits _ _ h).1
  refine ⟨List.cons_ne_nil d v, chars, ?_⟩
  have head : isIdentifierHead d = false ∧ d ≠ '\\' := by
    rw [List.cons_append, numberLength_cons] at h
    split at h
    · rename_i point
      rw [point]
      decide
    · rw [Option.ite_none_right_eq_some] at h
      refine ⟨isIdentifierHead_of_isDecimalDigit h.1, ?_⟩
      rintro rfl
      cases h.1
  rw [isValidPath.eq_2 _ (by simp [head.2]), isPathFrom, if_pos rfl, head.1, Bool.false_and]

end Path

section Meeting

variable {ps qs : List Piece}

theorem stripComments_of_cut
    (front : ps <+: cut commentOrStringPattern
      (ps.flatMap Piece.source ++ (ls.flatMap Lexeme.text ++ r)))
    (takes : Takes before ls r) (legible : ∀ l ∈ ls, l.isLegible = true) :
    ∃ rest, stripComments (ps.flatMap Piece.source ++ (ls.flatMap Lexeme.text ++ r))
      = ps.flatMap (Piece.substitute dropComment) ++ (ls.flatMap Lexeme.uncommented ++ rest) := by
  obtain ⟨back, cuts⟩ := front
  obtain ⟨v, split, rfl⟩ := exists_of_cutAfter_eq cuts.symm
  obtain rfl := List.append_cancel_left split
  obtain ⟨pieces, commented, -, left⟩ :=
    takes.cut_comments legible ((ps.flatMap Piece.source).reverse ++ [])
  have whole := congrArg (List.flatMap (Piece.substitute dropComment)) cuts
  rw [commented, List.flatMap_append, List.flatMap_append, left, takes.flatMap_stripped] at whole
  exact ⟨_, whole.symm⟩

theorem blankStrings_of_cut
    (front : qs <+: cut stringPattern
      (qs.flatMap Piece.source ++ (ls.flatMap Lexeme.uncommented ++ v)))
    (takes : Takes before ls r) (legible : ∀ l ∈ ls, l.isLegible = true) :
    ∃ rest, blankStrings (qs.flatMap Piece.source ++ (ls.flatMap Lexeme.uncommented ++ v))
      = qs.flatMap (Piece.substitute emptyString) ++ (ls.flatMap Lexeme.blanked ++ rest) := by
  obtain ⟨back, cuts⟩ := front
  obtain ⟨v, split, rfl⟩ := exists_of_cutAfter_eq cuts.symm
  obtain rfl := List.append_cancel_left split
  obtain ⟨pieces, quoted, -, left⟩ :=
    takes.cut_strings legible ((qs.flatMap Piece.source).reverse ++ []) v
  have whole := congrArg (List.flatMap (Piece.substitute emptyString)) cuts
  rw [quoted, List.flatMap_append, List.flatMap_append, left] at whole
  exact ⟨_, whole.symm⟩

end Meeting

/-- Where the filters meet, they go on lexeme by lexeme as far as the code is legible, and a sign in
front is left. -/
theorem FiltersMeet.filtered (meet : FiltersMeet u (u ++ (ls.flatMap Lexeme.text ++ r)))
    (takes : Takes before ls r) (legible : ∀ l ∈ ls, l.isLegible = true) :
    ∃ left rest,
      blankStrings (stripComments (u ++ (ls.flatMap Lexeme.text ++ r)))
        = left ++ (ls.flatMap Lexeme.blanked ++ rest) ∧
      ∀ c d v, u.getLast? = some c → c ∈ leadSigns → ls.flatMap Lexeme.text ++ r = d :: v →
        ¬ (d = '?' ∨ d = '\r' ∨ d = '\n') → left.getLast? = some c := by
  obtain ⟨ps, qs, comments, rfl, strings, source⟩ := meet
  obtain ⟨rest, stripped⟩ := stripComments_of_cut comments takes legible
  rw [stripped, ← source] at strings ⊢
  obtain ⟨rest', blanked⟩ := blankStrings_of_cut strings takes legible
  refine ⟨_, rest', blanked, ?_⟩
  intro c d v last lead text goesOn
  rw [text] at comments
  apply getLast_of_strings strings _ lead
  rw [source]
  exact getLast_of_comments comments last lead goesOn

/-- Of trivia white space is left, by both filters alike. -/
theorem isBlank_uncommented (takes : Takes before ls r)
    (trivia : ∀ l ∈ ls, l.terminal.isTrivia = true) :
    (ls.flatMap Lexeme.uncommented).all isBlank = true ∧
      ls.flatMap Lexeme.blanked = ls.flatMap Lexeme.uncommented := by
  induction ls generalizing before with
  | nil => exact ⟨rfl, rfl⟩
  | cons l ls ih =>
      obtain ⟨here, others⟩ := List.forall_mem_cons.mp trivia
      obtain ⟨blanks, same⟩ := ih takes.2 others
      have gap := l.isGap_stripped takes.1 here
      rw [stripped_eq_uncommented takes.1] at gap
      have code : l.terminal.quote? = none := by
        obtain ⟨k, w⟩ := l
        cases k with
        | singleQuoted | doubleQuoted => cases here
        | _ => rfl
      rw [List.flatMap_cons, List.flatMap_cons, List.all_append, gap.1, blanks, same,
        Lexeme.blanked_of_unquoted code]
      exact ⟨rfl, rfl⟩

namespace Numbered

variable (s : Numbered t)

/-- The text up to the keyword and the trivia in front of it. -/
def head : Text :=
  (s.front ++ [s.lead]).flatMap Lexeme.text

/-- The lexemes of the statement, with the trivia in front of it. -/
def statement : List Lexeme :=
  s.margin ++ ⟨.name, s.keyword⟩ ::
    (s.space ++ ⟨.number, s.number⟩ :: (s.gap ++ [⟨.semicolon, s.close⟩]))

/-- The declaration that the filters leave of a statement. -/
def declaration : Declaration where
  keyword := s.keyword
  space := s.space.flatMap Lexeme.uncommented
  path := s.number
  tail := s.gap.flatMap Lexeme.uncommented ++ [';']

theorem legible : ∀ l ∈ s.statement, l.isLegible = true := by
  intro l mem
  have trivia := s.trivia l
  simp only [statement, List.mem_append, List.mem_cons, List.not_mem_nil, or_false] at mem trivia
  obtain margin | rfl | space | rfl | gap | rfl := mem
  · exact l.isLegible_of_isTrivia (trivia (.inl margin))
  · rfl
  · exact l.isLegible_of_isTrivia (trivia (.inr (.inl space)))
  · rfl
  · exact l.isLegible_of_isTrivia (trivia (.inr (.inr gap)))
  · rfl

variable {s}

theorem takes (complete : (Lexing.of t).complete = true) :
    t = s.head ++ (s.statement.flatMap Lexeme.text ++ s.back.flatMap Lexeme.text) ∧
      Takes [] (s.front ++ [s.lead])
        (s.statement.flatMap Lexeme.text ++ s.back.flatMap Lexeme.text) ∧
      Takes s.head.reverse s.statement (s.back.flatMap Lexeme.text) := by
  have run := Lexes.of t
  rw [List.isEmpty_iff.mp complete, s.split] at run
  obtain ⟨front, behind⟩ := takes_append.mp run.takes
  obtain ⟨statement, -⟩ := takes_append.mp behind
  rw [List.flatMap_append, List.append_assoc, List.append_nil] at front
  simp only [List.append_nil] at statement
  refine ⟨run.eq_append.trans ?_, front, statement⟩
  simp only [head, Numbered.statement, List.flatMap_append, List.append_nil, List.append_assoc]

/-- What both filters leave of the statement is its declaration, behind white space. -/
theorem flatMap_blanked (complete : (Lexing.of t).complete = true)
    (spaced : s.space.flatMap Lexeme.uncommented ≠ []) :
    (s.margin.flatMap Lexeme.uncommented).all isBlank = true ∧
      s.statement.flatMap Lexeme.blanked
        = s.margin.flatMap Lexeme.uncommented ++ s.declaration.text ∧
      s.declaration.IsWellFormed ∧ isValidPath s.declaration.path = false := by
  obtain ⟨-, -, takes⟩ := s.takes complete
  have trivia := s.trivia
  simp only [List.forall_mem_append] at trivia
  obtain ⟨margin, -, takes⟩ := takes_append.mp takes
  obtain ⟨space, number, takes⟩ := takes_append.mp takes
  obtain ⟨gap, close, -⟩ := takes_append.mp takes
  obtain ⟨margins, marginSame⟩ := isBlank_uncommented margin trivia.1
  obtain ⟨spaces, spaceSame⟩ := isBlank_uncommented space trivia.2.1
  obtain ⟨gaps, gapSame⟩ := isBlank_uncommented gap trivia.2.2
  obtain ⟨-, -, -, number, -⟩ := Terminal.first_eq_some_iff.mp number
  obtain ⟨-, -, -, close, -⟩ := Terminal.first_eq_some_iff.mp close
  obtain ⟨named, chars, invalid⟩ := number_path number
  have semicolon : s.close = [';'] := fixedLength_text close
  refine ⟨margins, ?_, ⟨s.listed, ⟨spaced, spaces⟩, ⟨named, chars⟩, _, gaps, rfl⟩, invalid⟩
  simp only [statement, declaration, Declaration.text, List.flatMap_append, List.flatMap_cons,
    List.flatMap_nil, marginSame, spaceSame, gapSame, semicolon, List.append_assoc]
  rfl

/-- If nothing is left of the trivia in front, then the statement begins with no line break. -/
theorem exists_head (complete : (Lexing.of t).complete = true)
    (bare : s.margin.flatMap Lexeme.uncommented = []) (r : Text) :
    ∃ d v, s.statement.flatMap Lexeme.text ++ r = d :: v ∧ ¬ (d = '?' ∨ d = '\r' ∨ d = '\n') := by
  obtain ⟨-, -, takes⟩ := s.takes complete
  have trivia := s.trivia
  rw [statement] at takes ⊢
  cases margin : s.margin with
  | nil =>
      obtain ⟨k, keyword, split⟩ : ∃ k keyword, s.keyword = k :: keyword := by
        apply List.exists_cons_of_ne_nil
        intro empty
        have listed := s.listed
        rw [empty] at listed
        simp [declarationKeywords] at listed
      have word := isWord_of_mem_keyword (c := k) s.listed (by simp [split])
      rw [List.nil_append, List.flatMap_cons, split]
      refine ⟨k, _, rfl, ?_⟩
      rintro (rfl | rfl | rfl) <;> exact absurd word (by decide +kernel)
  | cons l margin' =>
      rw [margin] at bare takes trivia
      have here := trivia l (by simp)
      have comment : l.isComment = true := by
        cases comment : l.isComment with
        | true => rfl
        | false =>
            have text := Lexeme.uncommented_of_not_comment comment
            rw [List.flatMap_cons, text, List.append_eq_nil_iff] at bare
            have fits := (Terminal.first_fits takes.1).1
            simp [bare.1] at fits
      obtain ⟨e, v, text, sign⟩ := Lexeme.comment_sign comment takes.1
      rw [List.cons_append, List.flatMap_cons, text]
      refine ⟨e, _, rfl, ?_⟩
      obtain rfl | rfl := sign <;> simp

theorem not_continuesName {left : Text} (complete : (Lexing.of t).complete = true)
    (blanks : (s.margin.flatMap Lexeme.uncommented).all isBlank = true)
    (apart : s.margin.flatMap Lexeme.uncommented ≠ [] ∨ s.lead.text.getLast?.any isWord = false)
    (sign : ∀ c d v, s.head.getLast? = some c → c ∈ leadSigns →
      s.statement.flatMap Lexeme.text ++ s.back.flatMap Lexeme.text = d :: v →
      ¬ (d = '?' ∨ d = '\r' ∨ d = '\n') → left.getLast? = some c) :
    (left ++ s.margin.flatMap Lexeme.uncommented).getLast?.any continuesName = false := by
  obtain bare | ⟨margin, e, split⟩ := List.eq_nil_or_concat (s.margin.flatMap Lexeme.uncommented)
  · obtain ⟨d, v, text, goesOn⟩ := s.exists_head complete bare (s.back.flatMap Lexeme.text)
    obtain ⟨-, takes, -⟩ := s.takes complete
    obtain ⟨-, first, -⟩ := takes_append.mp takes
    rw [List.flatMap_nil, List.nil_append, text] at first
    obtain ⟨c, lead, last⟩ | word := lead_sign s.begins first
    · have ends : s.head.getLast? = some c := by
        simp [head, List.getLast?_append, last]
      have free : leadSigns.all (fun d => !continuesName d) = true := by decide
      rw [bare, List.append_nil, sign c d v ends lead text goesOn]
      exact (Bool.not_eq_true' _).mp (List.all_eq_true.mp free c lead)
    · simp [bare, word] at apart
  · rw [split] at blanks ⊢
    simp only [List.concat_eq_append, List.all_append, Bool.and_eq_true, List.all_cons] at blanks
    simp [continuesName_of_isBlank blanks.2.1]

/-- The declaration of the statement is found, and it is no declaration. -/
theorem exists_rejection (s : Numbered t) (full : Text) (file : Option Text)
    (complete : (Lexing.of t).complete = true) (spaced : s.space.flatMap Lexeme.uncommented ≠ [])
    (apart : s.margin.flatMap Lexeme.uncommented ≠ [] ∨ s.lead.text.getLast?.any isWord = false)
    (clear : (∀ l ∈ s.front ++ [s.lead], l.isLegible = true) ∨ FiltersMeet s.head t) :
    ∃ rejection, checkDeclarations (stripComments t) full file = .error rejection := by
  obtain ⟨text, front, statement⟩ := s.takes complete
  have meet : FiltersMeet s.head
      (s.head ++ (s.statement.flatMap Lexeme.text ++ s.back.flatMap Lexeme.text)) := by
    obtain legible | meet := clear
    · exact filtersMeet_of_legible front legible
    · rw [← text]
      exact meet
  obtain ⟨left, rest, filtered, sign⟩ := meet.filtered statement s.legible
  obtain ⟨margins, blanked, wellFormed, invalid⟩ := s.flatMap_blanked complete spaced
  rw [← text, blanked] at filtered
  have free := s.not_continuesName complete margins apart sign
  obtain ⟨n, found⟩ := exists_mem_all (v := s.declaration.text ++ rest)
    (read_complete wellFormed (List.prefix_append _ _)) free (by
      intro x y d split nonempty read
      rw [split] at free
      have after : (s.declaration.path ++ (s.declaration.tail ++ rest)).head?.any
          (fun c => isBlank c || c == ';') = false := by
        obtain ⟨e, path, split⟩ := List.exists_cons_of_ne_nil wellFormed.path.1
        have chars := wellFormed.path.2
        rw [split] at chars ⊢
        simp only [List.all_cons, isPathChar, Bool.and_eq_true, Bool.not_eq_true'] at chars
        obtain ⟨⟨ink, listed⟩, -⟩ := chars
        have close : e ≠ ';' := by
          rintro rfl
          cases listed
        simp [ink, close]
      refine length_le_of_read nonempty (not_any_getLast_of_append free) wellFormed.keyword
        wellFormed.space after ?_
      simpa [Declaration.text] using read)
  refine checkDeclarations_ne_ok (n := n) ?_ invalid
  rw [filtered]
  simpa using found

end Numbered

theorem check_eq_error_of_checkDeclarations (fallback : Checker) {file : Option Text}
    {rejection : Rejection} (complete : (Lexing.of t).complete = true)
    (rejected : checkDeclarations (stripComments t) t file = .error rejection) :
    ∃ rejection, Evaluator.check { external := none, fallback } t file
      = .error (.rejected rejection) := by
  have report := lexicalReport_eq_none_iff.mpr complete
  simp only [Evaluator.check, Evaluator.evaluate, Evaluator.prepare, report, Evaluator.confirm,
    Evaluator.conclude]
  cases checkOpenTag t file with
  | error earlier => exact ⟨earlier, rfl⟩
  | ok =>
      cases checkTrailingBuffer t (stripComments t) file with
      | error earlier => exact ⟨earlier, rfl⟩
      | ok =>
          refine ⟨rejection, ?_⟩
          simp only [Except.mapError, bind, Except.bind, pure, Except.pure, rejected]

/-- A statement that is a keyword of a declaration, a number and a semicolon is rejected, if the
filters leave white space behind the keyword and no name in front of it, and come out of a match
where they have to: where the code in front is legible they do. -/
theorem check_eq_error_of_numbered (s : Numbered t) (fallback : Checker) (file : Option Text)
    (complete : (Lexing.of t).complete = true) (spaced : s.space.flatMap Lexeme.uncommented ≠ [])
    (apart : s.margin.flatMap Lexeme.uncommented ≠ [] ∨ s.lead.text.getLast?.any isWord = false)
    (clear : (∀ l ∈ s.front ++ [s.lead], l.isLegible = true) ∨ FiltersMeet s.head t) :
    ∃ rejection, Evaluator.check { external := none, fallback } t file
      = .error (.rejected rejection) := by
  obtain ⟨rejection, rejected⟩ := s.exists_rejection t file complete spaced apart clear
  exact check_eq_error_of_checkDeclarations fallback complete rejected

/-- Markup with a quote in it, and a comment behind the keyword. -/
def numberedBehindMarkup : Numbered "<?php ?>it's<?php use // c\n2 ;".toList where
  front := [⟨.openTag, "<?php".toList⟩, ⟨.blank, " ".toList⟩]
  lead := ⟨.inlineHtml, "?>it's<?php".toList⟩
  margin := [⟨.blank, " ".toList⟩]
  keyword := "use".toList
  space := [⟨.blank, " ".toList⟩, ⟨.lineComment, "// c".toList⟩, ⟨.blank, "\n".toList⟩]
  number := "2".toList
  gap := [⟨.blank, " ".toList⟩]
  close := ";".toList
  back := []
  split := rfl
  trivia := by decide
  begins := by decide
  listed := by decide

theorem check_numberedBehindMarkup :
    Evaluator.check {} "<?php ?>it's<?php use // c\n2 ;".toList none = .error (.rejected
        (Rejection.of .parse "Error syntax on: \x60use \n2 ;\x60".toList none 0)) ∧
      ∃ rejection, Evaluator.check {} "<?php ?>it's<?php use // c\n2 ;".toList none
        = .error (.rejected rejection) := by
  refine ⟨rfl, check_eq_error_of_numbered numberedBehindMarkup selfChecker none rfl (by decide)
    (.inl (by decide)) (.inr ?_)⟩
  exact ⟨numberedBehindMarkup.head.map .kept, numberedBehindMarkup.head.map .kept,
    by decide, by decide, by decide, by decide⟩

/-- Statements that are accepted: a comment without a trace joins the keyword to the number or the
open tag to the keyword, nothing stands between them, or a match that begins in markup, in a
heredoc, in a command or in an interpolation runs over the statement. -/
theorem check_numbered_of_unclear :
    ([(⟨.openTag, "<?php".toList⟩, "<?php use/**/2;"), (⟨.openTag, "<?php".toList⟩, "<?phpuse 2;"),
      (⟨.openTag, "<?php".toList⟩, "<?php/**/use 2;"),
      (⟨.inlineHtml, "?> http://x <?php".toList⟩, "<?php ?> http://x <?php use 2;"),
      (⟨.inlineHtml, "?>it's<?php".toList⟩, "<?php ?>it's<?php use 2; $a='';"),
      (⟨.semicolon, ";".toList⟩, "<?php $a = <<<E\nit's\nE;use 2; $b='';"),
      (⟨.semicolon, ";".toList⟩, "<?php \x60'\x60;use 2; $b='';"),
      (⟨.semicolon, ";".toList⟩, "<?php \"\x7b$a[\"'\"]\x7d\";use 2; $b='';")] :
        List (Lexeme × String)).Forall fun (lead, t) =>
      (Lexing.of t.toList).complete = true ∧
        [lead, ⟨.name, "use".toList⟩, ⟨.number, "2".toList⟩, ⟨.semicolon, ";".toList⟩]
          <:+: (tokens t.toList).map Token.toLexeme ∧
        Evaluator.check {} t.toList none = .ok () := by
  decide +kernel

end PhpGate
