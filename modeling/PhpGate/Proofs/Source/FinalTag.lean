import PhpGate.Proofs.Source.Trailing
import PhpGate.Proofs.Token.Ending

/-!
The closing tag that a filtered text ends in. The filter knows no tokens: what it keeps at the end
may be markup that ends the code, but also a question mark in a text that it does not read as the
lexer does, or the question mark of an operator that a comment parts from the sign behind it.
-/

namespace PhpGate

open Text Source

/-- A question mark, pieces that leave nothing, a greater sign and pieces that leave white space are
the end of a text without its comments. -/
structure IsFinalTag (t : Text) (front gap tail : List Piece) : Prop where
  split : cut commentOrStringPattern t = front ++ .kept '?' :: (gap ++ .kept '>' :: tail)
  traceless : gap.flatMap (Piece.substitute dropComment) = []
  blank : (tail.flatMap (Piece.substitute dropComment)).all isBlank = true

variable {before r s t u v w : Text} {c : Char} {n : Nat} {gap tail : List Piece}

/-- A match of the filter is a string, which it keeps, or a comment, which leaves line feeds. -/
theorem commentOrString_cases (found : commentOrStringPattern before t = some n) :
    (dropComment (t.take n) = t.take n ∧ ∃ q, (q = '\'' ∨ q = '"') ∧ (t.take n).getLast? = some q) ∨
    (dropComment (t.take n) = keepNewlines (t.take n) ∧
      (blockCommentLength? t = some n ∨ lineCommentLength? t = some n)) := by
  obtain ⟨w, r, rfl, rfl, string | comment⟩ := exists_of_commentOrString found
  · rw [List.take_left]
    refine .inl ⟨(commentOrString_of_string string [] r).2, string.getLast⟩
  · rw [List.take_left]
    exact .inr ⟨(commentOrString_of_comment comment []).2, comment⟩

/-- What stands at the end of a filtered text, apart from quotes, comment signs and line feeds, was
kept there. -/
theorem exists_kept {ps : List Piece} (cuts : ps <:+ cut commentOrStringPattern t)
    (left : ps.flatMap (Piece.substitute dropComment) = u ++ c :: v) (line : c ≠ '\n')
    (plain : (c :: v).all isPlain = true) :
    ∃ front back, ps = front ++ .kept c :: back ∧
      front.flatMap (Piece.substitute dropComment) = u ∧
      back.flatMap (Piece.substitute dropComment) = v := by
  obtain ⟨front, piece, back, u', v', rfl, here, nonempty, rfl, rest⟩ :=
    exists_of_flatMap_eq left (List.cons_ne_nil c v)
  obtain ⟨d, v', rfl⟩ := List.exists_cons_of_ne_nil nonempty
  obtain ⟨rfl, rfl⟩ := List.cons.inj rest
  refine ⟨front, back, ?_⟩
  cases piece with
  | kept d =>
      cases u' with
      | nil =>
          cases here
          exact ⟨rfl, by simp, rfl⟩
      | cons _ u => simp [Piece.substitute] at here
  | hit w =>
      exfalso
      have mem : .hit w ∈ cut commentOrStringPattern t := cuts.subset (by simp)
      obtain ⟨x, s, n, rfl, found, rfl⟩ := exists_of_mem_cutAfter mem
      rw [Piece.substitute] at here
      obtain ⟨kept, q, quote, last⟩ | ⟨feeds, -⟩ := commentOrString_cases found
      · rw [← kept, here, List.getLast?_append_of_ne_nil _ (List.cons_ne_nil c v')] at last
        have mem' : q ∈ c :: (v' ++ back.flatMap (Piece.substitute dropComment)) :=
          List.mem_append_left _ (List.mem_of_getLast? last)
        have sign := List.all_eq_true.mp plain q mem'
        obtain rfl | rfl := quote <;> cases sign
      · rw [feeds, keepNewlines] at here
        exact line (List.eq_of_mem_replicate (here ▸ List.mem_append_right u' List.mem_cons_self))

/-- A filtered text ends in a closing tag, white space apart, just when its pieces do. -/
theorem endsWith_closeTag_iff :
    endsWith closeTag (trimEnd (stripComments t)) = true ↔
      ∃ front gap tail, IsFinalTag t front gap tail := by
  constructor
  · intro ends
    obtain ⟨b, whole, blank⟩ := exists_trimEnd (stripComments t)
    rw [endsWith, List.isSuffixOf_iff_suffix] at ends
    obtain ⟨a, kept⟩ := ends
    rw [← kept, List.append_assoc] at whole
    change stripComments t = a ++ '?' :: '>' :: b at whole
    have plain : ('?' :: '>' :: b).all isPlain = true := plain_of_blank blank
    obtain ⟨front, back, split, -, rest⟩ := exists_kept List.suffix_rfl whole (by decide) plain
    obtain ⟨gap, tail, rfl, traceless, rfl⟩ := exists_kept (t := t) (u := [])
      ⟨front ++ [.kept '?'], by simp [split]⟩ rest (by decide)
      (Bool.and_eq_true_iff.mp plain).2
    exact ⟨front, gap, tail, ⟨split, traceless, blank⟩⟩
  · rintro ⟨front, gap, tail, split, traceless, blank⟩
    have left : stripComments t = front.flatMap (Piece.substitute dropComment) ++ closeTag
        ++ tail.flatMap (Piece.substitute dropComment) := by
      simp [stripComments, substitute, split, traceless, Piece.substitute, closeTag]
    rw [left, trimEnd_append_blank blank, trimEnd_eq_self, endsWith, List.isSuffixOf_iff_suffix]
    · exact List.suffix_append _ _
    · rw [List.getLast?_append]
      rfl

/-- Where the filter finds no match in front of pieces without a trace, there are no such pieces. -/
theorem eq_of_traceless (cuts : cutAfter commentOrStringPattern before 0 (c :: r)
      = gap ++ .kept '>' :: tail)
    (traceless : gap.flatMap (Piece.substitute dropComment) = [])
    (none : commentOrStringPattern before (c :: r) = none) :
    c = '>' ∧ gap = [] ∧ cutAfter commentOrStringPattern (c :: before) 0 r = tail := by
  simp only [cutAfter, none] at cuts
  cases gap with
  | nil =>
      obtain ⟨here, rest⟩ := List.cons.inj cuts
      exact ⟨Piece.kept.inj here, rfl, rest⟩
  | cons piece gap =>
      obtain ⟨rfl, -⟩ := List.cons.inj cuts
      cases traceless

theorem first_of_greater (before t : Text) :
    ∃ s r, t = s ++ r ∧
      Terminal.first? before ('>' :: s ++ r) = some (.operator, ('>' :: s).length) := by
  refine ⟨t.take (operatorRun t), t.drop (operatorRun t), (List.take_append_drop _ t).symm, ?_⟩
  rw [List.cons_append, List.take_append_drop, List.length_cons,
    List.length_take_of_le (operatorRun_le t), Terminal.first_of_plain before (by decide) (by decide)]
  refine Terminal.first_of_length rfl fun k earlier => ?_
  cases k <;> first | rfl | exact absurd earlier (by decide)

theorem first_of_blockComment (found : blockCommentLength? t = some n) (before : Text) :
    Terminal.first? before t = some (.blockComment, n) := by
  fun_cases blockCommentLength? t with
  | case1 r =>
      rw [Terminal.first_of_plain before (by decide) (by decide)]
      refine Terminal.first_of_length found fun k earlier => ?_
      cases k <;> first | rfl | exact absurd earlier (by decide)
  | case2 => simp_all [blockCommentLength?]

/-- Comments without a line feed. -/
def AreFlatComments (ls : List Lexeme) : Prop :=
  ∀ l ∈ ls, l.terminal = .blockComment ∧ '\n' ∉ l.text

/-- What the filter drops without a trace in front of a greater sign are block comments of the lexer
too, and that sign begins an operator. -/
theorem Lexes.exists_of_traceless {ls : List Lexeme} {rest : Text} (run : Lexes before t ls rest)
    {before' : Text} (cuts : cutAfter commentOrStringPattern before' 0 t = gap ++ .kept '>' :: tail)
    (traceless : gap.flatMap (Piece.substitute dropComment) = []) :
    ∃ comments s back, ls = comments ++ ⟨.operator, '>' :: s⟩ :: back ∧
      AreFlatComments comments ∧ comments.map Lexeme.text = gap.map Piece.source := by
  induction gap generalizing before before' t ls with
  | nil =>
      obtain ⟨v, rfl, -⟩ := exists_of_cutAfter_eq_cons_kept cuts
      obtain ⟨s, r, rfl, first⟩ := first_of_greater before v
      obtain ⟨back, rfl, -⟩ := Lexes.exists_cons (w := '>' :: s) run first
      exact ⟨[], s, back, rfl, by simp [AreFlatComments], rfl⟩
  | cons piece gap ih =>
      cases piece with
      | kept c => cases traceless
      | hit w =>
          rw [List.flatMap_cons, List.append_eq_nil_iff, Piece.substitute] at traceless
          obtain ⟨dropped, traceless⟩ := traceless
          obtain ⟨v, n, rfl, taken, found, cuts⟩ := exists_of_cutAfter_eq_cons_hit cuts
          have whole (fits : n ≤ (w ++ v).length) : n = w.length := by
            rw [taken, List.length_take_of_le fits]
          obtain ⟨kept, q, -, last⟩ | ⟨feeds, block | line⟩ := commentOrString_cases found
          · rw [← taken] at kept last
            rw [← kept, dropped] at last
            cases last
          · obtain rfl := whole (blockCommentLength_fits _ _ block).2
            rw [← taken, dropped, eq_comm, keepNewlines, List.replicate_eq_nil_iff] at feeds
            obtain ⟨ls, rfl, later⟩ := run.exists_cons (first_of_blockComment block before)
            obtain ⟨comments, s, back, rfl, flat, source⟩ := ih later cuts traceless
            refine ⟨⟨.blockComment, w⟩ :: comments, s, back, rfl, ?_, by simp [source, Piece.source]⟩
            exact List.forall_mem_cons.mpr ⟨⟨rfl, List.count_eq_zero.mp feeds⟩, flat⟩
          · obtain rfl := whole (lineCommentLength_fits _ _ line).2
            cases v with
            | nil => simp [cutAfter] at cuts
            | cons c v =>
                have stop := lineCommentLength_stop line
                have plain : isPlain c = true := by obtain rfl | rfl | rfl := stop <;> rfl
                obtain ⟨rfl, -⟩ := eq_of_traceless cuts traceless (commentOrString_of_plain plain)
                simp at stop

/-- Terminals whose text is no code. -/
def Terminal.isText : Terminal → Bool
  | inlineHtml | heredoc | lineComment | blockComment | doubleQuoted | backtick | singleQuoted =>
      true
  | _ => false

/-- How a final tag can begin in a lexeme without ending the code there. Either that lexeme is no
code and the filter has lost its way by the end of it, or it is an operator and comments part its
question mark from the sign of another one. -/
inductive Misleads (front : List Lexeme) (l : Lexeme) (back : List Lexeme) : Prop
  | unread (text : l.terminal.isText = true)
      (illegible : ∃ m ∈ front ++ [l], m.isLegible = false)
  | parted {comments back' : List Lexeme} {s : Text} (operator : l.terminal = .operator)
      (mark : l.text.getLast? = some '?')
      (split : back = comments ++ ⟨.operator, '>' :: s⟩ :: back') (nonempty : comments ≠ [])
      (flat : AreFlatComments comments)

/-- The question mark behind some pieces of a text stands within a lexeme. -/
structure MarkWithin (t : Text) (ps : List Piece) (front : List Lexeme) (l : Lexeme)
    (back : List Lexeme) (u v : Text) : Prop where
  lexemes : (Lexing.of t).lexemes = front ++ l :: back
  text : l.text = u ++ '?' :: v
  place : ps.flatMap Piece.source = front.flatMap Lexeme.text ++ u

/-- Pieces that reach a kept character and do not end before others begin with those. -/
theorem exists_of_append_eq {ps qs ps' qs' : List Piece}
    (h : ps ++ ps' = qs ++ .kept c :: qs')
    (le : (ps.flatMap Piece.source).length ≤ (qs.flatMap Piece.source).length) :
    ∃ rs, qs = ps ++ rs ∧ ps' = rs ++ .kept c :: qs' := by
  obtain ⟨rs, rfl, rest⟩ | ⟨rs, rfl, rest⟩ := List.append_eq_append_iff.mp h
  · exact ⟨rs, rfl, rest⟩
  · cases rs with
    | nil => exact ⟨[], by simp, rest.symm⟩
    | cons piece rs =>
        obtain ⟨rfl, -⟩ := List.cons.inj rest
        simp only [List.flatMap_append, List.flatMap_cons, Piece.source, List.length_append,
          List.length_singleton] at le
        omega

section FinalTag

variable {ps : List Piece} {front back : List Lexeme} {l : Lexeme}

theorem IsFinalTag.exists_markWithin (tag : IsFinalTag t ps gap tail)
    (complete : (Lexing.of t).complete = true) :
    ∃ front l back u v, MarkWithin t ps front l back u v ∧
      cutAfter commentOrStringPattern ('?' :: (ps.flatMap Piece.source).reverse) 0
        (v ++ back.flatMap Lexeme.text) = gap ++ .kept '>' :: tail := by
  have text := (Lexes.of t).eq_append
  rw [List.isEmpty_iff.mp complete, List.append_nil] at text
  obtain ⟨s, whole, cuts⟩ := exists_of_cutAfter_eq tag.split
  obtain ⟨r, rfl, behind⟩ := exists_of_cutAfter_eq_cons_kept cuts.symm
  obtain ⟨front, l, back, u, v, split, here, nonempty, place, rest⟩ :=
    exists_of_flatMap_eq (text.symm.trans whole) (List.cons_ne_nil '?' r)
  obtain ⟨c, v, rfl⟩ := List.exists_cons_of_ne_nil nonempty
  obtain ⟨rfl, rfl⟩ := List.cons.inj rest
  exact ⟨front, l, back, u, v, ⟨split, here, place⟩, by simpa using behind⟩

/-- Behind legible lexemes the filter comes to the lexeme in which a final tag begins where the lexer
does. -/
theorem IsFinalTag.cut_lexeme (tag : IsFinalTag t ps gap tail) {u v : Text}
    (mark : MarkWithin t ps front l back u v) (run : Lexes [] t (front ++ l :: back) [])
    (legible : ∀ m ∈ front, m.isLegible = true) :
    ∃ rs, rs.flatMap Piece.source = u ∧
      cutAfter commentOrStringPattern (front.flatMap Lexeme.text).reverse 0
        (l.text ++ back.flatMap Lexeme.text) = rs ++ .kept '?' :: (gap ++ .kept '>' :: tail) := by
  obtain ⟨pieces, cuts, source, -⟩ := (takes_append.mp run.takes).1.cut_comments legible []
  have whole := run.eq_append
  rw [List.flatMap_append, List.append_assoc] at whole
  rw [← whole] at cuts
  obtain ⟨rs, rfl, cuts⟩ := exists_of_append_eq (cuts.symm.trans tag.split)
    (by rw [source, mark.place, List.length_append]; omega)
  have place := mark.place
  rw [List.flatMap_append, source, List.append_cancel_left_eq] at place
  exact ⟨rs, place, by simpa using cuts⟩

/-- The filter takes a string or a comment as a whole, so it keeps nothing of it. -/
theorem not_kept_of_matched {rs ps' : List Piece} (legible : l.isLegible = true)
    (first : Terminal.first? before (l.text ++ r) = some (l.terminal, l.text.length))
    (matched : (∃ q, l.terminal.quote? = some q) ∨ l.terminal = .lineComment ∨
      l.terminal = .blockComment)
    (cuts : cutAfter commentOrStringPattern s 0 (l.text ++ r) = rs ++ .kept c :: ps') :
    l.text.length ≤ (rs.flatMap Piece.source).length := by
  obtain ⟨found, -⟩ := commentOrString_at legible first matched s
  rw [cutAfter_hit (List.length_pos_iff.mp (Terminal.first_fits first).1) found] at cuts
  cases rs with
  | nil => simp at cuts
  | cons piece rs =>
      obtain ⟨rfl, -⟩ := List.cons.inj cuts
      rw [List.flatMap_cons, Piece.source, List.length_append]
      omega

/-- What is kept behind the question mark of a final tag begins with the end of that tag. -/
theorem exists_of_kept_append {ps' : List Piece}
    (cuts : v.map .kept ++ ps' = gap ++ .kept '>' :: tail)
    (traceless : gap.flatMap (Piece.substitute dropComment) = []) :
    v = [] ∨ ∃ b, v = '>' :: b ∧ tail = b.map .kept ++ ps' := by
  cases v with
  | nil => exact .inl rfl
  | cons c v =>
      rw [List.map_cons, List.cons_append] at cuts
      cases gap with
      | cons piece gap =>
          obtain ⟨rfl, -⟩ := List.cons.inj cuts
          cases traceless
      | nil =>
          obtain ⟨here, rest⟩ := List.cons.inj cuts
          exact .inr ⟨v, by rw [Piece.kept.inj here], rest.symm⟩

/-- Where only white space is left no word begins. -/
theorem not_word_of_blank (blank : ((cutAfter commentOrStringPattern before 0 r).flatMap
      (Piece.substitute dropComment)).all isBlank = true) : r.head?.any isWord = false := by
  cases r with
  | nil => rfl
  | cons c r =>
      rw [← Bool.not_eq_true, List.head?_cons, Option.any_some]
      intro word
      have plain := isPlain_of_isBare (isBare_of word rfl)
      simp [cutAfter, Piece.substitute, isBlank_of_isWord word, commentOrString_of_plain plain]
        at blank

/-- Behind legible lexemes a final tag begins in no string and no comment. Nothing but that tag and
white space is left of the lexeme that it begins in, and no word follows. -/
theorem IsFinalTag.behind (tag : IsFinalTag t ps gap tail) {u v : Text}
    (mark : MarkWithin t ps front l back u v) (run : Lexes [] t (front ++ l :: back) [])
    (legible : ∀ m ∈ front ++ [l], m.isLegible = true)
    (first : Terminal.first? before (l.text ++ back.flatMap Lexeme.text)
      = some (l.terminal, l.text.length)) :
    l.terminal.quote? = none ∧ l.isComment = false ∧
      (v = [] ∨ ∃ b, v = '>' :: b ∧ b.all isBlank = true ∧
        (back.flatMap Lexeme.text).head?.any isWord = false) := by
  obtain ⟨legibleFront, here⟩ := List.forall_mem_append.mp legible
  have here := here l List.mem_cons_self
  obtain ⟨rs, place, cuts⟩ := tag.cut_lexeme mark run legibleFront
  obtain matched | other := matched_cases l.terminal
  · have long := not_kept_of_matched here first matched cuts
    rw [place, mark.text, List.length_append, List.length_cons] at long
    omega
  · refine ⟨by simp [Terminal.quote?, other], by simp [Lexeme.isComment, other], ?_⟩
    rw [cutAfter_kept fun x c y split => commentOrString_within here first other split _, mark.text,
      List.map_append, List.append_assoc] at cuts
    obtain ⟨rs', rfl, rest⟩ := exists_of_append_eq cuts (by simp [flatMap_source_kept, place])
    rw [List.flatMap_append, flatMap_source_kept, List.append_right_eq_self] at place
    obtain rfl : rs' = [] := by
      cases rs' with
      | nil => rfl
      | cons piece rs' =>
          obtain ⟨rfl, -⟩ := List.cons.inj rest
          cases place
    obtain rfl | ⟨b, rfl, rfl⟩ := exists_of_kept_append (List.cons.inj rest).2 tag.traceless
    · exact .inl rfl
    · have blank := tag.blank
      rw [List.flatMap_append, flatMap_substitute_kept, List.all_append, Bool.and_eq_true] at blank
      exact .inr ⟨b, rfl, blank.1, not_word_of_blank blank.2⟩

theorem exists_last (rest : v = [] ∨ ∃ b, v = '>' :: b ∧ b.all isBlank = true ∧
      r.head?.any isWord = false) :
    ∃ c, (u ++ '?' :: v).getLast? = some c ∧
      (isBare c = false ∨ isBlank c = true ∧ r.head?.any isWord = false) := by
  obtain rfl | ⟨b, rfl, blank, next⟩ := rest
  · exact ⟨'?', List.getLast?_concat, .inl rfl⟩
  · obtain rfl | ⟨b, c, rfl⟩ := List.eq_nil_or_concat b
    · exact ⟨'>', by simp, .inl rfl⟩
    · rw [List.concat_eq_append] at blank ⊢
      refine ⟨c, ?_, .inr ⟨List.all_eq_true.mp blank c (by simp), next⟩⟩
      simp [List.getLast?_append, List.getLast?_cons]

theorem backtick_last (h : Terminal.length? before t .backtick = some n) :
    (t.take n).getLast? = some '\x60' := by
  cases t with
  | nil => cases h
  | cons c r =>
      rw [Terminal.backtick_cons, Option.ite_none_right_eq_some] at h
      obtain ⟨m, found, rfl⟩ := Option.map_eq_some_iff.mp h.2
      rw [List.take_succ_cons, List.getLast?_cons, (quotedLength_take (by decide) found).2]
      rfl

/-- The last character of a text that is no code belongs to no closing tag, and if it is white space
a word follows. -/
theorem last_of_isText (text : l.terminal.isText = true) (closed : l.isOpenMarkup = false)
    (string : l.terminal.quote? = none) (code : l.isComment = false)
    (first : Terminal.first? before (l.text ++ r) = some (l.terminal, l.text.length)) :
    ∃ c, l.text.getLast? = some c ∧ isBare c = true ∧
      (isBlank c = false ∨ r.head?.any isWord = true) := by
  obtain ⟨k, w⟩ := l
  dsimp only at *
  obtain ⟨-, -, -, found, -⟩ := Terminal.first_eq_some_iff.mp first
  cases k with
  | inlineHtml =>
      have ends : endsInOpenTag w = true := by simpa [Lexeme.isOpenMarkup] using closed
      obtain ⟨u, tag, rfl, kind⟩ := isOpenTag_of_endsInOpenTag ends
      obtain ⟨d, r, rfl⟩ := kind.exists_cons
      rw [List.getLast?_append_of_ne_nil _ (List.cons_ne_nil _ _)]
      obtain last | last := getLast_of_isOpenTag kind
      · exact ⟨'=', last, rfl, .inl rfl⟩
      · obtain ⟨c, last, word⟩ := (Option.any_eq_true ..).mp last
        exact ⟨c, last, isBare_of word rfl, .inl (isBlank_of_isWord word)⟩
  | heredoc =>
      obtain ⟨c, last, bare, boundary⟩ := heredocLength_last found
      rw [List.take_left] at last
      rw [List.drop_left] at boundary
      refine ⟨c, last, bare, ?_⟩
      cases blank : isBlank c with
      | false => exact .inl rfl
      | true =>
          right
          simpa [isBoundary, isWord_of_isBlank blank] using boundary
  | backtick =>
      have last := backtick_last found
      rw [List.take_left] at last
      exact ⟨'\x60', last, rfl, .inl rfl⟩
  | doubleQuoted | singleQuoted => cases string
  | lineComment | blockComment => cases code
  | _ => cases text

/-- Code holds the question mark of a final tag as the end of an operator, in front of comments. -/
theorem Misleads.of_code (code : l.terminal.isText = false) (text : l.text = u ++ '?' :: v)
    (first : Terminal.first? before (l.text ++ back.flatMap Lexeme.text)
      = some (l.terminal, l.text.length))
    (later : Lexes (l.text.reverse ++ before) (back.flatMap Lexeme.text) back [])
    (cuts : cutAfter commentOrStringPattern s 0 (v ++ back.flatMap Lexeme.text)
      = gap ++ .kept '>' :: tail)
    (traceless : gap.flatMap (Piece.substitute dropComment) = []) : Misleads front l back := by
  obtain ⟨k, w⟩ := l
  dsimp only at *
  subst text
  obtain ⟨-, -, -, found, -⟩ := Terminal.first_eq_some_iff.mp first
  cases k with
  | operator =>
      have goesOn := Terminal.operator_continues found
      have comments : gap ≠ [] := by
        rintro rfl
        obtain ⟨r, split, -⟩ := exists_of_cutAfter_eq_cons_kept cuts
        rw [split] at goesOn
        cases goesOn
      cases v with
      | cons c v =>
          have more : continuesOperator c (v ++ back.flatMap Lexeme.text).head? = true := by
            have split : u ++ '?' :: c :: v = (u ++ ['?']) ++ c :: v := by simp
            rw [split] at found
            exact Terminal.operator_continues found
          obtain ⟨-, none, -⟩ := eq_of_traceless cuts traceless (commentOrString_of_operator more)
          exact absurd none comments
      | nil =>
          obtain ⟨ls, s, back', split, flat, texts⟩ := later.exists_of_traceless cuts traceless
          refine .parted rfl List.getLast?_concat split ?_ flat
          rintro rfl
          exact comments (List.map_eq_nil_iff.mp texts.symm)
  | openTag =>
      exfalso
      obtain ⟨tag, r, split, length, kind⟩ := isOpenTag_of_openTagLength found
      obtain ⟨rfl, -⟩ := List.append_inj split length.symm
      obtain ⟨c, v, rfl, bare⟩ := exists_cons_of_isOpenTag kind
      obtain ⟨rfl, -⟩ := eq_of_traceless cuts traceless
        (commentOrString_of_plain (isPlain_of_isBare bare))
      cases bare
  | attributeBracket =>
      have mark : '?' ∈ "#[".toList := by
        rw [← fixedLength_text found]
        simp
      exact absurd mark (by decide)
  | inlineHtml | heredoc | lineComment | blockComment | doubleQuoted | backtick | singleQuoted =>
      cases code
  | _ =>
      have bare := Terminal.length_bare rfl found
      rw [BareUpTo, List.take_left] at bare
      exact absurd (List.all_eq_true.mp bare '?' (by simp)) (by decide)

/-- A final tag begins in markup that ends the code, or where it misleads. -/
theorem IsFinalTag.isOpenMarkup_or_misleads (tag : IsFinalTag t ps gap tail)
    (mark : MarkWithin t ps front l back u v) (complete : (Lexing.of t).complete = true)
    (cuts : cutAfter commentOrStringPattern before 0 (v ++ back.flatMap Lexeme.text)
      = gap ++ .kept '>' :: tail) :
    l.isOpenMarkup = true ∨ Misleads front l back := by
  have run := Lexes.of t
  rw [List.isEmpty_iff.mp complete, mark.lexemes] at run
  obtain ⟨before', r, first, later⟩ := run.exists_of_append
  obtain rfl : r = back.flatMap Lexeme.text := by simpa using later.eq_append
  cases text : l.terminal.isText with
  | false => exact .inr (.of_code text mark.text first later cuts tag.traceless)
  | true =>
      by_cases legible : ∀ m ∈ front ++ [l], m.isLegible = true
      · cases closed : l.isOpenMarkup with
        | true => exact .inl rfl
        | false =>
            obtain ⟨string, code, rest⟩ := tag.behind mark run legible first
            obtain ⟨c, last, bare, visible⟩ := last_of_isText text closed string code first
            obtain ⟨d, last', ends⟩ := exists_last (u := u) rest
            rw [← mark.text, last, Option.some.injEq] at last'
            subst last'
            obtain ⟨blank, next⟩ := ends.resolve_left (by simp [bare])
            simp [blank, next] at visible
      · simp only [not_forall, Bool.not_eq_true] at legible
        obtain ⟨m, mem, illegible⟩ := legible
        exact .inr (.unread text ⟨m, mem, illegible⟩)

/-- Markup that ends the code begins with a closing tag. -/
theorem infix_of_isOpenMarkup {ls : List Lexeme} {rest : Text} (run : Lexes before t ls rest)
    (mem : l ∈ ls) (outside : l.isOpenMarkup = true) : closeTag <:+: t := by
  obtain ⟨front, back, rfl⟩ := List.append_of_mem mem
  obtain ⟨before', r, first, -⟩ := run.exists_of_append
  obtain ⟨-, -, -, found, -⟩ := Terminal.first_eq_some_iff.mp first
  rw [Lexeme.terminal_of_isOpenMarkup outside] at found
  obtain ⟨r', split, length⟩ := Terminal.inlineHtml_eq_some_iff.mp found
  obtain ⟨c, d, w, text⟩ : ∃ c d w, l.text = c :: d :: w := by
    match h : l.text with
    | [] | [_] => simp [h] at length
    | c :: d :: w => exact ⟨c, d, w, rfl⟩
  rw [text] at split
  obtain ⟨rfl, rfl, -⟩ : c = '?' ∧ d = '>' ∧ w ++ r = r' := by simpa using split
  rw [run.eq_append, List.flatMap_append, List.flatMap_cons, text]
  exact ⟨front.flatMap Lexeme.text, w ++ back.flatMap Lexeme.text ++ rest, by simp [closeTag]⟩

/-- The line of a rejection is the offset behind the first character of a closing tag. -/
def PointsAtTag (t : Text) (rejection : Rejection) : Prop :=
  ∃ n, rejection.diagnostic.line = n + 1 ∧ closeTag <+: t.drop n

/-- The offset of the last closing tag is reported where the text holds one. -/
theorem pointsAtTag_of_infix {file : Option Text} {rejection : Rejection}
    (rejected : checkTrailingBuffer t s file = .error rejection) (stands : closeTag <:+: t) :
    PointsAtTag t rejection := by
  rw [checkTrailingBuffer] at rejected
  split at rejected
  · cases rejected
  · rename_i offset found
    cases rejected
    rw [trailingBuffer?, Option.ite_none_right_eq_some, Option.some.injEq] at found
    obtain ⟨-, rfl⟩ := found
    obtain ⟨n, last, here⟩ := exists_findLast stands
    exact ⟨n, by rw [last]; rfl, here⟩

/-- A final tag without a gap stands in the text. -/
theorem IsFinalTag.infix (tag : IsFinalTag t ps [] tail) : closeTag <:+: t := by
  have whole := flatMap_source_cut commentOrStringPattern t
  rw [tag.split, List.flatMap_append] at whole
  exact ⟨ps.flatMap Piece.source, tail.flatMap Piece.source,
    by rw [← whole]; simp [Piece.source, closeTag]⟩

/-- A text that lexes is rejected for what stands behind a closing tag only if it ends in markup, or
if the tag that it ends in for the filter misleads. Unless something was dropped inside that tag, and
in the first case anyway, a closing tag stands at the reported offset. -/
theorem endsInMarkup_or_misleads {file : Option Text} {rejection : Rejection}
    (report : lexicalReport? t = .ok none)
    (rejected : checkTrailingBuffer t (stripComments t) file = .error rejection) :
    ∃ ps gap tail, IsFinalTag t ps gap tail ∧ (gap = [] → PointsAtTag t rejection) ∧
      ((endsInMarkup t = true ∧ PointsAtTag t rejection) ∨
        ∃ front l back u v, MarkWithin t ps front l back u v ∧ Misleads front l back) := by
  have complete := lexicalReport_eq_none_iff.mp report
  have ends : endsWith closeTag (trimEnd (stripComments t)) = true := by
    rw [checkTrailingBuffer, trailingBuffer?] at rejected
    cases ends : endsWith closeTag (trimEnd (stripComments t)) with
    | true => rfl
    | false =>
        rw [ends] at rejected
        cases rejected
  obtain ⟨ps, gap, tail, tag⟩ := endsWith_closeTag_iff.mp ends
  refine ⟨ps, gap, tail, tag, ?_, ?_⟩
  · rintro rfl
    exact pointsAtTag_of_infix rejected tag.infix
  · obtain ⟨front, l, back, u, v, mark, cuts⟩ := tag.exists_markWithin complete
    obtain outside | misleads := tag.isOpenMarkup_or_misleads mark complete cuts
    · left
      have run := Lexes.of t
      rw [mark.lexemes] at run
      have stands := infix_of_isOpenMarkup run (by simp) outside
      obtain ⟨rfl, -⟩ := run.eq_nil_of_isOpenMarkup outside
      refine ⟨?_, pointsAtTag_of_infix rejected stands⟩
      rw [endsInMarkup_eq complete, mark.lexemes, List.getLast?_concat, Option.any_some, outside]
    · exact .inr ⟨front, l, back, u, v, mark, misleads⟩

/-- A line feed behind the last closing tag of a text. -/
theorem endsInMarkup_or_misleads_call :
    ∃ rejection, checkTrailingBuffer "<?php f(); ?>\n".toList
        (stripComments "<?php f(); ?>\n".toList) none = .error rejection ∧
      rejection.diagnostic.line = 12 ∧
      ∃ ps gap tail, IsFinalTag "<?php f(); ?>\n".toList ps gap tail ∧
        (gap = [] → PointsAtTag "<?php f(); ?>\n".toList rejection) ∧
        ((endsInMarkup "<?php f(); ?>\n".toList = true ∧
            PointsAtTag "<?php f(); ?>\n".toList rejection) ∨
          ∃ front l back u v, MarkWithin "<?php f(); ?>\n".toList ps front l back u v ∧
            Misleads front l back) :=
  ⟨_, rfl, rfl, endsInMarkup_or_misleads (by decide +kernel) rfl⟩

/-- Texts that are rejected for what stands behind a closing tag although they do not end in markup:
a tag that opens PHP again stands in what the filter takes for a comment, a heredoc holds a tag, and a
comment stands between two operators. -/
theorem checkTrailingBuffer_inside :
    (["<?php f(); ?> // <?php g();", "<?php $a = <<<E\n?>/*\nE; /**/", "<?php $a ?/**/>"].map
      String.toList).Forall fun t => lexicalReport? t = .ok none ∧
        (checkTrailingBuffer t (stripComments t) none).isOk = false ∧ endsInMarkup t = false := by
  decide +kernel

end FinalTag
end PhpGate
