import PhpGate.Proofs.Text.Pieces
import PhpGate.Proofs.Token.Comment
import PhpGate.Proofs.Token.Content
import PhpGate.Source.Filter

/-!
The filter that removes comments, seen from the lexer. On legible code, where no token is read in a
way the filter does not know, each of its matches is a string or a comment of the lexer, and it
starts no match within another token. Ordinary code is legible.
-/

namespace PhpGate

open Text Source

namespace Lexeme

def isComment (l : Lexeme) : Bool :=
  l.terminal == .lineComment || l.terminal == .blockComment

/-- What the filter leaves of a lexeme: the line feeds of a comment, all of anything else. -/
def stripped (l : Lexeme) : Text :=
  if l.isComment then keepNewlines l.text else l.text

theorem stripped_of_comment {l : Lexeme} (h : l.isComment = true) :
    l.stripped = keepNewlines l.text :=
  if_pos h

theorem stripped_of_not_comment {l : Lexeme} (h : l.isComment = false) : l.stripped = l.text :=
  if_neg (by simp [h])

/-- Lexemes that the lexer and the filters read alike: no markup, heredoc or command, and no string
with an interpolation in braces. -/
def isOrdinary (l : Lexeme) : Bool :=
  match l.terminal with
  | .inlineHtml | .heredoc | .backtick => false
  | .doubleQuoted => (find? "\x7b$".toList l.text).isNone
  | _ => true

end Lexeme

/-- A text in which no string or comment starts, whatever comes after it. -/
def opensNothing : Text → Bool
  | [] => true
  | c :: r =>
      (isPlain c || (c == '/' && r.head?.any fun d => d != '/' && d != '*')) && opensNothing r

/-- Lexemes that the filters come out of where the lexer does. Markup, heredocs and commands are
code to them, and a string ends for them at its first quote that is not escaped. -/
def Lexeme.isLegible (l : Lexeme) : Bool :=
  match l.terminal with
  | .inlineHtml | .heredoc | .backtick => opensNothing l.text
  | .doubleQuoted => stringLength? l.text == some l.text.length
  | _ => true

/-- A text that lexes and whose tokens are ordinary. -/
structure IsOrdinary (t : Text) : Prop where
  complete : (Lexing.of t).complete = true
  tokens : ∀ token ∈ tokens t, token.toLexeme.isOrdinary = true

/-- A text that lexes and whose tokens are legible. -/
structure IsLegible (t : Text) : Prop where
  complete : (Lexing.of t).complete = true
  tokens : ∀ token ∈ tokens t, token.toLexeme.isLegible = true

variable {before r w : Text} {c : Char}

theorem commentOrString_of_plain (plain : isPlain c = true) :
    commentOrStringPattern before (c :: r) = none := by
  simp only [isPlain, Bool.and_eq_true, bne_iff_ne] at plain
  obtain ⟨⟨⟨single, double⟩, slash⟩, hash⟩ := plain
  simp [commentOrStringPattern, stringLength?, single, double, lineCommentLength_cons,
    blockCommentLength_cons, slash, hash]

theorem commentOrString_of_operator (goesOn : continuesOperator c r.head? = true) :
    commentOrStringPattern before (c :: r) = none := by
  by_cases slash : c = '/'
  · subst slash
    obtain ⟨star, again⟩ : r.head? ≠ some '*' ∧ r.head? ≠ some '/' := by
      simpa [continuesOperator] using goesOn
    simp [commentOrStringPattern, stringLength?, lineCommentLength_cons, blockCommentLength_cons,
      star, again]
  · refine commentOrString_of_plain ?_
    rw [isPlain]
    by_cases mark : c = '?'
    · subst mark
      rfl
    · have listed : c ∈ "-+*%=<>!&|^~.:@".toList := by
        simpa [continuesOperator, mark, slash] using goesOn
      have plain : ∀ d ∈ "-+*%=<>!&|^~.:@".toList, isPlain d = true := by simp [isPlain]
      exact plain c listed

theorem commentOrString_of_attribute :
    commentOrStringPattern before ('#' :: '[' :: r) = none := rfl

theorem commentOrString_of_opensNothing {u v : Text} (quiet : opensNothing (u ++ c :: v) = true) :
    commentOrStringPattern before (c :: (v ++ r)) = none := by
  induction u with
  | nil =>
      simp only [List.nil_append, opensNothing, Bool.and_eq_true, Bool.or_eq_true, beq_iff_eq] at quiet
      obtain ⟨plain | ⟨rfl, next⟩, -⟩ := quiet
      · exact commentOrString_of_plain plain
      · cases v with
        | nil => cases next
        | cons d v =>
            refine commentOrString_of_operator (c := '/') ?_
            simpa [continuesOperator, and_comm] using next
  | cons d u ih =>
      simp only [List.cons_append, opensNothing, Bool.and_eq_true] at quiet
      exact ih quiet.2

/-- A character of a token that is neither a string nor a comment. -/
theorem code_cases {k : Terminal} (legible : Lexeme.isLegible ⟨k, w⟩ = true)
    (first : Terminal.first? before (w ++ r) = some (k, w.length))
    (other : k ≠ .singleQuoted ∧ k ≠ .doubleQuoted ∧ k ≠ .lineComment ∧ k ≠ .blockComment)
    {u v : Text} (split : w = u ++ c :: v) :
    isPlain c = true ∨ continuesOperator c (v ++ r).head? = true ∨ (c = '#' ∧ v = ['[']) ∨
      opensNothing (u ++ c :: v) = true := by
  obtain ⟨-, -, -, found, -⟩ := Terminal.first_eq_some_iff.mp first
  by_cases bare : k.isBare = true
  · have chars := Terminal.length_bare bare found
    rw [BareUpTo, List.take_left, split, List.all_append, List.all_cons] at chars
    simp only [Bool.and_eq_true] at chars
    exact .inl (isPlain_of_isBare chars.2.1)
  · cases k with
    | openTag =>
        have chars := openTagLength_plain found
        rw [List.take_left, split, List.all_append, List.all_cons] at chars
        simp only [Bool.and_eq_true] at chars
        exact .inl chars.2.1
    | operator =>
        subst split
        exact .inr (.inl (Terminal.operator_continues found))
    | attributeBracket =>
        rw [fixedLength_text found] at split
        cases u with
        | nil =>
            cases split
            exact .inr (.inr (.inl ⟨rfl, rfl⟩))
        | cons _ u =>
            cases u with
            | nil =>
                cases split
                exact .inl rfl
            | cons _ _ => simp at split
    | inlineHtml | heredoc | backtick => exact .inr (.inr (.inr (split ▸ legible)))
    | lineComment | blockComment | doubleQuoted | singleQuoted => simp at other
    | _ => exact absurd rfl bare

/-- Within a token that is neither a string nor a comment the filter finds no match. -/
theorem commentOrString_within {k : Terminal} (legible : Lexeme.isLegible ⟨k, w⟩ = true)
    (first : Terminal.first? before (w ++ r) = some (k, w.length))
    (other : k ≠ .singleQuoted ∧ k ≠ .doubleQuoted ∧ k ≠ .lineComment ∧ k ≠ .blockComment)
    {u v : Text} (split : w = u ++ c :: v) (before' : Text) :
    commentOrStringPattern before' (c :: (v ++ r)) = none := by
  obtain plain | goesOn | ⟨rfl, rfl⟩ | quiet := code_cases legible first other split
  · exact commentOrString_of_plain plain
  · exact commentOrString_of_operator goesOn
  · exact commentOrString_of_attribute
  · exact commentOrString_of_opensNothing quiet

theorem find_isNone {needle t : Text} (h : (find? needle t).isNone = true) : ¬ needle <:+: t := by
  induction t with
  | nil =>
      cases needle with
      | nil => cases h
      | cons c needle => simp
  | cons c t ih =>
      rw [find?] at h
      split at h
      · cases h
      · rename_i here
        rw [Option.isNone_map] at h
        rw [List.infix_cons_iff]
        rintro (stands | later)
        · exact here (List.isPrefixOf_iff_prefix.mpr stands)
        · exact ih h later

/-- Without an interpolation in braces a double-quoted text ends at the first quote that is not
escaped. -/
theorem quotedLength_of_interpolatedLength {t : Text} {n : Nat}
    (h : interpolatedLength? .outside t = some n) (plain : ¬ "\x7b$".toList <:+: t.take n) :
    quotedLength? '"' t = some n := by
  induction hn : t.length using Nat.strongRecOn generalizing t n with
  | ind m ih =>
      cases t with
      | nil => cases h
      | cons c r =>
          rw [interpolatedLength_outside_cons] at h
          rw [quotedLength_cons (by decide)]
          by_cases escape : c = '\\'
          · rw [if_pos escape] at h ⊢
            cases r with
            | nil => cases h
            | cons d r =>
                obtain ⟨k, found, rfl⟩ := Option.map_eq_some_iff.mp h
                have later := ih r.length (by simp at hn; omega) found
                  (fun inside => plain (inside.trans ⟨[c, d], [], by simp⟩)) rfl
                simpa using later
          · rw [if_neg escape] at h ⊢
            by_cases opens : c = '\x7b' ∧ r.head? = some '$'
            · rw [if_pos opens] at h
              obtain ⟨rfl, head⟩ := opens
              cases r with
              | nil => cases head
              | cons d r =>
                  cases head
                  obtain ⟨k, -, rfl⟩ := Option.map_eq_some_iff.mp h
                  exact absurd ⟨[], r.take k, rfl⟩ plain
            · rw [if_neg opens] at h
              by_cases quote : c = '"'
              · rw [if_pos quote] at h ⊢
                exact h
              · rw [if_neg quote] at h ⊢
                obtain ⟨k, found, rfl⟩ := Option.map_eq_some_iff.mp h
                have later := ih r.length (by simp at hn; omega) found
                  (fun inside => plain (inside.trans ⟨[c], [], by simp⟩)) rfl
                simp [later]

section Quoted

variable {quote : Char} {t : Text} {n : Nat}

/-- A quoted text is known by itself, whatever comes after it. -/
theorem quotedLength_append (plain : quote ≠ '\\') (h : quotedLength? quote t = some n) (r : Text) :
    quotedLength? quote (t ++ r) = some n := by
  fun_induction quotedLength? quote t generalizing n with
  | case1 => cases h
  | case2 d t ih =>
      obtain ⟨m, found, rfl⟩ := Option.map_eq_some_iff.mp h
      simp [quotedLength?, ih found]
  | case3 t => simpa [quotedLength_cons plain, plain] using h
  | case4 => cases h
  | case5 c t _ other slash ih =>
      obtain ⟨m, found, rfl⟩ := Option.map_eq_some_iff.mp h
      simp [quotedLength_cons plain, other, slash, ih found]

theorem quotedLength_take (plain : quote ≠ '\\') (h : quotedLength? quote t = some n) :
    quotedLength? quote (t.take n) = some n ∧ (t.take n).getLast? = some quote := by
  fun_induction quotedLength? quote t generalizing n with
  | case1 => cases h
  | case2 d t ih =>
      obtain ⟨m, found, rfl⟩ := Option.map_eq_some_iff.mp h
      obtain ⟨whole, last⟩ := ih found
      simp [quotedLength?, whole, List.getLast?_cons, last]
  | case3 t =>
      cases h
      simp [quotedLength_cons plain, plain]
  | case4 => cases h
  | case5 c t _ other slash ih =>
      obtain ⟨m, found, rfl⟩ := Option.map_eq_some_iff.mp h
      obtain ⟨whole, last⟩ := ih found
      simp [quotedLength_cons plain, other, slash, whole, List.getLast?_cons, last]

end Quoted

/-- The quote that a kind of string stands in, if the filters know it. -/
def Terminal.quote? : Terminal → Option Char
  | .singleQuoted => some '\''
  | .doubleQuoted => some '"'
  | _ => none

theorem Terminal.quote_eq_some {k : Terminal} {q : Char} (h : k.quote? = some q) :
    q = '\'' ∨ q = '"' := by
  cases k with
  | singleQuoted =>
      cases h
      exact .inl rfl
  | doubleQuoted =>
      cases h
      exact .inr rfl
  | _ => cases h

theorem isComment_of_quote {k : Terminal} {q : Char} (string : k.quote? = some q) :
    Lexeme.isComment ⟨k, w⟩ = false := by
  cases k with
  | singleQuoted | doubleQuoted => rfl
  | _ => cases string

/-- A legible string is its quote and a text that the filters read up to the same end. -/
theorem quotedLength_of_isLegible {k : Terminal} {q : Char} (legible : Lexeme.isLegible ⟨k, w⟩ = true)
    (first : Terminal.first? before (w ++ r) = some (k, w.length)) (string : k.quote? = some q) :
    ∃ v, w = q :: v ∧ quotedLength? q v = some v.length := by
  obtain ⟨-, -, -, found, -⟩ := Terminal.first_eq_some_iff.mp first
  obtain ⟨c, v, rfl⟩ := List.exists_cons_of_length_pos (Terminal.first_fits first).1
  cases k with
  | singleQuoted =>
      cases string
      rw [List.cons_append, Terminal.singleQuoted_cons, Option.ite_none_right_eq_some] at found
      obtain ⟨rfl, found⟩ := found
      obtain ⟨n, inside, length⟩ := Option.map_eq_some_iff.mp found
      obtain rfl : n = v.length := Nat.succ.inj length
      have whole := (quotedLength_take (by decide) inside).1
      rw [List.take_left] at whole
      exact ⟨v, rfl, whole⟩
  | doubleQuoted =>
      cases string
      rw [List.cons_append, Terminal.doubleQuoted_cons, Option.ite_none_right_eq_some] at found
      obtain ⟨rfl, -⟩ := found
      have whole : stringLength? ('"' :: v) = some ('"' :: v).length := by
        simpa [Lexeme.isLegible] using legible
      exact ⟨v, rfl, by simpa [stringLength?] using whole⟩
  | _ => cases string

theorem quote_plain {q : Char} (quote : q = '\'' ∨ q = '"') : q ≠ '\\' := by
  rintro rfl
  simp at quote

/-- A string that the filters have read is read alike in front of any other text. -/
theorem stringLength_append {q : Char} {v : Text} (quote : q = '\'' ∨ q = '"')
    (whole : quotedLength? q v = some v.length) (r : Text) :
    stringLength? ((q :: v) ++ r) = some (q :: v).length := by
  rw [List.cons_append, stringLength?, if_pos quote, quotedLength_append (quote_plain quote) whole]
  rfl

theorem isLegible_of_isOrdinary {k : Terminal} (ordinary : Lexeme.isOrdinary ⟨k, w⟩ = true)
    (first : Terminal.first? before (w ++ r) = some (k, w.length)) :
    Lexeme.isLegible ⟨k, w⟩ = true := by
  cases k with
  | inlineHtml | heredoc | backtick => cases ordinary
  | doubleQuoted =>
      obtain ⟨-, -, -, found, -⟩ := Terminal.first_eq_some_iff.mp first
      obtain ⟨c, v, rfl⟩ := List.exists_cons_of_length_pos (Terminal.first_fits first).1
      rw [List.cons_append, Terminal.doubleQuoted_cons, Option.ite_none_right_eq_some] at found
      obtain ⟨rfl, found⟩ := found
      obtain ⟨n, inside, length⟩ := Option.map_eq_some_iff.mp found
      obtain rfl : n = v.length := Nat.succ.inj length
      have body : (v ++ r).take v.length = v := List.take_left
      have plain : ¬ "\x7b$".toList <:+: (v ++ r).take v.length := by
        rw [body]
        exact fun within => find_isNone ordinary (within.trans ⟨['"'], [], by simp⟩)
      have whole := (quotedLength_take (by decide) (quotedLength_of_interpolatedLength inside plain)).1
      rw [body] at whole
      simp [Lexeme.isLegible, stringLength?, whole]
  | _ => rfl

theorem Lexeme.comment_sign {l : Lexeme} (h : l.isComment = true)
    (first : Terminal.first? before (l.text ++ r) = some (l.terminal, l.text.length)) :
    ∃ c v, l.text = c :: v ∧ (c = '/' ∨ c = '#') := by
  obtain ⟨k, w⟩ := l
  obtain ⟨c, v, rfl⟩ := List.exists_cons_of_length_pos (Terminal.first_fits first).1
  obtain ⟨-, -, -, found, -⟩ := Terminal.first_eq_some_iff.mp first
  refine ⟨c, v, rfl, ?_⟩
  cases k with
  | lineComment =>
      have length : lineCommentLength? (c :: (v ++ r)) = some (c :: v).length := found
      exact (lineCommentLength_head length).imp_left And.left
  | blockComment =>
      have length : blockCommentLength? (c :: (v ++ r)) = some (c :: v).length := found
      exact .inl (blockCommentLength_head length)
  | _ => cases h

/-- What starts like a comment is no string, and is dropped but for its line feeds. -/
theorem comment_head (h : c = '/' ∨ c = '#') :
    stringLength? (c :: r) = none ∧ dropComment (c :: w) = keepNewlines (c :: w) := by
  obtain rfl | rfl := h <;> simp [stringLength?, dropComment]

/-- A comment is one match of the filter, which leaves its line feeds. -/
theorem commentOrString_of_comment (found : blockCommentLength? (w ++ r) = some w.length ∨
      lineCommentLength? (w ++ r) = some w.length) (before : Text) :
    commentOrStringPattern before (w ++ r) = some w.length ∧ dropComment w = keepNewlines w := by
  have positive : 0 < w.length := by
    obtain block | line := found
    · exact (blockCommentLength_fits _ _ block).1
    · exact (lineCommentLength_fits _ _ line).1
  obtain ⟨c, v, rfl⟩ := List.exists_cons_of_length_pos positive
  rw [List.cons_append] at found ⊢
  obtain length | length := found
  · obtain ⟨string, kept⟩ :=
      comment_head (r := v ++ r) (w := v) (.inl (blockCommentLength_head length))
    rw [commentOrStringPattern, string, length]
    exact ⟨rfl, kept⟩
  · have head := lineCommentLength_head length
    have block : blockCommentLength? (c :: (v ++ r)) = none := by
      rw [blockCommentLength_cons]
      obtain ⟨-, again⟩ | rfl := head <;> simp [*]
    obtain ⟨string, kept⟩ := comment_head (r := v ++ r) (w := v) (head.imp_left And.left)
    rw [commentOrStringPattern, string, block]
    exact ⟨length, kept⟩

/-- A text that is one string of the filter. -/
def IsString (w : Text) : Prop :=
  ∃ q v, w = q :: v ∧ (q = '\'' ∨ q = '"') ∧ quotedLength? q v = some v.length

theorem IsString.getLast (h : IsString w) :
    ∃ q, (q = '\'' ∨ q = '"') ∧ w.getLast? = some q := by
  obtain ⟨q, v, rfl, quote, whole⟩ := h
  have last := (quotedLength_take (quote_plain quote) whole).2
  rw [List.take_length] at last
  exact ⟨q, quote, by rw [List.getLast?_cons, last]; rfl⟩

theorem IsString.stringLength (h : IsString w) (r : Text) :
    stringLength? (w ++ r) = some w.length := by
  obtain ⟨q, v, rfl, quote, whole⟩ := h
  exact stringLength_append quote whole r

/-- A string is one match of the filter, which keeps it. -/
theorem commentOrString_of_string (string : IsString w) (before r : Text) :
    commentOrStringPattern before (w ++ r) = some w.length ∧ dropComment w = w := by
  rw [commentOrStringPattern, string.stringLength r]
  obtain ⟨q, v, rfl, quote, -⟩ := string
  exact ⟨rfl, if_pos (quote.imp (congrArg some) (congrArg some))⟩

theorem stringLength_le {t : Text} {n : Nat} (h : stringLength? t = some n) : n ≤ t.length := by
  cases t with
  | nil => cases h
  | cons c t =>
      rw [stringLength?, Option.ite_none_right_eq_some] at h
      obtain ⟨m, inside, rfl⟩ := Option.map_eq_some_iff.mp h.2
      exact Nat.succ_le_succ (quotedLength_fits _ _ m inside).2

theorem isString_cons {q : Char} {n : Nat} (quote : q = '\'' ∨ q = '"')
    (closed : quotedLength? q r = some n) : IsString (q :: r.take n) := by
  refine ⟨q, r.take n, rfl, quote, ?_⟩
  rw [(quotedLength_take (quote_plain quote) closed).1,
    List.length_take_of_le (quotedLength_fits _ _ n closed).2]

theorem isString_take {t : Text} {n : Nat} (h : stringLength? t = some n) : IsString (t.take n) := by
  cases t with
  | nil => cases h
  | cons q r =>
      rw [stringLength?, Option.ite_none_right_eq_some] at h
      obtain ⟨m, closed, rfl⟩ := Option.map_eq_some_iff.mp h.2
      exact isString_cons h.1 closed

/-- A match of the filter is a string or a comment. -/
theorem exists_of_commentOrString {t : Text} {n : Nat}
    (found : commentOrStringPattern before t = some n) :
    ∃ w r, t = w ++ r ∧ w.length = n ∧ (IsString w ∨
      blockCommentLength? (w ++ r) = some w.length ∨ lineCommentLength? (w ++ r) = some w.length) := by
  have cuts (fits : n ≤ t.length) : t = t.take n ++ t.drop n ∧ (t.take n).length = n :=
    ⟨(List.take_append_drop n t).symm, List.length_take_of_le fits⟩
  rw [commentOrStringPattern] at found
  split at found
  · rename_i m string
    cases found
    obtain ⟨split, length⟩ := cuts (stringLength_le string)
    exact ⟨_, _, split, length, .inl (isString_take string)⟩
  · split at found
    · rename_i m block
      cases found
      obtain ⟨split, length⟩ := cuts (blockCommentLength_fits _ _ block).2
      exact ⟨_, _, split, length, .inr (.inl (by rw [← split, length, block]))⟩
    · obtain ⟨split, length⟩ := cuts (lineCommentLength_fits _ _ found).2
      exact ⟨_, _, split, length, .inr (.inr (by rw [← split, length, found]))⟩

/-- A string or a comment is one match of the filter. -/
theorem commentOrString_at {k : Terminal} (legible : Lexeme.isLegible ⟨k, w⟩ = true)
    (first : Terminal.first? before (w ++ r) = some (k, w.length))
    (matched : (∃ q, k.quote? = some q) ∨ k = .lineComment ∨ k = .blockComment) (before' : Text) :
    commentOrStringPattern before' (w ++ r) = some w.length ∧
      dropComment w = Lexeme.stripped ⟨k, w⟩ := by
  obtain ⟨q, string⟩ | rfl | rfl := matched
  · obtain ⟨v, rfl, whole⟩ := quotedLength_of_isLegible legible first string
    rw [Lexeme.stripped_of_not_comment (isComment_of_quote string)]
    exact commentOrString_of_string ⟨q, v, rfl, Terminal.quote_eq_some string, whole⟩ before' r
  · obtain ⟨-, -, -, found, -⟩ := Terminal.first_eq_some_iff.mp first
    rw [Lexeme.stripped_of_comment rfl]
    exact commentOrString_of_comment (.inr found) before'
  · obtain ⟨-, -, -, found, -⟩ := Terminal.first_eq_some_iff.mp first
    rw [Lexeme.stripped_of_comment rfl]
    exact commentOrString_of_comment (.inl found) before'

theorem matched_cases (k : Terminal) :
    ((∃ q, k.quote? = some q) ∨ k = .lineComment ∨ k = .blockComment) ∨
      (k ≠ .singleQuoted ∧ k ≠ .doubleQuoted ∧ k ≠ .lineComment ∧ k ≠ .blockComment) := by
  cases k <;> simp [Terminal.quote?]

/-- Cutting out comments goes lexeme by lexeme, whatever stands behind the last one. -/
theorem Takes.cut_comments {ls : List Lexeme} (takes : Takes before ls r)
    (legible : ∀ l ∈ ls, l.isLegible = true) (before' : Text) :
    ∃ pieces, cutAfter commentOrStringPattern before' 0 (ls.flatMap Lexeme.text ++ r)
        = pieces ++ cutAfter commentOrStringPattern ((ls.flatMap Lexeme.text).reverse ++ before') 0 r ∧
      pieces.flatMap Piece.source = ls.flatMap Lexeme.text ∧
      pieces.flatMap (Piece.substitute dropComment) = ls.flatMap Lexeme.stripped := by
  induction ls generalizing before before' with
  | nil => exact ⟨[], rfl, rfl, rfl⟩
  | cons l ls ih =>
      obtain ⟨k, w⟩ := l
      obtain ⟨first, later⟩ := takes
      obtain ⟨here, others⟩ := List.forall_mem_cons.mp legible
      obtain ⟨pieces, cut, source, left⟩ := ih later others (w.reverse ++ before')
      rw [List.flatMap_cons, List.flatMap_cons, List.append_assoc, List.reverse_append,
        List.append_assoc]
      obtain matched | other := matched_cases k
      · obtain ⟨found, kept⟩ := commentOrString_at here first matched before'
        have nonempty : w ≠ [] := List.length_pos_iff.mp (Terminal.first_fits first).1
        refine ⟨.hit w :: pieces, ?_, ?_, ?_⟩
        · rw [cutAfter_hit nonempty found, cut, List.cons_append]
        · rw [List.flatMap_cons, source, Piece.source]
        · rw [List.flatMap_cons, left, Piece.substitute, kept]
      · refine ⟨w.map .kept ++ pieces, ?_, ?_, ?_⟩
        · rw [cutAfter_kept fun u c v split => commentOrString_within here first other split _, cut,
            List.append_assoc]
        · rw [List.flatMap_append, source, flatMap_source_kept]
        · rw [List.flatMap_append, left, flatMap_substitute_kept,
            Lexeme.stripped_of_not_comment (by simp [Lexeme.isComment, other])]

theorem mem_tokens_iff {t : Text} {l : Lexeme} :
    (∃ token ∈ tokens t, token.toLexeme = l) ↔
      l ∈ (Lexing.of t).lexemes ∧ l.terminal.isTrivia = false := by
  rw [← List.mem_map, tokens_toLexeme, significant, List.mem_filter, Bool.not_eq_true']

theorem Lexeme.isLegible_of_isTrivia {l : Lexeme} (trivia : l.terminal.isTrivia = true) :
    l.isLegible = true := by
  obtain ⟨k, w⟩ := l
  cases k with
  | blank | lineComment | blockComment => rfl
  | _ => cases trivia

theorem IsLegible.lexemes {t : Text} (h : IsLegible t) :
    ∀ l ∈ (Lexing.of t).lexemes, l.isLegible = true := by
  intro l mem
  cases trivia : l.terminal.isTrivia with
  | true => exact l.isLegible_of_isTrivia trivia
  | false =>
      obtain ⟨token, placed, rfl⟩ := mem_tokens_iff.mpr ⟨mem, trivia⟩
      exact h.tokens token placed

theorem IsOrdinary.isLegible {t : Text} (h : IsOrdinary t) : IsLegible t := by
  refine ⟨h.complete, fun token placed => ?_⟩
  obtain ⟨mem, -⟩ := mem_tokens_iff.mp ⟨token, placed, rfl⟩
  obtain ⟨before, r, first⟩ := (Lexes.of t).first_of_mem mem
  exact isLegible_of_isOrdinary (h.tokens token placed) first

/-- On legible code the filter removes the comments of the lexer and nothing else. -/
theorem IsLegible.stripComments_eq {t : Text} (h : IsLegible t) :
    stripComments t = (Lexing.of t).lexemes.flatMap Lexeme.stripped := by
  have run := Lexes.of t
  rw [List.isEmpty_iff.mp h.complete] at run
  obtain ⟨pieces, cut, -, left⟩ := run.takes.cut_comments h.lexemes []
  rw [← run.eq_append, List.append_nil] at cut
  rw [stripComments, substitute, Text.cut, cut, cutAfter, List.append_nil, left]

theorem stripComments_eq_flatMap {t : Text} (h : IsOrdinary t) :
    stripComments t = (Lexing.of t).lexemes.flatMap Lexeme.stripped :=
  h.isLegible.stripComments_eq

end PhpGate
