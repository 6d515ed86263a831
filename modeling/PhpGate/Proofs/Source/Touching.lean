import PhpGate.Proofs.Source.Separation
import PhpGate.Proofs.Token.Naming

/-!
Which tokens are read again once the comments beside them are gone. A token takes along what it can
of the text that comes to stand behind it, a few words and braces depend on more of the text around
them, and nothing else can go wrong. All of this can be checked on what is left of the text.
-/

namespace PhpGate

open Text Source

/-- Tokens that more than the next character decides: names with white space in them, numbers in
front of what could be an exponent, and the beginnings of a heredoc and of an open tag. -/
def Lexeme.isDelicate (behind : Text) (l : Lexeme) : Bool :=
  match l.terminal with
  | .name => l.text.any isBlank
  | .number => behind.head?.any isExponent
  | .operator => l.text == "<<<".toList || l.text == "<?".toList
  | _ => false

variable {before before' t w r X Y rest : Text} {c d : Char} {l m : Lexeme}
  {front back ls : List Lexeme}

/-- A token that the comments around it do not matter to: what comes to stand behind it in the place
of a comment is nothing that it takes along, and it still sees around it what it has to. -/
structure Undisturbed (front : List Lexeme) (l : Lexeme) (back : List Lexeme) : Prop where
  apart : back.head?.any Lexeme.isComment = true →
    (back.flatMap Lexeme.stripped).head?.any l.joins = false
  around : l.looksAround (front.flatMap Lexeme.stripped).reverse (back.flatMap Lexeme.stripped)
    = true

instance : Decidable (Undisturbed front l back) :=
  decidable_of_iff
    ((back.head?.any Lexeme.isComment = true →
        (back.flatMap Lexeme.stripped).head?.any l.joins = false) ∧
      l.looksAround (front.flatMap Lexeme.stripped).reverse (back.flatMap Lexeme.stripped) = true)
    ⟨fun h => ⟨h.1, h.2⟩, fun h => ⟨h.apart, h.around⟩⟩

/-- How the text behind a token may change: it begins as before, or it began with a comment and now
begins with nothing that the token takes along. -/
inductive FollowsAlike (l : Lexeme) (Y X : Text) : Prop
  | same (head : X.head? = Y.head?) (ends : l.terminal = .operator → Y.head?.any isSign = false)
  | apart (comment : Y.head?.any isExponent = false) (joins : X.head?.any l.joins = false)

theorem FollowsAlike.head (h : FollowsAlike l Y X) :
    X.head? = Y.head? ∨ X.head?.any l.joins = false := by
  cases h with
  | same head _ => exact .inl head
  | apart _ joins => exact .inr joins

theorem FollowsAlike.plain (h : FollowsAlike l Y X) (plain : X.head?.any isExponent = false) :
    Y.head?.any isExponent = false := by
  cases h with
  | same head _ => rwa [head] at plain
  | apart comment _ => exact comment

theorem any_eq_false_of_imp {p q : Char → Bool} (h : X.head?.any p = false)
    (imp : ∀ c, q c = true → p c = true) : X.head?.any q = false := by
  cases X with
  | nil => rfl
  | cons c X =>
      rw [List.head?_cons, Option.any_some, ← Bool.not_eq_true] at h ⊢
      exact fun here => h (imp c here)

theorem FollowsAlike.stop (h : FollowsAlike ⟨.operator, w⟩ Y X) : X.head?.any isSign = false := by
  cases h with
  | same head ends =>
      rw [head]
      exact ends rfl
  | apart _ joins =>
      refine any_eq_false_of_imp joins fun c sign => ?_
      simp [Lexeme.joins, sign]

/-- Behind a point that is an operator stood no digit, and none comes to stand there. -/
theorem FollowsAlike.digit (h : FollowsAlike ⟨.operator, ['.']⟩ Y X)
    (absent : numberLength? ('.' :: Y) = none) : X.head?.any isDecimalDigit = false := by
  cases h with
  | same head _ =>
      rw [head, ← Bool.not_eq_true]
      intro digit
      rw [numberLength_cons, if_pos rfl, if_pos digit] at absent
      cases absent
  | apart _ joins =>
      refine any_eq_false_of_imp joins fun c digit => ?_
      simp [Lexeme.joins, digit]

/-- A token is read alike between other texts if what it sees of them is alike. -/
theorem Lexeme.first_between
    (first : Terminal.first? before (l.text ++ Y) = some (l.terminal, l.text.length))
    (ordinary : l.isOrdinary = true) (token : l.terminal.isTrivia = false)
    (follows : FollowsAlike l Y X)
    (starts : startsKeyword before' = true → startsKeyword before = true)
    (brace : followsExpression before = true → followsExpression before' = true)
    (around : l.looksAround before' X = true) (sturdy : l.isDelicate X = false) :
    Terminal.first? before' (l.text ++ X) = some (l.terminal, l.text.length) := by
  obtain ⟨k, w⟩ := l
  obtain ⟨-, -, -, found, -⟩ := Terminal.first_eq_some_iff.mp first
  have head := follows.head
  cases k with
  | inlineHtml | heredoc | backtick => cases ordinary
  | lineComment | blockComment | blank => cases token
  | openTag => exact Terminal.first_openTag found
  | singleQuoted => exact Terminal.first_singleQuoted found
  | doubleQuoted => exact Terminal.first_doubleQuoted found
  | ellipsis | increment | attributeBracket | comma | openParen | openBracket | closeBrace
  | closeParen | closeBracket | semicolon => exact Terminal.first_punctuation rfl found
  | variableName => exact Terminal.first_variableName found head
  | colon => exact Terminal.first_colon found head
  | number => exact Terminal.first_number first (follows.plain sturdy) sturdy head
  | anonymousClass => exact Terminal.first_anonymousClass found around head
  | keywordOperator => exact Terminal.first_keywordOperator found around head
  | classKeyword =>
      rw [looksAround, Bool.and_eq_true, Bool.not_eq_true'] at around
      exact Terminal.first_classKeyword first around.1 around.2 head
  | matchKeyword =>
      simp only [looksAround, Bool.and_eq_true, Bool.not_eq_true', beq_iff_eq] at around
      exact Terminal.first_matchKeyword found around.1.1 around.1.2 around.2
  | name =>
      refine Terminal.first_name first sturdy starts (fun here => ?_) head
      rw [looksAround, here] at around
      exact around
  | operator =>
      rw [isDelicate, Bool.or_eq_false_iff, beq_eq_false_iff_ne, beq_eq_false_iff_ne] at sturdy
      refine Terminal.first_operator first follows.stop ?_ sturdy
      rintro rfl
      exact follows.digit (Terminal.length_eq_none_of_first first (show Terminal.number ∈ _ by decide))
  | expressionBrace =>
      rw [Terminal.length?, Option.ite_none_right_eq_some] at found
      obtain rfl := fixedLength_text found.2
      have read : Terminal.first? before' (['\x7b'] ++ X) = _ := Terminal.first_brace rfl
      rwa [if_pos (brace found.1)] at read
  | openBrace =>
      obtain rfl := fixedLength_text found
      have read : Terminal.first? before' (['\x7b'] ++ X) = _ := Terminal.first_brace rfl
      rw [looksAround, Bool.not_eq_true'] at around
      rwa [if_neg (by rw [around]; simp)] at read

/-- A sign that does not go on with an operator closes the code or opens a comment. -/
theorem Terminal.cases_of_stop {k : Terminal} {n : Nat}
    (first : first? before (c :: r) = some (k, n)) (sign : isSign c = true)
    (stops : continuesOperator c r.head? = false) : k ∈ [inlineHtml, lineComment, blockComment] := by
  obtain ⟨-, -, -, found, -⟩ := first_eq_some_iff.mp first
  have opens := opensWith_of_length found
  have other : k ≠ operator := by
    rintro rfl
    rw [length?, operatorRun, stops] at found
    cases found
  have marks : c = '?' ∨ c = '/' := by
    refine Decidable.byContradiction fun plain => ?_
    rw [not_or] at plain
    have further : c = '?' ∨ c = '/' ∨ "-+*%=<>!&|^~.:@".toList.contains c = true :=
      of_isSign (p := fun d => d = '?' ∨ d = '/' ∨ "-+*%=<>!&|^~.:@".toList.contains d = true)
        sign (by decide)
    rw [continuesOperator, beq_false_of_ne plain.1, beq_false_of_ne plain.2] at stops
    cases stops.symm.trans ((further.resolve_left plain.1).resolve_left plain.2)
  have question : ∀ k ∈ inOrder, k.opensWith '?' = true → k ≠ operator → k = inlineHtml := by decide
  have slash : ∀ k ∈ inOrder, k.opensWith '/' = true → k ≠ operator →
      k ∈ [lineComment, blockComment] := by decide
  obtain rfl | rfl := marks
  · rw [question k (mem_inOrder k) opens other]
    decide
  · exact List.mem_cons_of_mem _ (slash k (mem_inOrder k) opens other)

theorem operatorRun_stop (run : operatorRun (w ++ c :: r) = w.length) :
    continuesOperator c r.head? = false := by
  induction w with
  | nil =>
      rw [List.nil_append, operatorRun] at run
      split at run
      · cases run
      · simpa using ‹¬ continuesOperator c r.head? = true›
  | cons d w ih =>
      rw [List.cons_append, operatorRun] at run
      split at run
      · exact ih (Nat.succ.inj run)
      · cases run

theorem ordinary_kind (ordinary : m.isOrdinary = true) (code : m.isComment = false) :
    m.terminal ∉ [Terminal.inlineHtml, .lineComment, .blockComment] := by
  obtain ⟨k, w⟩ := m
  intro mem
  simp only [List.mem_cons, List.not_mem_nil, or_false] at mem
  obtain rfl | rfl | rfl := mem
  · cases ordinary
  · cases code
  · cases code

/-- What is left behind a token follows it as its text did, if the comments behind do not matter. -/
theorem Undisturbed.followsAlike (h : Undisturbed front l back)
    (first : Terminal.first? before (l.text ++ back.flatMap Lexeme.text)
      = some (l.terminal, l.text.length))
    (takes : Takes before' back []) (ordinary : ∀ m ∈ back, m.isOrdinary = true) :
    FollowsAlike l (back.flatMap Lexeme.text) (back.flatMap Lexeme.stripped) := by
  cases back with
  | nil => exact .same rfl fun _ => rfl
  | cons m back =>
      have here := takes.1
      cases comment : m.isComment with
      | true =>
          obtain ⟨c, v, text, sign⟩ := Lexeme.comment_sign comment here
          refine .apart ?_ (h.apart comment)
          rw [List.flatMap_cons, text]
          obtain rfl | rfl := sign <;> rfl
      | false =>
          obtain ⟨c, v, text⟩ := List.exists_cons_of_length_pos (Terminal.first_fits here).1
          refine .same ?_ fun operator => ?_
          · rw [List.flatMap_cons, List.flatMap_cons, Lexeme.stripped_of_not_comment comment, text]
            rfl
          · obtain ⟨-, -, -, found, -⟩ := Terminal.first_eq_some_iff.mp first
            rw [operator, Terminal.length?, someLength, Option.ite_none_left_eq_some,
              Option.some.injEq, List.flatMap_cons, text] at found
            rw [text] at here
            rw [List.flatMap_cons, text, List.cons_append, List.head?_cons, Option.any_some,
              ← Bool.not_eq_true]
            intro sign
            have stops := operatorRun_stop found.2
            rw [List.append_nil] at here
            exact ordinary_kind (ordinary m List.mem_cons_self) comment
              (Terminal.cases_of_stop here sign stops)

/-- A line comment ends in front of white space, or in front of markup. -/
theorem not_lineComment {n : Nat} {k : Terminal}
    (found : lineCommentLength? (w ++ c :: r) = some w.length)
    (first : Terminal.first? before (c :: r) = some (k, n)) (token : k.isTrivia = false) :
    k = .inlineHtml := by
  obtain ⟨rfl, close⟩ | line := lineCommentLength_closes found
  · obtain ⟨r, rfl⟩ := List.head?_eq_some_iff.mp close
    have markup : Terminal.first? before ('?' :: '>' :: r) = some (.inlineHtml, _) :=
      Terminal.first_of_length rfl nofun
    rw [markup] at first
    cases first
    rfl
  · have space : isSpace c = false := by
      refine not_isSpace_of_first first fun here => ?_
      rw [here] at token
      cases token
    obtain rfl | rfl := line <;> cases space

/-- A token sees around it what it has to wherever it is read. -/
theorem Lexeme.looksAround_of_first
    (first : Terminal.first? before (l.text ++ X) = some (l.terminal, l.text.length))
    (sturdy : l.isDelicate X = false) : l.looksAround before X = true := by
  obtain ⟨k, w⟩ := l
  obtain ⟨-, -, -, found, -⟩ := Terminal.first_eq_some_iff.mp first
  cases k with
  | anonymousClass =>
      simp only [Terminal.length?, anonymousClassLength_eq, Option.ite_none_right_eq_some,
        Bool.and_eq_true] at found
      exact found.1.1.1
  | keywordOperator =>
      simp only [Terminal.length?, keywordOperatorLength?, Option.ite_none_right_eq_some] at found
      exact found.1
  | classKeyword =>
      simp only [Terminal.length?, classKeywordLength?, Option.ite_none_right_eq_some,
        Option.filter_eq_some_iff, List.drop_left] at found
      exact Bool.and_eq_true_iff.mpr ⟨found.1, found.2.2⟩
  | matchKeyword =>
      simp only [Terminal.length?, matchKeywordLength?, Option.ite_none_right_eq_some,
        Bool.and_eq_true, Option.some.injEq] at found
      obtain ⟨⟨⟨starts, -⟩, paren⟩, length⟩ := found
      rw [length, List.drop_left] at paren
      rw [looksAround, Bool.and_eq_true, Bool.and_eq_true]
      exact ⟨starts, paren⟩
  | name =>
      have h : IsName w X := ⟨found, sturdy⟩
      rw [looksAround, Bool.or_eq_true, Bool.not_eq_true', or_iff_not_imp_left,
        Bool.not_eq_false]
      exact h.isNameBetween_of_first first
  | openBrace =>
      have absent := Terminal.length_eq_none_of_first first
        (show Terminal.expressionBrace ∈ Terminal.inOrder.takeWhile (· != .openBrace) by decide)
      have brace : fixedLength? ['\x7b'] (w ++ X) = some w.length := found
      rw [Terminal.length?, brace] at absent
      rw [looksAround, Bool.not_eq_true', ← Bool.not_eq_true]
      intro follows
      rw [if_pos follows] at absent
      cases absent
  | _ => rfl

/-- A token takes along what it can, wherever it is read. -/
theorem Lexeme.joins_of_first
    (first : Terminal.first? before (l.text ++ X) = some (l.terminal, l.text.length))
    (sturdy : l.isDelicate X = false)
    (stop : l.terminal = .operator → X.head?.any isSign = false) :
    X.head?.any l.joins = false := by
  obtain ⟨k, w⟩ := l
  obtain ⟨-, -, -, found, -⟩ := Terminal.first_eq_some_iff.mp first
  cases k with
  | anonymousClass => exact anonymousClassLength_stop found
  | keywordOperator =>
      simp only [Terminal.length?, keywordOperatorLength?, Option.ite_none_right_eq_some] at found
      exact ((wordLength_endsAt (by decide) w X).mp found.2).2
  | classKeyword =>
      simp only [Terminal.length?, classKeywordLength?, Option.ite_none_right_eq_some,
        Option.filter_eq_some_iff] at found
      exact ((wordLength_endsAt (by decide) w X).mp found.2.1).2
  | name => exact ((nameLength_endsAt w X).mp found).2
  | variableName => exact ((variableLength_endsAt w X).mp found).2
  | number => exact ((numberLength_append_iff sturdy).mp found).2
  | colon =>
      rw [Terminal.length?, Option.ite_none_right_eq_some, Option.some.injEq] at found
      obtain ⟨starts, length⟩ := found
      obtain ⟨c, rfl⟩ := List.length_eq_one_iff.mp length.symm
      rw [List.singleton_append, startsColon_cons, Bool.and_eq_true, bne_iff_ne] at starts
      cases X with
      | nil => rfl
      | cons d X => exact beq_false_of_ne fun again => starts.2 (congrArg some again)
  | operator =>
      cases X with
      | nil => rfl
      | cons d X =>
          have sign : isSign d = false := stop rfl
          rw [List.head?_cons, Option.any_some, joins, sign, Bool.false_or, Bool.and_eq_false_iff,
            beq_eq_false_iff_ne, or_iff_not_imp_left, not_not, ← Bool.not_eq_true]
          rintro rfl digit
          have absent := Terminal.length_eq_none_of_first first
            (show Terminal.number ∈ Terminal.inOrder.takeWhile (· != .operator) by decide)
          rw [Terminal.length?, List.singleton_append, numberLength_cons, if_pos rfl,
            if_pos (by exact digit)] at absent
          cases absent
  | _ => cases X <;> rfl

/-- White space and the signs that begin a token of their own. -/
def isSeparator (c : Char) : Bool :=
  isSpace c || "\"'(),;[]\x7b\x7d".toList.contains c

/-- No token takes a separator along. -/
theorem Lexeme.joins_of_isSeparator (separator : X.head?.all isSeparator = true) :
    X.head?.any l.joins = false := by
  cases X with
  | nil => rfl
  | cons c X =>
      have listed : c ∈ ['\t', '\n', '\x0b', '\x0c', '\r', '\x1c', '\x1d', '\x1e', '\x1f', ' ']
          ++ "\"'(),;[]\x7b\x7d".toList := by
        obtain space | sign := Bool.or_eq_true_iff.mp separator
        · exact List.mem_append_left _ (isSpace_cases space)
        · exact List.mem_append_right _ (List.contains_iff_mem.mp sign)
      have each : (['\t', '\n', '\x0b', '\x0c', '\r', '\x1c', '\x1d', '\x1e', '\x1f', ' ']
          ++ "\"'(),;[]\x7b\x7d".toList).all (fun d =>
          [isWord d, isIdentifierStart d, isIdentifierPart d, isDecimalDigit d, isSign d, d == '\\',
            d == '$', d == ':', d == '.'] == List.replicate 9 false) = true := by decide
      have plain := beq_iff_eq.mp (List.all_eq_true.mp each c listed)
      simp only [List.replicate, List.cons.injEq, and_true] at plain
      obtain ⟨word, start, part, digit, sign, slash, dollar, colon, point⟩ := plain
      rw [List.head?_cons, Option.any_some, joins]
      split
      · exact word
      · exact word
      · exact word
      · simp [joinsName, slash, start, part]
      · simp [joinsNumber, joinsTail, word, digit, point]
      · simp [joinsVariable, dollar, start, part]
      · exact colon
      · simp [sign, digit]
      · rfl

theorem Lexeme.joins_of_isPunctuation (sign : l.terminal.isPunctuation = true) (X : Text) :
    X.head?.any l.joins = false := by
  obtain ⟨k, w⟩ := l
  cases k with
  | ellipsis | increment | attributeBracket | comma | openParen | openBracket | closeBrace
  | closeParen | closeBracket | semicolon => cases X <;> rfl
  | _ => cases sign

section Front

variable (takes : Takes before (front ++ l :: back) [])
  (ordinary : ∀ m ∈ front ++ [l], m.isOrdinary = true) (token : l.terminal.isTrivia = false)
include takes ordinary token

/-- The character in front of a token belongs to no comment, if it is no slash. -/
theorem exists_last_code (last : (front.flatMap Lexeme.text).getLast? = some c) (other : c ≠ '/') :
    ∃ front' m v, front = front' ++ [m] ∧ m.isComment = false ∧ m.text = v ++ [c] := by
  obtain rfl | ⟨front, m, rfl⟩ := List.eq_nil_or_concat front
  · cases last
  rw [List.concat_eq_append] at takes ordinary last ⊢
  rw [List.append_assoc, List.singleton_append, takes_append] at takes
  obtain ⟨-, first, later, -⟩ := takes
  obtain ⟨d, u, text⟩ := List.exists_cons_of_length_pos (Terminal.first_fits later).1
  obtain empty | ⟨v, e, split⟩ := List.eq_nil_or_concat m.text
  · have pos := (Terminal.first_fits first).1
    rw [empty] at pos
    cases pos
  rw [List.concat_eq_append] at split
  have ends : c = e := by
    rw [List.flatMap_append, List.flatMap_singleton, split, List.getLast?_append,
      List.getLast?_concat] at last
    exact (Option.some.inj last).symm
  refine ⟨front, m, v, rfl, ?_, by rw [split, ends]⟩
  rw [← Bool.not_eq_true]
  intro comment
  obtain ⟨-, -, -, found, -⟩ := Terminal.first_eq_some_iff.mp first
  obtain ⟨k, w⟩ := m
  cases k with
  | blockComment =>
      have slash := getLast_of_blockCommentLength found
      rw [List.take_left, show w = v ++ [e] from split, List.getLast?_concat, ← ends] at slash
      exact other (Option.some.inj slash)
  | lineComment =>
      rw [List.flatMap_cons, List.append_assoc, text] at found
      rw [text] at later
      have markup := not_lineComment found later token
      have plain := ordinary l (by simp)
      rw [Lexeme.isOrdinary, markup] at plain
      cases plain
  | _ => cases comment

theorem getLast_stripped (last : (front.flatMap Lexeme.text).getLast? = some c)
    (other : c ≠ '/') : (front.flatMap Lexeme.stripped).getLast? = some c := by
  obtain ⟨front, m, v, rfl, code, text⟩ := exists_last_code takes ordinary token last other
  rw [List.flatMap_append, List.flatMap_singleton, Lexeme.stripped_of_not_comment code, text,
    List.getLast?_append, List.getLast?_concat]
  rfl

/-- Two characters in front of a token stay there, if neither of them is a slash and the second one
is no white space. -/
theorem exists_stripped {u : Text} (last : front.flatMap Lexeme.text = u ++ [d, c])
    (others : c ≠ '/' ∧ d ≠ '/') (ink : isBlank c = false) :
    ∃ u', front.flatMap Lexeme.stripped = u' ++ [d, c] := by
  have ends : (front.flatMap Lexeme.text).getLast? = some c := by
    rw [last]
    simp
  obtain ⟨front, m, v, rfl, code, text⟩ := exists_last_code takes ordinary token ends others.1
  have left : (front ++ [m]).flatMap Lexeme.stripped
      = front.flatMap Lexeme.stripped ++ v ++ [c] := by
    rw [List.flatMap_append, List.flatMap_singleton, Lexeme.stripped_of_not_comment code, text,
      List.append_assoc]
  rw [List.flatMap_append, List.flatMap_singleton, text] at last
  obtain rfl | ⟨v, e, rfl⟩ := List.eq_nil_or_concat v
  · -- The lexeme is this one character, and the character in front belongs to another one.
    have before : front.flatMap Lexeme.text = u ++ [d] := by
      have whole : front.flatMap Lexeme.text ++ [c] = u ++ [d] ++ [c] := by
        rw [List.append_assoc]
        exact last
      exact List.append_cancel_right whole
    rw [List.append_assoc] at takes
    have alone : m.terminal.isTrivia = false := by
      rw [takes_append] at takes
      obtain ⟨-, first, -⟩ := takes
      refine Bool.eq_false_iff.mpr fun trivia => ?_
      rw [text, Lexeme.blank_of_not_comment trivia code] at first
      have space := (isSpace_of_first_blank first).1
      simp [isSpace, ink] at space
    have stays := getLast_stripped takes (fun m' mem => ordinary m' (List.mem_append_left _ mem))
      alone (before ▸ List.getLast?_concat) others.2
    obtain ⟨u', split⟩ := List.getLast?_eq_some_iff.mp stays
    refine ⟨u', ?_⟩
    rw [left, split]
    simp
  · rw [List.concat_eq_append] at text left last
    have same : e = d := by
      have tails := congrArg (fun t => t.dropLast.getLast?) last
      simpa using tails
    refine ⟨front.flatMap Lexeme.stripped ++ v, ?_⟩
    rw [left, same]
    simp

/-- What stands right behind an operator of member access still does without comments. -/
theorem followsMember_stripped
    (follows : followsMember (front.flatMap Lexeme.text).reverse = true) :
    followsMember (front.flatMap Lexeme.stripped).reverse = true := by
  have still (c d : Char) (r : Text) (signs : (c ≠ '/' ∧ d ≠ '/') ∧ isBlank c = false)
      (split : (front.flatMap Lexeme.text).reverse = c :: d :: r) :
      ∃ r', (front.flatMap Lexeme.stripped).reverse = c :: d :: r' := by
    have text : front.flatMap Lexeme.text = r.reverse ++ [d, c] := by
      simpa using List.reverse_eq_iff.mp split
    obtain ⟨u, stripped⟩ := exists_stripped takes ordinary token text signs.1 signs.2
    exact ⟨u.reverse, by simp [stripped]⟩
  generalize text : (front.flatMap Lexeme.text).reverse = before at follows
  rw [followsMember.eq_def] at follows
  split at follows
  · obtain ⟨r', stripped⟩ := still _ _ _ (by decide) text
    rw [stripped]
    rfl
  · obtain ⟨r', stripped⟩ := still _ _ _ (by decide) text
    rw [stripped]
    rfl
  · cases follows

/-- What a token sees in front that keeps it from being a keyword is still there without comments. -/
theorem startsKeyword_of_stripped
    (starts : startsKeyword (front.flatMap Lexeme.stripped).reverse = true) :
    startsKeyword (front.flatMap Lexeme.text).reverse = true := by
  simp only [startsKeyword, Bool.and_eq_true, Bool.not_eq_true', List.head?_reverse] at starts ⊢
  refine ⟨?_, ?_⟩
  · cases last : (front.flatMap Lexeme.text).getLast? with
    | none => rfl
    | some c =>
        refine Bool.eq_false_iff.mpr fun word => ?_
        have other : c ≠ '/' := by
          rintro rfl
          cases word
        rw [getLast_stripped takes ordinary token last other] at starts
        exact Bool.eq_false_iff.mp starts.1 word
  · exact Bool.eq_false_iff.mpr fun follows =>
      Bool.eq_false_iff.mp starts.2 (followsMember_stripped takes ordinary token follows)

/-- What makes a brace open an expression is still there without comments. -/
theorem followsExpression_stripped
    (follows : followsExpression (front.flatMap Lexeme.text).reverse = true) :
    followsExpression (front.flatMap Lexeme.stripped).reverse = true := by
  simp only [followsExpression, Bool.or_eq_true, beq_iff_eq, List.head?_reverse] at follows ⊢
  obtain (member | sign) | separator := follows
  · exact .inl (.inl (followsMember_stripped takes ordinary token member))
  · exact .inl (.inr (getLast_stripped takes ordinary token sign (by decide)))
  · exact .inr (getLast_stripped takes ordinary token separator (by decide))

end Front

/-- A token that the comments around it do not matter to stands apart. -/
theorem Undisturbed.standsApart (h : Undisturbed front l back)
    (takes : Takes [] (front ++ l :: back) [])
    (ordinary : ∀ m ∈ front ++ l :: back, m.isOrdinary = true) (token : l.terminal.isTrivia = false)
    (sturdy : l.isDelicate (back.flatMap Lexeme.stripped) = false) : StandsApart front l back := by
  have inFront : ∀ m ∈ front ++ [l], m.isOrdinary = true := by
    rw [List.append_cons] at ordinary
    exact fun m mem => ordinary m (List.mem_append_left back mem)
  obtain ⟨-, first, later⟩ := takes_append.mp takes
  rw [List.append_nil, List.append_nil] at first
  have follows := h.followsAlike first later fun m mem => ordinary m (by simp [mem])
  have again := Lexeme.first_between first (ordinary l (by simp)) token follows
    (startsKeyword_of_stripped takes inFront token) (followsExpression_stripped takes inFront token)
    h.around sturdy
  refine ⟨again, fun blank => ?_⟩
  obtain ⟨k, w⟩ := l
  cases w with
  | nil => cases blank
  | cons c v =>
      -- Only a name can begin with white space, and then it has white space in it.
      obtain rfl := Terminal.eq_name_of_isBlank first blank token
      have visible : (c :: v).any isBlank = false := sturdy
      have blank : isBlank c = true := blank
      rw [List.any_cons, blank] at visible
      cases visible

/-- No sign is left behind an operator that is read again. -/
theorem stop_of_standsApart (takes : Takes before (withoutComments [] back) [])
    (ordinary : ∀ m ∈ back, m.isOrdinary = true)
    (first : Terminal.first? before' (w ++ back.flatMap Lexeme.stripped)
      = some (.operator, w.length)) :
    (back.flatMap Lexeme.stripped).head?.any isSign = false := by
  have text := flatMap_withoutComments [] back
  rw [List.nil_append] at text
  obtain ⟨-, -, -, found, -⟩ := Terminal.first_eq_some_iff.mp first
  rw [Terminal.length?, someLength, Option.ite_none_left_eq_some, Option.some.injEq, ← text] at found
  rw [← text]
  cases left : withoutComments [] back with
  | nil => rfl
  | cons m ms =>
      rw [left] at takes found
      obtain ⟨here, -⟩ := takes
      obtain ⟨c, v, head⟩ := List.exists_cons_of_length_pos (Terminal.first_fits here).1
      rw [List.flatMap_cons, head, List.cons_append, List.head?_cons, Option.any_some,
        ← Bool.not_eq_true]
      intro sign
      rw [List.flatMap_cons, head] at found
      rw [head, List.append_nil] at here
      have kind := Terminal.cases_of_stop here sign (operatorRun_stop found.2)
      obtain space | ⟨mem, token⟩ := mem_withoutComments (left ▸ List.mem_cons_self)
      · rw [space] at kind
        exact absurd kind (by decide)
      · exact ordinary_kind (ordinary m mem) (not_isComment_of_token token) kind

section Ordinary

variable (h : IsOrdinary t)
include h

theorem IsOrdinary.lexemes : ∀ l ∈ (Lexing.of t).lexemes, l.isOrdinary = true := by
  intro l mem
  cases trivia : l.terminal.isTrivia with
  | true =>
      obtain ⟨k, w⟩ := l
      cases k with
      | blank | lineComment | blockComment => rfl
      | _ => cases trivia
  | false =>
      obtain ⟨token, placed, rfl⟩ := mem_tokens_iff.mpr ⟨mem, trivia⟩
      exact h.tokens token placed

theorem IsOrdinary.run : Lexes [] t (Lexing.of t).lexemes [] := by
  have run := Lexes.of t
  rwa [List.isEmpty_iff.mp h.complete] at run

/-- Where every token is read again, none of them is disturbed. -/
theorem undisturbed_of_standsApart (apart : AtTokens t StandsApart)
    (sturdy : AtTokens t fun _ l back => l.isDelicate (back.flatMap Lexeme.stripped) = false) :
    AtTokens t Undisturbed := by
  intro front l back split token
  have first := (apart front l back split token).1
  have sturdy := sturdy front l back split token
  refine ⟨fun _ => Lexeme.joins_of_first first sturdy fun operator => ?_,
    Lexeme.looksAround_of_first first sturdy⟩
  have whole : (Lexing.of t).lexemes = (front ++ [l]) ++ back := by rw [split]; simp
  have inBack (m : Lexeme) (mem : m ∈ back) : m ∈ (Lexing.of t).lexemes := by simp [split, mem]
  have left := leftBehind_token front token
  have takes : Takes ((front ++ [l]).flatMap Lexeme.stripped).reverse
      (withoutComments (leftBehind (front ++ [l])) back) [] := by
    refine (takes_withoutComments_iff (front ++ [l]) (by rw [left, List.append_nil])
      (left ▸ .nil) (fun m mem => h.run.isGap_stripped (inBack m mem))
      fun m mem => h.run.token_start (inBack m mem)).mpr fun inner m later here => ?_
    exact apart _ m later (by rw [whole, here]; simp)
  rw [left] at takes
  rw [operator] at first
  exact stop_of_standsApart takes (fun m mem => h.lexemes m (inBack m mem)) first

/-- If no token is delicate, the tokens are read again just when none of them is disturbed. -/
theorem IsOrdinary.keepsTokens_iff_undisturbed
    (sturdy : AtTokens t fun _ l back => l.isDelicate (back.flatMap Lexeme.stripped) = false) :
    KeepsTokens t ↔ AtTokens t Undisturbed := by
  refine h.keepsTokens_iff.trans ⟨fun apart => undisturbed_of_standsApart h apart sturdy, ?_⟩
  intro free front l back split token
  have takes := h.run.takes
  have ordinary := h.lexemes
  rw [split] at takes ordinary
  exact (free front l back split token).standsApart takes ordinary token
    (sturdy front l back split token)

/-- It is enough that every comment has a separator behind it or a sign in front, where keywords,
names spelled like one and braces still see around them what they have to. -/
theorem IsOrdinary.keepsTokens_of_separated
    (sturdy : AtTokens t fun _ l back => l.isDelicate (back.flatMap Lexeme.stripped) = false)
    (around : AtTokens t fun front l back =>
      l.looksAround (front.flatMap Lexeme.stripped).reverse (back.flatMap Lexeme.stripped) = true)
    (separated : AtTokens t fun _ l back => back.head?.any Lexeme.isComment = true →
      l.terminal.isPunctuation = true ∨
        (back.flatMap Lexeme.stripped).head?.all isSeparator = true) : KeepsTokens t := by
  refine (h.keepsTokens_iff_undisturbed sturdy).mpr fun front l back split token =>
    ⟨fun comment => ?_, around front l back split token⟩
  obtain sign | separator := separated front l back split token comment
  · exact Lexeme.joins_of_isPunctuation sign _
  · exact Lexeme.joins_of_isSeparator separator

end Ordinary

/-- The tokens of ordinary code are read again without its comments just when each of them is still
the first match at its place. Where no token is delicate, that is when none of them is disturbed: no
comment behind it gives way to a character that it takes along, and a keyword, a name spelled like
one or an opening brace still sees around it what makes it one. -/
theorem tokens_of_stripComments (h : IsOrdinary t) :
    (KeepsTokens t ↔ AtTokens t StandsApart) ∧
      ((AtTokens t fun _ l back => l.isDelicate (back.flatMap Lexeme.stripped) = false) →
        (KeepsTokens t ↔ AtTokens t Undisturbed)) :=
  ⟨h.keepsTokens_iff, h.keepsTokens_iff_undisturbed⟩

theorem tokens_of_stripComments_call :
    IsOrdinary "<?php f(/* a */$b)/**/->new/* c */; match ($x) /* d */ \x7b \x7d // e".toList ∧
      KeepsTokens "<?php f(/* a */$b)/**/->new/* c */; match ($x) /* d */ \x7b \x7d // e".toList := by
  have ordinary : IsOrdinary
      "<?php f(/* a */$b)/**/->new/* c */; match ($x) /* d */ \x7b \x7d // e".toList :=
    ⟨by decide, by decide⟩
  exact ⟨ordinary, ((tokens_of_stripComments ordinary).2 (by decide)).mpr (by decide)⟩

/-- Two names with only a comment between them become one. -/
theorem tokens_stripComments_names :
    IsOrdinary "<?php a/**/b;".toList ∧
      (tokens (stripComments "<?php a/**/b;".toList)).map Token.toLexeme
        ≠ (tokens "<?php a/**/b;".toList).map Token.toLexeme := by
  refine ⟨⟨rfl, by decide⟩, ?_⟩
  decide

/-- White space beside a comment is not enough where a name would become a keyword. -/
example : ¬ AtTokens "<?php match /* a */ ($x);".toList Undisturbed := by decide

end PhpGate
