import PhpGate.Proofs.Token.Blank
import PhpGate.Proofs.Token.Neighbour

/-!
When a name, a keyword or a brace is read alike between other texts. Keywords and names are made of
the same letters, so the text around them decides which of the two they are.
-/

namespace PhpGate

open Text

/-- White space and the word behind it that make an anonymous class of a keyword in front. -/
def opensClass (behind : Text) : Bool :=
  blankLength behind != 0 && (wordLength? ["class".toList] (trimStart behind)).isSome

/-- A name spelled like a keyword is none between these texts. -/
def isNameBetween (before word behind : Text) : Bool :=
  if word = "new".toList then !opensClass behind
  else if word = "match".toList then followsFunction before || (trimStart behind).head? != some '('
  else !classKeywords.contains word || startsColon (trimStart behind)

/-- What keywords, names spelled like one and opening braces have to see around them. -/
def Lexeme.looksAround (before behind : Text) (l : Lexeme) : Bool :=
  match l.terminal with
  | .anonymousClass | .keywordOperator => startsKeyword before
  | .classKeyword => startsKeyword before && !startsColon (trimStart behind)
  | .matchKeyword =>
      startsKeyword before && !followsFunction before && (trimStart behind).head? == some '('
  | .name => !startsKeyword before || isNameBetween before (l.text.map foldCase) behind
  | .openBrace => !followsExpression before
  | _ => true

variable {before before' w r v X Y : Text} {c : Char} {n : Nat}

section Word

variable {words : List Text} (letters : ∀ word ∈ words, word.all Char.isLower = true)
include letters

theorem wordLength_append_of_stop (stop : X.head?.any isWord = false) :
    wordLength? words (w ++ X) = wordLength? words w := by
  refine wordLength_append_of letters ?_ fun _ _ _ => stop
  cases X with
  | nil => rfl
  | cons c X =>
      rw [List.head?_cons, Option.any_some, ← Bool.not_eq_true]
      intro letter
      have word : isWord c = false := stop
      rw [isWord_of_foldCase letter] at word
      cases word

theorem wordLength_endsAt (w : Text) : EndsAt (wordLength? words) w isWord := by
  intro X
  constructor
  · intro found
    obtain ⟨word, -, here⟩ := List.exists_of_findSome?_eq_some found
    simp only [Option.ite_none_right_eq_some, Bool.and_eq_true, Bool.not_eq_true',
      Option.some.injEq] at here
    obtain ⟨⟨-, stop⟩, length⟩ := here
    rw [length, List.drop_left] at stop
    rw [wordLength_append_of_stop letters stop] at found
    exact ⟨found, stop⟩
  · rintro ⟨found, stop⟩
    rwa [wordLength_append_of_stop letters stop]

end Word

/-- A run that ends within `v` does so in front of every text. -/
theorem takeWhile_append_of_lt {p : Char → Bool}
    (short : ((v ++ Y).takeWhile p).length < v.length) :
    (v ++ X).takeWhile p = (v ++ Y).takeWhile p := by
  induction v with
  | nil => cases short
  | cons c v ih =>
      rw [List.cons_append, List.takeWhile_cons] at short
      rw [List.cons_append, List.cons_append, List.takeWhile_cons, List.takeWhile_cons]
      split
      · rename_i passes
        rw [if_pos passes, List.length_cons] at short
        rw [ih (Nat.lt_of_succ_lt_succ short)]
      · rfl

/-- An anonymous class is a keyword, white space and a word that ends where it does. -/
theorem exists_blanks (found : anonymousClassLength? before (w ++ Y) = some w.length) :
    ∃ b, 0 < b ∧ 3 + b ≤ w.length ∧ (∀ X, beginsWith "new".toList (w ++ X) = true) ∧
      (∀ X, blankLength ((w ++ X).drop 3) = b) ∧
      wordLength? ["class".toList] (w.drop (3 + b) ++ Y) = some (w.drop (3 + b)).length := by
  simp only [anonymousClassLength_eq, Option.ite_none_right_eq_some, Option.map_eq_some_iff,
    Bool.and_eq_true] at found
  obtain ⟨⟨⟨-, begins⟩, pos⟩, k, word, length⟩ := found
  have long : 0 < k := by
    have text := congrArg List.length (List.mem_singleton.mp (wordLength_text word))
    rw [List.length_map, List.length_take, String.length_toList] at text
    have : "class".length = 5 := rfl
    omega
  have reach : 3 ≤ w.length := by omega
  have behind (X : Text) : (w ++ X).drop 3 = w.drop 3 ++ X := List.drop_append_of_le_length reach
  rw [behind] at pos length word
  refine ⟨blankLength (w.drop 3 ++ Y), pos, by omega, fun X => ?_, fun X => ?_, ?_⟩
  · have reach : "new".toList.length ≤ w.length := reach
    rw [beginsWith_append reach] at begins ⊢
    exact begins
  · rw [behind]
    refine congrArg List.length (takeWhile_append_of_lt ?_)
    have short : blankLength (w.drop 3 ++ Y) < (w.drop 3).length := by
      rw [List.length_drop]
      omega
    exact short
  · rw [List.drop_append_of_le_length (by omega)] at word
    rw [word, List.length_drop, Option.some.injEq]
    omega

theorem anonymousClassLength_transfer (found : anonymousClassLength? before (w ++ Y) = some w.length)
    (starts : startsKeyword before' = true)
    (head : X.head? = Y.head? ∨ X.head?.any isWord = false) :
    anonymousClassLength? before' (w ++ X) = some w.length := by
  obtain ⟨b, pos, reach, begins, blanks, word⟩ := exists_blanks found
  rw [anonymousClassLength_eq, blanks, starts, begins, if_pos ⟨rfl, pos⟩,
    List.drop_append_of_le_length reach, (wordLength_endsAt (by decide) _).transfer word head,
    Option.map_some, List.length_drop, Nat.add_sub_cancel' reach]

theorem anonymousClassLength_stop (found : anonymousClassLength? before (w ++ X) = some w.length) :
    X.head?.any isWord = false := by
  obtain ⟨b, -, -, -, -, word⟩ := exists_blanks found
  exact ((wordLength_endsAt (by decide) _ X).mp word).2

namespace Terminal

/-- What begins with a letter is a keyword or a name. -/
theorem opensWith_of_letter (letter : isIdentifierStart c = true) :
    ∀ k ∈ inOrder.takeWhile (· != name), k ∉ keywords → k.opensWith c = false := by
  have ne (d : Char) (other : isIdentifierStart d = false) : (c == d) = false := by
    refine beq_false_of_ne ?_
    rintro rfl
    rw [letter] at other
    cases other
  intro k earlier word
  cases k with
  | inlineHtml | openTag | heredoc | blockComment | doubleQuoted | backtick | singleQuoted =>
      exact ne _ (by decide)
  | lineComment => rw [opensWith, ne '/' (by decide), ne '#' (by decide), Bool.or_false]
  | anonymousClass | keywordOperator | classKeyword | matchKeyword => exact absurd (by decide) word
  | _ => exact absurd earlier (by decide)

/-- A word is a keyword or a name according to the keywords that are tried before. -/
theorem first_of_letter {k : Terminal} (letter : isIdentifierStart c = true)
    (kind : k ∈ keywords ++ [name]) (found : k.length? before (c :: r) = some n)
    (lost : ∀ k' ∈ keywords.takeWhile (· != k), k'.length? before (c :: r) = none) :
    first? before (c :: r) = some (k, n) := by
  refine first_of_rivals _ found (fun k' earlier other => ?_) lost
  have places : ∀ k ∈ keywords ++ [name], ∀ k' ∈ inOrder.takeWhile (· != k),
      k' ∉ keywords.takeWhile (· != k) → k' ∈ inOrder.takeWhile (· != name) ∧ k' ∉ keywords := by
    decide
  obtain ⟨earlier, word⟩ := places k kind k' earlier other
  exact opensWith_of_letter letter k' earlier word

theorem letter_of_length {k : Terminal} (word : k ∈ keywords)
    (found : k.length? before (c :: r) = some n) : (foldCase c).isLower = true := by
  refine Decidable.byContradiction fun other => ?_
  have opens := opensWith_of_length found
  rw [opensWith_keyword (Bool.not_eq_true _ ▸ other) k word] at opens
  cases opens

theorem start_of_length {k : Terminal} (word : k ∈ keywords)
    (found : k.length? before (c :: r) = some n) : isIdentifierStart c = true :=
  isIdentifierStart_of_foldCase (letter_of_length word found)

/-- White space that a token begins with is part of a name. -/
theorem eq_name_of_isBlank {k : Terminal} (first : first? before (c :: r) = some (k, n))
    (blank : isBlank c = true) (token : k.isTrivia = false) : k = name := by
  have start : isIdentifierStart c = true := by
    have space := not_isSpace_of_first first fun here => by
      rw [here] at token
      cases token
    simpa [isSpace, blank] using space
  obtain ⟨-, -, -, found, -⟩ := first_eq_some_iff.mp first
  have named : nameLength? (c :: r) ≠ none := by
    have plain : c ≠ '\\' := by
      rintro rfl
      cases blank
    simp [nameLength_cons, plain, start]
  have places : ∀ k ∈ inOrder, name ∉ inOrder.takeWhile (· != k) →
      k = name ∨ k ∈ inOrder.takeWhile (· != name) := by decide
  obtain here | earlier := places k (mem_inOrder k) fun earlier =>
    named (length_eq_none_of_first first earlier)
  · exact here
  · exfalso
    by_cases word : k ∈ keywords
    · have letter := letter_of_length word found
      rw [isLower_foldCase_of_isBlank blank] at letter
      cases letter
    · have opens := opensWith_of_length found
      rw [opensWith_of_letter start k earlier word] at opens
      cases opens

/-- Only an anonymous class begins with its first letter. -/
theorem anonymousClass_of_word {words : List Text} (other : ∀ word ∈ words, word.head? ≠ some 'n')
    (head : (words.any fun word => word.head? == some (foldCase c)) = true) :
    anonymousClass.length? before (c :: r) = none := by
  obtain ⟨word, mem, same⟩ := List.any_eq_true.mp head
  refine length_eq_none_of_opensWith (beq_false_of_ne fun letter => ?_)
  rw [letter] at same
  exact other word mem (beq_iff_eq.mp same)

theorem first_anonymousClass (found : anonymousClass.length? before (w ++ Y) = some w.length)
    (starts : startsKeyword before' = true)
    (head : X.head? = Y.head? ∨ X.head?.any isWord = false) :
    first? before' (w ++ X) = some (anonymousClass, w.length) := by
  have taken : anonymousClass.length? before' (w ++ X) = some w.length :=
    anonymousClassLength_transfer found starts head
  cases w with
  | nil => cases (length_fits _ _ _ _ found).1
  | cons c v =>
      exact first_of_letter (start_of_length (by decide) taken) (by decide) taken
        (List.forall_mem_nil _)

theorem first_keywordOperator (found : keywordOperator.length? before (w ++ Y) = some w.length)
    (starts : startsKeyword before' = true)
    (head : X.head? = Y.head? ∨ X.head?.any isWord = false) :
    first? before' (w ++ X) = some (keywordOperator, w.length) := by
  simp only [length?, keywordOperatorLength?, Option.ite_none_right_eq_some] at found
  have word := (wordLength_endsAt (by decide) w).transfer found.2 head
  have taken : keywordOperator.length? before' (w ++ X) = some w.length := by
    rw [length?, keywordOperatorLength?, if_pos starts, word]
  cases w with
  | nil => cases (length_fits _ _ _ _ taken).1
  | cons c v =>
      refine first_of_letter (start_of_length (by decide) taken) (by decide) taken ?_
      refine List.forall_mem_singleton.mpr ?_
      exact anonymousClass_of_word (by decide) (head_of_wordLength word (by decide))

theorem first_classKeyword (first : first? before (w ++ Y) = some (classKeyword, w.length))
    (starts : startsKeyword before' = true) (colon : startsColon (trimStart X) = false)
    (head : X.head? = Y.head? ∨ X.head?.any isWord = false) :
    first? before' (w ++ X) = some (classKeyword, w.length) := by
  obtain ⟨-, -, -, found, -⟩ := first_eq_some_iff.mp first
  simp only [length?, classKeywordLength?, Option.ite_none_right_eq_some, Option.filter_eq_some_iff]
    at found
  obtain ⟨starts', found, -⟩ := found
  have ends : EndsAt (wordLength? classKeywords) w isWord := wordLength_endsAt (by decide) w
  have word := ends.transfer found head
  have taken : classKeyword.length? before' (w ++ X) = some w.length := by
    rw [length?, classKeywordLength?, if_pos starts, word, Option.filter_some, List.drop_left, colon]
    rfl
  have lost : wordLength? keywordOperators (w ++ X) = none := by
    have absent := length_eq_none_of_first first (show keywordOperator ∈ _ by decide)
    rw [length?, keywordOperatorLength?, if_pos starts',
      wordLength_append_of_stop (by decide) ((ends Y).mp found).2] at absent
    rw [wordLength_append_of_stop (by decide) ((ends X).mp word).2, absent]
  cases w with
  | nil => cases (length_fits _ _ _ _ taken).1
  | cons c v =>
      refine first_of_letter (start_of_length (by decide) taken) (by decide) taken ?_
      refine List.forall_mem_cons.mpr ⟨?_, List.forall_mem_singleton.mpr ?_⟩
      · exact anonymousClass_of_word (by decide) (head_of_wordLength word (by decide))
      · rw [length?, keywordOperatorLength?, if_pos starts]
        exact lost

theorem first_matchKeyword (found : matchKeyword.length? before (w ++ Y) = some w.length)
    (starts : startsKeyword before' = true) (free : followsFunction before' = false)
    (paren : (trimStart X).head? = some '(') :
    first? before' (w ++ X) = some (matchKeyword, w.length) := by
  simp only [length?, matchKeywordLength?, Option.ite_none_right_eq_some, Bool.and_eq_true,
    Option.some.injEq] at found
  obtain ⟨⟨⟨-, begins⟩, -⟩, length⟩ := found
  have begins' : beginsWith "match".toList (w ++ X) = true := by
    have reach : "match".toList.length ≤ w.length := Nat.le_of_eq length
    rw [beginsWith_append reach] at begins ⊢
    exact begins
  have taken : matchKeyword.length? before' (w ++ X) = some w.length := by
    rw [length?, matchKeywordLength?, starts, free, begins', length, List.drop_left, paren]
    rfl
  cases w with
  | nil => cases length
  | cons c v =>
      have letter : foldCase c = 'm' := head_of_beginsWith begins'
      have other : ∀ k ∈ [anonymousClass, keywordOperator, classKeyword], k.opensWith c = false := by
        simp only [List.forall_mem_cons, opensWith, letter]
        exact ⟨by decide, by decide, by decide, List.forall_mem_nil _⟩
      exact first_of_letter (start_of_length (by decide) taken) (by decide) taken
        fun k earlier => length_eq_none_of_opensWith (other k earlier)

end Terminal

/-- A name in front of a text that it takes nothing of, without white space in it. -/
structure IsName (w X : Text) : Prop where
  taken : nameLength? (w ++ X) = some w.length
  visible : w.any isBlank = false

namespace IsName

variable (h : IsName w X)
include h

theorem stop : X.head?.any (joinsName (w.getLast? == some '\\')) = false :=
  ((nameLength_endsAt w X).mp h.taken).2

theorem plain : X.head?.any (fun c => (foldCase c).isLower) = false := by
  have stop := h.stop
  cases X with
  | nil => rfl
  | cons c X =>
      rw [List.head?_cons, Option.any_some, ← Bool.not_eq_true]
      intro letter
      have start := isIdentifierStart_of_foldCase letter
      simp [joinsName, start, isIdentifierPart_of_isIdentifierStart start] at stop

theorem beginsWith {word : Text} (letters : word.all Char.isLower = true) :
    beginsWith word (w ++ X) = Text.beginsWith word w :=
  beginsWith_append_of letters h.plain

/-- What a name takes nothing of is not read on with either, if the name is a word. -/
theorem ends {word : Text} (letters : word.all Char.isLower = true) (text : w.map foldCase = word) :
    X.head?.any isWord = false := by
  have last : (w.getLast? == some '\\') = false := by
    refine beq_false_of_ne fun separator => ?_
    have mem : foldCase '\\' ∈ word := text ▸ List.mem_map_of_mem (List.mem_of_getLast? separator)
    cases List.all_eq_true.mp letters _ mem
  have stop := h.stop
  rw [last] at stop
  cases X with
  | nil => rfl
  | cons c X =>
      rw [List.head?_cons, Option.any_some, joinsName, Bool.or_eq_false_iff] at stop
      rw [List.head?_cons, Option.any_some, ← Bool.not_eq_true]
      intro word
      simp [isIdentifierPart, word] at stop

theorem wordLength {words : List Text} (letters : ∀ word ∈ words, word.all Char.isLower = true) :
    wordLength? words (w ++ X) = wordLength? words w :=
  wordLength_append_of letters h.plain fun word mem text => h.ends (letters word mem) text

/-- What is left of a name behind some of its characters begins with no white space and no sign. -/
theorem exists_drop (inside : w.drop n ≠ []) :
    ∃ d r, w.drop n = d :: r ∧ isBlank d = false ∧ d ≠ ':' ∧ d ≠ '(' := by
  obtain ⟨d, r, split⟩ := List.exists_cons_of_ne_nil inside
  have mem : d ∈ w := List.mem_of_mem_drop (split ▸ List.mem_cons_self)
  have chars := nameLength_all (p := fun c => c != ':' && c != '(') rfl
    (fun c part => by
      rw [Bool.and_eq_true, bne_iff_ne, bne_iff_ne]
      constructor <;>
      · rintro rfl
        cases part) h.taken
  rw [List.take_left] at chars
  have other := List.all_eq_true.mp chars d mem
  rw [Bool.and_eq_true, bne_iff_ne, bne_iff_ne] at other
  exact ⟨d, r, split, by simpa using List.any_eq_false.mp h.visible d mem, other⟩

/-- A word that a name begins with is all of the name, or the name goes on behind it. -/
theorem whole_or_inside {word : Text} (letters : word.all Char.isLower = true)
    (begins : Text.beginsWith word (w ++ X) = true) :
    (w.map foldCase = word ∧ ∀ Z, (w ++ Z).drop word.length = Z) ∨
      (w.drop word.length ≠ [] ∧ ∀ Z, (w ++ Z).drop word.length = w.drop word.length ++ Z) := by
  rw [h.beginsWith letters] at begins
  have reach := length_le_of_beginsWith begins
  have split (Z : Text) : (w ++ Z).drop word.length = w.drop word.length ++ Z :=
    List.drop_append_of_le_length reach
  by_cases inside : w.drop word.length = []
  · left
    have text := beginsWith_iff.mp begins
    rw [List.take_of_length_le (List.drop_eq_nil_iff.mp inside)] at text
    exact ⟨text, fun Z => by rw [split, inside, List.nil_append]⟩
  · exact .inr ⟨inside, split⟩

section Keyword

variable (around : startsKeyword before = true → isNameBetween before (w.map foldCase) X = true)
include around

theorem anonymousClass_eq_none : anonymousClassLength? before (w ++ X) = none := by
  refine Option.eq_none_iff_forall_ne_some.mpr fun n found => ?_
  simp only [anonymousClassLength_eq, Option.ite_none_right_eq_some, Option.map_eq_some_iff,
    Bool.and_eq_true] at found
  obtain ⟨⟨⟨starts, begins⟩, pos⟩, k, word, -⟩ := found
  rw [← List.drop_drop] at word
  obtain ⟨text, behind⟩ | ⟨inside, behind⟩ := h.whole_or_inside (by decide) begins
  · rw [show (w ++ X).drop 3 = X from behind X] at pos word
    have opens : opensClass X = true := by
      rw [opensClass, trimStart_eq_drop, word, bne_iff_ne.mpr (Nat.pos_iff_ne_zero.mp pos)]
      rfl
    have stays := around starts
    rw [text, isNameBetween, if_pos rfl, opens] at stays
    cases stays
  · obtain ⟨d, r, split, ink, -⟩ := h.exists_drop inside
    rw [show (w ++ X).drop 3 = _ from behind X, split, List.cons_append, blankLength,
      List.takeWhile_cons_of_neg (by simp [ink])] at pos
    cases pos

theorem matchKeyword_eq_none : matchKeywordLength? before (w ++ X) = none := by
  refine Option.eq_none_iff_forall_ne_some.mpr fun n found => ?_
  simp only [matchKeywordLength?, Option.ite_none_right_eq_some, Bool.and_eq_true,
    Bool.not_eq_true', beq_iff_eq] at found
  obtain ⟨⟨⟨⟨starts, free⟩, begins⟩, paren⟩, -⟩ := found
  obtain ⟨text, behind⟩ | ⟨inside, behind⟩ := h.whole_or_inside (by decide) begins
  · rw [show (w ++ X).drop 5 = X from behind X] at paren
    have stays := around starts
    rw [text, isNameBetween, if_neg (by decide), if_pos rfl, free, paren] at stays
    cases stays
  · obtain ⟨d, r, split, ink, -, other⟩ := h.exists_drop inside
    rw [show (w ++ X).drop 5 = _ from behind X, split, List.cons_append, trimStart,
      List.dropWhile_cons_of_neg (by simp [ink])] at paren
    exact other (Option.some.inj paren)

/-- A name that goes on behind a class keyword has no colon there, so it was read as the keyword. -/
theorem classKeyword_eq_none (h' : IsName w Y)
    (starts : startsKeyword before = true → startsKeyword before' = true)
    (absent : classKeywordLength? before' (w ++ Y) = none) :
    classKeywordLength? before (w ++ X) = none := by
  refine Option.eq_none_iff_forall_ne_some.mpr fun n found => ?_
  simp only [classKeywordLength?, Option.ite_none_right_eq_some, Option.filter_eq_some_iff,
    Bool.not_eq_true'] at found
  obtain ⟨starts', found, plain⟩ := found
  obtain ⟨word, mem, here⟩ := List.exists_of_findSome?_eq_some found
  simp only [Option.ite_none_right_eq_some, Bool.and_eq_true, Option.some.injEq] at here
  obtain ⟨⟨begins, -⟩, rfl⟩ := here
  have letters : ∀ word ∈ classKeywords, word.all Char.isLower = true := by decide
  obtain ⟨text, behind⟩ | ⟨inside, behind⟩ := h.whole_or_inside (letters word mem) begins
  · have others : ∀ word ∈ classKeywords, word ≠ "new".toList ∧ word ≠ "match".toList := by decide
    have stays := around starts'
    rw [behind] at plain
    rw [text, isNameBetween, if_neg (others word mem).1, if_neg (others word mem).2, plain,
      List.contains_iff_mem.mpr mem] at stays
    cases stays
  · obtain ⟨d, r, split, ink, other, -⟩ := h.exists_drop inside
    rw [h.wordLength letters] at found
    rw [classKeywordLength?, if_pos (starts starts'), h'.wordLength letters, found,
      Option.filter_some, behind, split, List.cons_append, trimStart,
      List.dropWhile_cons_of_neg (by simp [ink]), startsColon_cons, beq_false_of_ne other] at absent
    cases absent

end Keyword

/-- A name that is spelled like a class keyword is found as one. -/
theorem wordLength_of_mem (mem : w.map foldCase ∈ classKeywords) :
    wordLength? classKeywords (w ++ X) = some w.length := by
  have letters : ∀ word ∈ classKeywords, word.all Char.isLower = true := by decide
  have short : ∀ a ∈ classKeywords, ∀ b ∈ classKeywords, a <+: b → a = b := by decide
  have here (word : Text) (listed : word ∈ classKeywords)
      (begins : Text.beginsWith word w = true) : word = w.map foldCase := by
    refine short word listed _ mem ?_
    rw [← beginsWith_iff.mp begins]
    exact (List.take_prefix _ w).map foldCase
  rw [h.wordLength letters]
  cases found : wordLength? classKeywords w with
  | none =>
      have absent := List.findSome?_eq_none_iff.mp found _ mem
      have begins : Text.beginsWith (w.map foldCase) w = true := by
        rw [beginsWith_iff, List.length_map, List.take_length]
      rw [begins, List.length_map, List.drop_length] at absent
      cases absent
  | some n =>
      obtain ⟨word, listed, found⟩ := List.exists_of_findSome?_eq_some found
      simp only [Option.ite_none_right_eq_some, Bool.and_eq_true, Option.some.injEq] at found
      obtain ⟨⟨begins, -⟩, rfl⟩ := found
      rw [here word listed begins, List.length_map]

/-- Where a name is taken that could begin a keyword, what stands around it makes it none. -/
theorem isNameBetween_of_first
    (first : Terminal.first? before (w ++ X) = some (.name, w.length))
    (starts : startsKeyword before = true) :
    isNameBetween before (w.map foldCase) X = true := by
  have absent (k : Terminal) (word : k ∈ Terminal.keywords) : k.length? before (w ++ X) = none := by
    have earlier : ∀ k ∈ Terminal.keywords, k ∈ Terminal.inOrder.takeWhile (· != .name) := by decide
    exact Terminal.length_eq_none_of_first first (earlier k word)
  have begins {word : Text} (text : w.map foldCase = word) :
      Text.beginsWith word (w ++ X) = true ∧ (w ++ X).drop word.length = X := by
    have length : word.length = w.length := by rw [← text, List.length_map]
    rw [beginsWith_iff, length, List.take_left, List.drop_left]
    exact ⟨text, rfl⟩
  rw [isNameBetween]
  split
  · rename_i text
    rw [Bool.not_eq_true', opensClass, Bool.and_eq_false_iff, bne_eq_false_iff_eq]
    refine or_iff_not_imp_left.mpr fun blanks => ?_
    have none := absent .anonymousClass (by decide)
    obtain ⟨here, behind⟩ := begins text
    rw [Terminal.length?, anonymousClassLength_eq, ← List.drop_drop,
      show (w ++ X).drop 3 = X from behind, starts, here, if_pos ⟨rfl, Nat.pos_of_ne_zero blanks⟩,
      Option.map_eq_none_iff, ← trimStart_eq_drop] at none
    rw [none]
    rfl
  · split
    · rename_i text
      rw [Bool.or_eq_true, bne_iff_ne]
      refine or_iff_not_imp_left.mpr fun free paren => ?_
      have none := absent .matchKeyword (by decide)
      obtain ⟨here, behind⟩ := begins text
      rw [Terminal.length?, matchKeywordLength?, starts, here, Bool.eq_false_iff.mpr free,
        show (w ++ X).drop 5 = X from behind, paren] at none
      cases none
    · rw [Bool.or_eq_true, Bool.not_eq_true', ← Bool.not_eq_true, List.contains_iff_mem]
      refine or_iff_not_imp_left.mpr fun listed => ?_
      have none := absent .classKeyword (by decide)
      rw [Terminal.length?, classKeywordLength?, if_pos starts,
        h.wordLength_of_mem (Decidable.not_not.mp listed), Option.filter_some, List.drop_left] at none
      simpa using none

end IsName

theorem Terminal.first_name (first : first? before (w ++ Y) = some (name, w.length))
    (visible : w.any isBlank = false)
    (starts : startsKeyword before' = true → startsKeyword before = true)
    (around : startsKeyword before' = true → isNameBetween before' (w.map foldCase) X = true)
    (head : X.head? = Y.head? ∨ X.head?.any (joinsName (w.getLast? == some '\\')) = false) :
    first? before' (w ++ X) = some (name, w.length) := by
  obtain ⟨-, -, -, found, -⟩ := first_eq_some_iff.mp first
  have taken : nameLength? (w ++ X) = some w.length := (nameLength_endsAt w).transfer found head
  have h : IsName w X := ⟨taken, visible⟩
  have h' : IsName w Y := ⟨found, visible⟩
  have absent (k : Terminal) (word : k ∈ keywords) : k.length? before (w ++ Y) = none := by
    have earlier : ∀ k ∈ keywords, k ∈ inOrder.takeWhile (· != name) := by decide
    exact length_eq_none_of_first first (earlier k word)
  have lost : ∀ k ∈ keywords, k.length? before' (w ++ X) = none := by
    refine List.forall_mem_cons.mpr ⟨h.anonymousClass_eq_none around, List.forall_mem_cons.mpr
      ⟨?_, List.forall_mem_cons.mpr ⟨?_, List.forall_mem_singleton.mpr
        (h.matchKeyword_eq_none around)⟩⟩⟩
    · have none := absent keywordOperator (by decide)
      rw [length?, keywordOperatorLength?, h'.wordLength (by decide)] at none
      rw [length?, keywordOperatorLength?, h.wordLength (by decide)]
      split
      · rename_i here
        rwa [if_pos (starts here)] at none
      · rfl
    · exact h.classKeyword_eq_none around h' starts (absent classKeyword (by decide))
  cases w with
  | nil => cases (length_fits _ _ _ _ found).1
  | cons c v =>
      rw [List.cons_append] at taken lost ⊢
      rw [nameLength_cons] at taken
      by_cases separator : c = '\\'
      · subst separator
        exact first_of_sole h.taken (by decide)
      · rw [if_neg separator, Option.ite_none_right_eq_some] at taken
        exact first_of_letter taken.1 (by decide) h.taken fun k earlier =>
          lost k ((List.takeWhile_sublist _).subset earlier)

end PhpGate
