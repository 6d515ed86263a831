import PhpGate.Proofs.Token.Content

/-!
Where a keyword of a declaration can begin in the text of a terminal. Names, variables and texts
that are no code aside, each letter that it could begin with goes on with a word. A name in turn
takes along every letter that goes on with it.
-/

namespace PhpGate

open Text

/-- The letters that the keywords of declarations begin with. -/
def opensKeyword (c : Char) : Bool :=
  foldCase c == 'n' || foldCase c == 'u'

/-- No keyword begins in a text; `free` says that one could begin at its first character. -/
def closedTo (free : Bool) : Text → Bool
  | [] => true
  | c :: r => !(free && opensKeyword c) && closedTo (!isWord c) r

variable {before t u v w r word : Text} {c : Char} {free : Bool} {n : Nat}

theorem opensKeyword_cases (opens : opensKeyword c = true) : c ∈ ['n', 'N', 'u', 'U'] := by
  have lower : c.toLower = 'n' ∨ c.toLower = 'u' := by
    rw [opensKeyword, Bool.or_eq_true, beq_iff_eq, beq_iff_eq, foldCase] at opens
    split at opens
    · simp at opens
    · split at opens
      · simp at opens
      · split at opens
        · simp at opens
        · exact opens
  have named : c = Char.ofNat c.toNat := (Char.ofNat_toNat c).symm
  obtain same | ⟨-, code⟩ := toLower_cases c
  · rw [same] at lower
    obtain rfl | rfl := lower <;> simp
  · obtain lower | lower := lower
    · have upper : c.toNat = 78 := Nat.add_right_cancel (m := 32) (code.symm.trans (lower ▸ rfl))
      rw [upper] at named
      simp [named]
    · have upper : c.toNat = 85 := Nat.add_right_cancel (m := 32) (code.symm.trans (lower ▸ rfl))
      rw [upper] at named
      simp [named]

/-- A character with a property that the letters lack begins no keyword. -/
theorem quiet_of {p : Char → Bool} (h : p c = true)
    (letters : ['n', 'N', 'u', 'U'].all (fun d => !p d) = true) : opensKeyword c = false := by
  rw [← Bool.not_eq_true]
  intro opens
  have lacks := List.all_eq_true.mp letters c (opensKeyword_cases opens)
  rw [h] at lacks
  cases lacks

theorem quiet_of_isDecimalDigit (digit : isDecimalDigit c = true) : opensKeyword c = false :=
  quiet_of digit (by decide)

theorem closedTo_cons (quiet : opensKeyword c = false) :
    closedTo free (c :: r) = closedTo (!isWord c) r := by
  rw [closedTo, quiet, Bool.and_false, Bool.not_false, Bool.true_and]

theorem closedTo_of_quiet (quiet : ∀ c ∈ w, opensKeyword c = false) : closedTo free w = true := by
  induction w generalizing free with
  | nil => rfl
  | cons c w ih =>
      obtain ⟨here, later⟩ := List.forall_mem_cons.mp quiet
      rw [closedTo_cons here, ih later]

theorem closedTo_of_words (words : w.all isWord = true) : closedTo false w = true := by
  induction w with
  | nil => rfl
  | cons c w ih =>
      rw [List.all_cons, Bool.and_eq_true] at words
      rw [closedTo, words.1, Bool.not_true, ih words.2]
      rfl

theorem closedTo_append (first : closedTo free u = true)
    (quiet : ∀ c ∈ v, opensKeyword c = false) : closedTo free (u ++ v) = true := by
  induction u generalizing free with
  | nil => exact closedTo_of_quiet quiet
  | cons c u ih =>
      rw [closedTo, Bool.and_eq_true] at first
      rw [List.cons_append, closedTo, first.1, ih first.2, Bool.and_self]

/-- Where a keyword could begin in a text that none begins in, a word goes on. -/
theorem closedTo_split (closed : closedTo free (u ++ c :: v) = true)
    (opens : opensKeyword c = true) : (u = [] ∧ free = false) ∨ u.getLast?.any isWord = true := by
  induction u generalizing free with
  | nil =>
      rw [List.nil_append, closedTo, opens, Bool.and_true, Bool.and_eq_true, Bool.not_eq_true']
        at closed
      exact .inl ⟨rfl, closed.1⟩
  | cons d u ih =>
      rw [List.cons_append, closedTo, Bool.and_eq_true] at closed
      obtain ⟨rfl, word⟩ | word := ih closed.2
      · exact .inr (by simpa using word)
      · refine .inr ?_
        rw [List.getLast?_cons]
        cases last : u.getLast? with
        | none => simp [last] at word
        | some e => simpa [last] using word

theorem all_isWord_of_folded (text : w.map foldCase = word)
    (lower : word.all Char.isLower = true) : w.all isWord = true := by
  subst text
  rw [List.all_eq_true]
  intro c mem
  exact isWord_of_foldCase (List.all_eq_true.mp lower _ (List.mem_map_of_mem mem))

/-- A word of lower-case letters is closed once case is ignored, if its first letter is. -/
theorem closedTo_of_folded (text : w.map foldCase = word) (lower : word.all Char.isLower = true)
    (head : word.head?.any (fun c => c == 'n' || c == 'u') = false) : closedTo true w = true := by
  have words := all_isWord_of_folded text lower
  subst text
  cases w with
  | nil => rfl
  | cons c w =>
      rw [List.all_cons, Bool.and_eq_true] at words
      rw [closedTo_cons (show opensKeyword c = false from head), words.1, Bool.not_true,
        closedTo_of_words words.2]

theorem quiet_of_folded (text : w.map foldCase = word)
    (letters : word.all (fun c => c != 'n' && c != 'u') = true) :
    ∀ c ∈ w, opensKeyword c = false := by
  subst text
  intro c mem
  have letter := List.all_eq_true.mp letters _ (List.mem_map_of_mem mem)
  rw [Bool.and_eq_true, bne_iff_ne, bne_iff_ne] at letter
  rw [opensKeyword, Bool.or_eq_false_iff, beq_eq_false_iff_ne, beq_eq_false_iff_ne]
  exact letter

theorem wordLength_text {words : List Text} (h : wordLength? words t = some n) :
    (t.take n).map foldCase ∈ words := by
  obtain ⟨word, mem, h⟩ := List.exists_of_findSome?_eq_some h
  simp only [Option.ite_none_right_eq_some, Bool.and_eq_true, Option.some.injEq] at h
  obtain ⟨⟨begins, -⟩, rfl⟩ := h
  rwa [beginsWith_iff.mp begins]

theorem closedTo_digit {d : Char} (digit : isDecimalDigit d = true) :
    closedTo free (d :: r) = closedTo false r := by
  rw [closedTo_cons (quiet_of_isDecimalDigit digit), isWord_of_isDecimalDigit digit, Bool.not_true]

/-- Letters in a number follow a digit or a letter. -/
theorem numberLength_closed (h : numberLength? t = some n) : closedTo true (t.take n) = true := by
  cases t with
  | nil => cases h
  | cons d r =>
      rw [numberLength_cons] at h
      split at h
      · rename_i point
        rw [Option.ite_none_right_eq_some] at h
        obtain ⟨digit, h⟩ := h
        cases r with
        | nil => cases digit
        | cons e r =>
            cases h
            rw [point, List.take_succ_cons, List.take_succ_cons, closedTo_cons (by decide),
              closedTo_digit (by simpa using digit)]
            exact closedTo_of_words (all_take_takeWhile_self r)
      · simp only [Option.ite_none_right_eq_some, Option.some.injEq] at h
        obtain ⟨digit, rfl⟩ := h
        have quiet (k : Char) (digit : isDecimalDigit k = true) : (!opensKeyword k) = true := by
          rw [quiet_of_isDecimalDigit digit, Bool.not_false]
        have rest := all_take_add
          (fractionLength_all quiet rfl (r.drop (r.takeWhile isWord).length))
          (exponentLength_all quiet rfl _)
        rw [List.drop_drop] at rest
        rw [Nat.add_assoc, Nat.add_assoc, Nat.add_comm 1, List.take_succ_cons, closedTo_digit digit,
          List.take_add]
        refine closedTo_append (closedTo_of_words (all_take_takeWhile_self r)) ?_
        intro c mem
        simpa using List.all_eq_true.mp rest c mem

theorem openTagLength_closed (h : openTagLength? t = some n) : closedTo true (t.take n) = true := by
  fun_cases openTagLength? t with
  | case1 r =>
      cases h
      rfl
  | case2 r shape begins =>
      rw [openTagLength?.eq_2 _ shape, if_pos begins] at h
      cases h
      rw [List.take_succ_cons, List.take_succ_cons, closedTo_cons (by decide),
        closedTo_cons (by decide)]
      exact closedTo_of_folded (beginsWith_iff.mp begins) (by decide) (by decide)
  | case3 r shape begins =>
      rw [openTagLength?.eq_2 _ shape, if_neg begins] at h
      cases h
  | case4 => simp_all [openTagLength?]

theorem wordLength_closed {words : List Text} (h : wordLength? words t = some n)
    (lower : ∀ word ∈ words, word.all Char.isLower = true ∧
      word.head?.any (fun c => c == 'n' || c == 'u') = false) : closedTo true (t.take n) = true :=
  have ⟨letters, head⟩ := lower _ (wordLength_text h)
  closedTo_of_folded rfl letters head

/-- Behind its first letter an anonymous class is closed, and that letter begins no keyword. -/
theorem anonymousClassLength_closed (h : anonymousClassLength? before t = some n) :
    closedTo false (t.take n) = true ∧ beginsWith "ne".toList (t.take n) = true := by
  rw [anonymousClassLength_eq] at h
  simp only [Option.ite_none_right_eq_some, Option.map_eq_some_iff, Bool.and_eq_true] at h
  obtain ⟨⟨⟨-, begins⟩, -⟩, k, found, rfl⟩ := h
  have first : (t.take 3).map foldCase = "new".toList := beginsWith_iff.mp begins
  constructor
  · rw [Nat.add_assoc, List.take_add, List.take_add]
    refine closedTo_append (closedTo_of_words (all_isWord_of_folded first (by decide))) ?_
    intro c mem
    obtain blank | letter := List.mem_append.mp mem
    · have blanks := all_take_takeWhile_self (p := isBlank) (t.drop 3)
      exact quiet_of (List.all_eq_true.mp blanks c blank) (by decide)
    · rw [List.drop_drop] at letter
      exact quiet_of_folded (List.mem_singleton.mp (wordLength_text found)) (by decide) c letter
  · have second := congrArg (List.take 2) first
    rw [← List.map_take, List.take_take] at second
    rw [beginsWith_take, beginsWith_iff]
    · exact second
    · exact Nat.le_add_right_of_le (Nat.le_add_right_of_le (by decide))

namespace Terminal

/-- Terminals in whose text no keyword of a declaration begins, whatever stands in front. -/
def isClosed : Terminal → Bool
  | inlineHtml | heredoc | anonymousClass | lineComment | blockComment | doubleQuoted | backtick
  | singleQuoted | name | variableName => false
  | _ => true

theorem closed_of_length {k : Terminal} (closed : k.isClosed = true)
    (found : k.length? before (w ++ r) = some w.length) : closedTo true w = true := by
  cases k with
  | inlineHtml | heredoc | anonymousClass | lineComment | blockComment | doubleQuoted | backtick
  | singleQuoted | name | variableName => cases closed
  | openTag =>
      have taken := openTagLength_closed found
      rwa [List.take_left] at taken
  | number =>
      have taken := numberLength_closed found
      rwa [List.take_left] at taken
  | keywordOperator =>
      simp only [length?, keywordOperatorLength?, Option.ite_none_right_eq_some] at found
      have taken := wordLength_closed found.2 (by decide)
      rwa [List.take_left] at taken
  | classKeyword =>
      simp only [length?, classKeywordLength?, Option.ite_none_right_eq_some,
        Option.filter_eq_some_iff] at found
      have taken := wordLength_closed found.2.1 (by decide)
      rwa [List.take_left] at taken
  | matchKeyword =>
      simp only [length?, matchKeywordLength?, Option.ite_none_right_eq_some, Bool.and_eq_true,
        Option.some.injEq] at found
      obtain ⟨⟨⟨-, begins⟩, -⟩, length⟩ := found
      have text := beginsWith_iff.mp begins
      rw [show "match".toList.length = w.length from length, List.take_left] at text
      exact closedTo_of_folded text (by decide) (by decide)
  | increment =>
      obtain rfl | rfl := increment_text found <;> rfl
  | colon =>
      simp only [length?, Option.ite_none_right_eq_some, Option.some.injEq] at found
      obtain ⟨starts, length⟩ := found
      obtain ⟨c, rfl⟩ := List.length_eq_one_iff.mp length.symm
      rw [List.singleton_append, startsColon_cons, Bool.and_eq_true, beq_iff_eq] at starts
      rw [starts.1]
      rfl
  | operator =>
      refine closedTo_of_quiet fun c mem => ?_
      obtain ⟨u, v, rfl⟩ := List.append_of_mem mem
      have goesOn := operator_continues found
      generalize (v ++ r).head? = next at goesOn
      exact quiet_of (p := fun c => continuesOperator c next) goesOn rfl
  | blank =>
      obtain ⟨length, -⟩ := blank_eq_some_iff.mp found
      have blanks := all_take_takeWhile_self (p := isBlank) (w ++ r)
      rw [show ((w ++ r).takeWhile isBlank).length = w.length from length, List.take_left] at blanks
      exact closedTo_of_quiet fun c mem =>
        quiet_of (List.all_eq_true.mp blanks c mem) (by decide)
  | expressionBrace =>
      simp only [length?, Option.ite_none_right_eq_some] at found
      rw [fixedLength_text found.2]
      rfl
  | ellipsis | attributeBracket | comma | openBrace | openParen | openBracket | closeBrace
  | closeParen | closeBracket | semicolon =>
      rw [fixedLength_text found]
      rfl

end Terminal

theorem variableLength_head (h : variableLength? t = some n) : t.head? = some '$' := by
  fun_cases variableLength? t with
  | case1 => rfl
  | case2 => simp_all [variableLength?]

theorem isIdentifierStart_of_foldCase (letter : (foldCase c).isLower = true) :
    isIdentifierStart c = true := by
  obtain rfl | rfl | rfl | rfl | alpha := foldCase_cases letter
  · decide
  · decide
  · decide
  · decide
  · rw [isIdentifierStart, alpha, Bool.true_or, Bool.true_or]

/-- No identifier starts where a name ends. -/
theorem qualifiedTail_stop {afterSeparator : Bool}
    (h : qualifiedTail afterSeparator (u ++ c :: r) = u.length) : isIdentifierStart c = false := by
  induction u generalizing afterSeparator with
  | nil =>
      rw [← Bool.not_eq_true]
      intro start
      rw [List.nil_append, qualifiedTail] at h
      split at h
      · cases h
      · cases afterSeparator <;> simp [start, isIdentifierPart_of_isIdentifierStart start] at h
  | cons d u ih =>
      rw [List.cons_append, qualifiedTail] at h
      split at h
      · exact ih (Nat.succ.inj h)
      · rw [List.length_cons] at h
        by_cases goesOn : (if afterSeparator then isIdentifierStart d else isIdentifierPart d) = true
        · rw [if_pos goesOn] at h
          exact ih (Nat.succ.inj h)
        · rw [if_neg goesOn] at h
          cases h

theorem nameLength_stop (h : nameLength? (w ++ c :: r) = some w.length) :
    isIdentifierStart c = false := by
  cases w with
  | nil => cases (nameLength_fits _ _ h).1
  | cons d v =>
      rw [List.cons_append, nameLength_cons] at h
      split at h
      · rw [Option.ite_none_right_eq_some, Option.some.injEq] at h
        cases v with
        | nil => cases h.2
        | cons e v => exact qualifiedTail_stop (Nat.add_right_cancel (m := 2) h.2)
      · rw [Option.ite_none_right_eq_some, Option.some.injEq] at h
        exact qualifiedTail_stop (Nat.succ.inj h.2)

end PhpGate
