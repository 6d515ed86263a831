import PhpGate.Proofs.Text.Pieces
import PhpGate.Proofs.Token.Equations
import PhpGate.Proofs.Token.Extent

/-!
Characters that end every word, name, variable and number. A pattern that reads no further than
these is decided by what stands in front of such a character, whatever comes behind it.
-/

namespace PhpGate

open Text

/-- No word, name, variable, number, sign or indentation goes on with such a character. -/
def IsBreak (c : Char) : Prop :=
  c = '\n' ∨ c = '>' ∨ c = ':'

variable {c : Char} {X t : Text}

theorem isBreak_line : IsBreak '\n' := .inl rfl

theorem IsBreak.eq_false (h : IsBreak c) {p : Char → Bool}
    (signs : [p '\n', p '>', p ':'] = [false, false, false]) : p c = false := by
  simp only [List.cons.injEq, and_true] at signs
  obtain ⟨line, arrow, colon⟩ := signs
  obtain rfl | rfl | rfl := h
  · exact line
  · exact arrow
  · exact colon

section Plain

theorem takeWhile_append_break {p : Char → Bool} (h : p c = false) :
    (t ++ c :: X).takeWhile p = t.takeWhile p :=
  takeWhile_append (r := c :: X) h

theorem dropWhile_append_break {p : Char → Bool} (h : p c = false) :
    (t ++ c :: X).dropWhile p = t.dropWhile p ++ c :: X := by
  induction t with
  | nil => simp [h]
  | cons d t ih =>
      rw [List.cons_append, List.dropWhile_cons, List.dropWhile_cons]
      split
      · exact ih
      · rfl

theorem head_append_break {d : Char} (h : d ≠ c) :
    (t ++ c :: X).head? = some d ↔ t.head? = some d := by
  cases t with
  | nil => simpa using h.symm
  | cons e t => rfl

theorem isPrefixOf_append_break {word : Text} (h : c ∉ word) :
    word.isPrefixOf (t ++ c :: X) = word.isPrefixOf t := by
  induction word generalizing t with
  | nil => simp
  | cons w word ih =>
      simp only [List.mem_cons, not_or] at h
      cases t with
      | nil => simpa [List.isPrefixOf] using fun e : w = c => absurd e.symm h.1
      | cons d t => simp [List.isPrefixOf, ih h.2]

theorem fixedLength_append_break {word : Text} (h : c ∉ word) :
    fixedLength? word (t ++ c :: X) = fixedLength? word t := by
  rw [fixedLength?, isPrefixOf_append_break h, fixedLength?]

/-- A text begins with a word of letters if it does so in front of what is no letter. -/
theorem beginsWith_append_of {word : Text} (letters : word.all Char.isLower = true)
    (plain : X.head?.any (fun d => (foldCase d).isLower) = false) :
    beginsWith word (t ++ X) = beginsWith word t := by
  cases X with
  | nil => rw [List.append_nil]
  | cons c X => exact beginsWith_append_plain letters plain

/-- A word is found alike in front of what is no letter, and where the word is all of the text, in
front of what no word goes on with. -/
theorem wordLength_append_of {words : List Text} (letters : ∀ w ∈ words, w.all Char.isLower = true)
    (plain : X.head?.any (fun d => (foldCase d).isLower) = false)
    (ends : ∀ w ∈ words, t.map foldCase = w → X.head?.any isWord = false) :
    wordLength? words (t ++ X) = wordLength? words t := by
  induction words with
  | nil => rfl
  | cons w words ih =>
      obtain ⟨lettersHere, letters⟩ := List.forall_mem_cons.mp letters
      obtain ⟨endsHere, ends⟩ := List.forall_mem_cons.mp ends
      have later := ih letters ends
      simp only [wordLength?, List.findSome?_cons, beginsWith_append_of lettersHere plain]
        at later ⊢
      cases begins : beginsWith w t with
      | false => simpa using later
      | true =>
          have boundary : (t.drop w.length ++ X).head?.any isWord
              = (t.drop w.length).head?.any isWord := by
            cases behind : t.drop w.length with
            | nil =>
                have whole := beginsWith_iff.mp begins
                rw [List.take_of_length_le (List.drop_eq_nil_iff.mp behind)] at whole
                exact endsHere whole
            | cons d r => rfl
          rw [List.drop_append_of_le_length (length_le_of_beginsWith begins), boundary, later]

end Plain

namespace IsBreak

variable (h : IsBreak c)
include h

theorem not_mem {word : Text}
    (plain : word.all (fun d => d != '\n' && d != '>' && d != ':') = true) : c ∉ word := by
  intro mem
  have other := List.all_eq_true.mp plain c mem
  obtain rfl | rfl | rfl := h <;> cases other

theorem beginsWith_append {word : Text} (letters : word.all Char.isLower = true) :
    beginsWith word (t ++ c :: X) = beginsWith word t :=
  beginsWith_append_plain letters (h.eq_false (p := fun d => (foldCase d).isLower) rfl)

theorem openTagLength_append : openTagLength? (t ++ c :: X) = openTagLength? t := by
  match t with
  | [] => obtain rfl | rfl | rfl := h <;> rfl
  | [d] => obtain rfl | rfl | rfl := h <;> simp [openTagLength_cons]
  | d :: e :: r =>
      have php : beginsWith "php".toList (r ++ c :: X) = beginsWith "php".toList r :=
        h.beginsWith_append rfl
      have echo : '=' ≠ c := by obtain rfl | rfl | rfl := h <;> decide
      simp only [List.cons_append, openTagLength_cons, List.head?_cons, List.tail_cons, php,
        head_append_break echo]
      rfl

theorem identifierLength_append : identifierLength? (t ++ c :: X) = identifierLength? t := by
  cases t with
  | nil => simp [identifierLength?, h.eq_false (p := isIdentifierStart) rfl]
  | cons d r =>
      simp only [List.cons_append, identifierLength?]
      rw [takeWhile_append_break (h.eq_false rfl)]

theorem qualifiedTail_append (afterSeparator : Bool) :
    qualifiedTail afterSeparator (t ++ c :: X) = qualifiedTail afterSeparator t := by
  induction t generalizing afterSeparator with
  | nil => obtain rfl | rfl | rfl := h <;> cases afterSeparator <;> rfl
  | cons d t ih => simp [qualifiedTail, ih]

theorem nameLength_append : nameLength? (t ++ c :: X) = nameLength? t := by
  match t with
  | [] => obtain rfl | rfl | rfl := h <;> rfl
  | [d] =>
      have start := h.eq_false (p := isIdentifierStart) rfl
      have whole := h.qualifiedTail_append (t := []) (X := X) false
      rw [List.nil_append] at whole
      simp [nameLength_cons, start, whole]
  | d :: e :: r =>
      have whole := h.qualifiedTail_append (t := e :: r) (X := X) false
      rw [List.cons_append] at whole
      simp only [List.cons_append, nameLength_cons, List.head?_cons, List.tail_cons, whole,
        h.qualifiedTail_append]
      rfl

theorem wordLength_append {words : List Text} (letters : ∀ w ∈ words, w.all Char.isLower = true) :
    wordLength? words (t ++ c :: X) = wordLength? words t :=
  wordLength_append_of letters (h.eq_false (p := fun d => (foldCase d).isLower) rfl)
    fun _ _ _ => h.eq_false (p := isWord) rfl

theorem keywordOperatorLength_append (before : Text) :
    keywordOperatorLength? before (t ++ c :: X) = keywordOperatorLength? before t := by
  rw [keywordOperatorLength?, h.wordLength_append (by decide), keywordOperatorLength?]

theorem isBlank_eq_false (line : c ≠ '\n') : isBlank c = false := by
  obtain rfl | rfl | rfl := h
  · contradiction
  · rfl
  · rfl

theorem blankLength_append (line : c ≠ '\n') : blankLength (t ++ c :: X) = blankLength t :=
  congrArg List.length (takeWhile_append_break (h.isBlank_eq_false line))

theorem anonymousClassLength_append (before : Text) (line : c ≠ '\n') :
    anonymousClassLength? before (t ++ c :: X) = anonymousClassLength? before t := by
  have begins : beginsWith "new".toList (t ++ c :: X) = beginsWith "new".toList t :=
    h.beginsWith_append rfl
  simp only [anonymousClassLength_eq, begins]
  cases stands : beginsWith "new".toList t with
  | false => simp
  | true =>
      have long : 3 ≤ t.length := length_le_of_beginsWith stands
      have blanks : blankLength (t.drop 3) ≤ (t.drop 3).length := length_takeWhile_le _ _
      rw [List.length_drop] at blanks
      rw [List.drop_append_of_le_length long, h.blankLength_append line, List.drop_append_of_le_length (by omega),
        h.wordLength_append (by decide)]

theorem matchKeywordLength_append (before : Text) (line : c ≠ '\n') :
    matchKeywordLength? before (t ++ c :: X) = matchKeywordLength? before t := by
  have begins : beginsWith "match".toList (t ++ c :: X) = beginsWith "match".toList t :=
    h.beginsWith_append rfl
  have paren : '(' ≠ c := by obtain rfl | rfl | rfl := h <;> decide
  rw [matchKeywordLength?, matchKeywordLength?, begins]
  cases stands : beginsWith "match".toList t with
  | false => simp only [Bool.and_false, Bool.false_and]
  | true =>
      have long : 5 ≤ t.length := length_le_of_beginsWith stands
      have same : ((trimStart ((t ++ c :: X).drop 5)).head? == some '(')
          = ((trimStart (t.drop 5)).head? == some '(') := by
        rw [List.drop_append_of_le_length long, trimStart, dropWhile_append_break (h.isBlank_eq_false line),
          Bool.eq_iff_iff, beq_iff_eq, beq_iff_eq, head_append_break paren, trimStart]
      rw [same]

theorem exponentLength_append : exponentLength (t ++ c :: X) = exponentLength t := by
  match t with
  | [] => obtain rfl | rfl | rfl := h <;> simp [exponentLength]
  | [e] => obtain rfl | rfl | rfl := h <;> simp [exponentLength, isDecimalDigit, digitValue?]
  | e :: s :: r =>
      have head : ((s :: r) ++ c :: X).head? = (s :: r).head? := rfl
      rw [List.cons_append, exponentLength, exponentLength, head]
      have sign_le : (if (s :: r).head? == some '+' || (s :: r).head? == some '-' then 1 else 0)
          ≤ (s :: r).length := by
        simp only [List.length_cons]
        split <;> omega
      generalize (if (s :: r).head? == some '+' || (s :: r).head? == some '-' then 1 else 0)
        = sign at *
      rw [List.drop_append_of_le_length sign_le, takeWhile_append_break (h.eq_false rfl)]

theorem fractionLength_append : fractionLength (t ++ c :: X) = fractionLength t := by
  cases t with
  | nil => obtain rfl | rfl | rfl := h <;> rfl
  | cons d r =>
      by_cases point : d = '.'
      · simp only [point, List.cons_append, fractionLength]
        rw [takeWhile_append_break (h.eq_false rfl)]
      · simp [fractionLength, point]

theorem numberLength_append : numberLength? (t ++ c :: X) = numberLength? t := by
  have digit := h.eq_false (p := isDecimalDigit) rfl
  have word := h.eq_false (p := isWord) rfl
  match t with
  | [] =>
      have point : c ≠ '.' := by obtain rfl | rfl | rfl := h <;> decide
      rw [List.nil_append, numberLength_cons, if_neg point, digit]
      rfl
  | [d] =>
      have fraction : fractionLength (c :: X) = fractionLength [] :=
        h.fractionLength_append (t := [])
      have exponent : exponentLength (c :: X) = exponentLength [] :=
        h.exponentLength_append (t := [])
      rw [List.cons_append, List.nil_append, numberLength_cons, numberLength_cons, List.head?_cons,
        Option.any_some, digit, List.takeWhile_cons_of_neg (by simp [word])]
      simp only [List.length_nil, List.drop_zero, Nat.zero_add, fraction]
      rw [show fractionLength [] = 0 from rfl, List.drop_zero, exponent]
      rfl
  | d :: e :: r =>
      have head : ((e :: r) ++ c :: X).head? = (e :: r).head? := rfl
      have tail : ((e :: r) ++ c :: X).tail = (e :: r).tail ++ c :: X := rfl
      have whole := length_takeWhile_le isWord (e :: r)
      have fraction := fractionLength_le ((e :: r).drop ((e :: r).takeWhile isWord).length)
      rw [List.length_drop] at fraction
      rw [List.cons_append, numberLength_cons, numberLength_cons, head, tail]
      dsimp only
      rw [takeWhile_append_break word, takeWhile_append_break word, List.drop_append_of_le_length whole,
        h.fractionLength_append, List.drop_append_of_le_length (by omega), h.exponentLength_append]

theorem variableLength_append : variableLength? (t ++ c :: X) = variableLength? t := by
  cases t with
  | nil => obtain rfl | rfl | rfl := h <;> rfl
  | cons d r =>
      by_cases sign : d = '$'
      · simp only [sign, List.cons_append, variableLength?]
        rw [takeWhile_append_break (h.eq_false rfl), List.drop_append_of_le_length (length_takeWhile_le _ _),
          h.identifierLength_append]
      · simp [variableLength?, sign]

section Heredoc

/-- A line break in front of the character is read alike, but for a carriage return that a line feed
comes behind. -/
theorem lineBreakLength_append :
    lineBreakLength? (t ++ c :: X) = lineBreakLength? t ∨
      (c = '\n' ∧ lineBreakLength? t = none ∧
        lineBreakLength? (t ++ c :: X) = some (t.length + 1)) := by
  match t with
  | [] =>
      obtain rfl | rfl | rfl := h
      · exact .inr ⟨rfl, rfl, rfl⟩
      · exact .inl rfl
      · exact .inl rfl
  | [d] =>
      by_cases feed : d = '\n'
      · exact .inl (by simp [lineBreakLength?, feed])
      · by_cases carriage : d = '\r'
        · obtain rfl | rfl | rfl := h
          · exact .inr (by simp [lineBreakLength?, carriage])
          · exact .inl (by simp [lineBreakLength_cons, carriage])
          · exact .inl (by simp [lineBreakLength_cons, carriage])
        · exact .inl (by simp [lineBreakLength?, feed, carriage])
  | d :: e :: r => exact .inl (by simp [lineBreakLength_cons])

theorem heredocQuote_append : heredocQuote (t ++ c :: X) = heredocQuote t := by
  cases t with
  | nil => obtain rfl | rfl | rfl := h <;> rfl
  | cons d t => rfl

/-- A label at the very end of a text becomes an opening line by a line feed after it. -/
theorem heredocLabel_append (indent : Nat) {quote : Text} (plain : c ∉ quote) :
    heredocLabel? indent quote (t ++ c :: X) = heredocLabel? indent quote t ∨
      (c = '\n' ∧ heredocLabel? indent quote t = none ∧
        ∃ label, heredocLabel? indent quote (t ++ c :: X)
          = some (label, 3 + indent + quote.length + t.length + 1)) := by
  simp only [heredocLabel?, h.identifierLength_append]
  cases found : identifierLength? t with
  | none => exact .inl rfl
  | some n =>
      have le := (identifierLength_fits t n found).2
      simp only [Option.bind_some, List.drop_append_of_le_length le, isPrefixOf_append_break plain,
        List.take_append_of_le_length le]
      cases closes : quote.isPrefixOf (t.drop n) with
      | false => exact .inl rfl
      | true =>
          have long := (List.isPrefixOf_iff_prefix.mp closes).length_le
          simp only [if_true, List.drop_append_of_le_length long]
          obtain same | ⟨line, none, ends⟩ := h.lineBreakLength_append (X := X)
            (t := (t.drop n).drop quote.length)
          · exact .inl (by rw [same])
          · refine .inr ⟨line, by rw [none]; rfl, t.take n, ?_⟩
            simp only [List.length_drop] at long
            simp only [ends, Option.map_some, Option.some.injEq, Prod.mk.injEq, true_and,
              List.length_drop]
            omega

theorem heredocOpening_append :
    heredocOpening? (t ++ c :: X) = heredocOpening? t ∨
      (c = '\n' ∧ heredocOpening? t = none ∧
        ∃ label, heredocOpening? (t ++ c :: X) = some (label, t.length + 1)) := by
  by_cases opens : ∃ r, t = '<' :: '<' :: '<' :: r
  · obtain ⟨r, rfl⟩ := opens
    have indented := length_takeWhile_le isTabOrSpace r
    simp only [List.cons_append, heredocOpening_eq]
    rw [takeWhile_append_break (h.eq_false rfl), List.drop_append_of_le_length indented, h.heredocQuote_append]
    generalize (r.takeWhile isTabOrSpace).length = indent at *
    have plain : c ∉ heredocQuote (r.drop indent) := by
      apply h.not_mem
      obtain e | e | e := heredocQuote_eq (r.drop indent) <;> rw [e] <;> rfl
    have quoted := heredocQuote_length_le (r.drop indent)
    simp only [List.length_drop] at quoted
    rw [List.drop_append_of_le_length (by omega)]
    obtain same | ⟨line, none, label, ends⟩ := h.heredocLabel_append (X := X) indent plain
      (t := r.drop (indent + (heredocQuote (r.drop indent)).length))
    · exact .inl same
    · refine .inr ⟨line, none, label, ?_⟩
      simp only [ends, Option.some.injEq, Prod.mk.injEq, true_and, List.length_drop,
        List.length_cons]
      omega
  · have less : c ≠ '<' := by obtain rfl | rfl | rfl := h <;> decide
    have still (r : Text) : t ++ c :: X ≠ '<' :: '<' :: '<' :: r := by
      intro e
      match t with
      | [] | [a] | [a, b] => simp [less] at e
      | a :: b :: d :: s =>
          simp only [List.cons_append, List.cons.injEq] at e
          obtain ⟨rfl, rfl, rfl, -⟩ := e
          exact opens ⟨s, rfl⟩
    rw [heredocOpening_eq_none still, heredocOpening_eq_none fun r e => opens ⟨r, e⟩]
    exact .inl rfl

theorem heredocClosing_append {label : Text} (plain : c ∉ label) :
    heredocClosing? label (t ++ c :: X) = heredocClosing? label t := by
  have indented := length_takeWhile_le isTabOrSpace t
  simp only [heredocClosing?]
  rw [takeWhile_append_break (h.eq_false rfl), List.drop_append_of_le_length indented,
    isPrefixOf_append_break plain]
  cases stands : label.isPrefixOf (t.drop (t.takeWhile isTabOrSpace).length) with
  | false => rfl
  | true =>
      have long := (List.isPrefixOf_iff_prefix.mp stands).length_le
      simp only [List.length_drop] at long
      rw [List.drop_append_of_le_length (by omega)]
      have boundary (r : Text) : isBoundary label.getLast? (r ++ c :: X).head?
          = isBoundary label.getLast? r.head? := by
        cases r with
        | nil =>
            rw [List.nil_append, List.head?_cons, List.head?_nil, isBoundary, isBoundary,
              Option.any_some, h.eq_false (p := isWord) rfl]
            rfl
        | cons d r => rfl
      rw [boundary]

end Heredoc

end IsBreak

section Label

variable {n : Nat} {label : Text}

theorem identifierLength_start (h : identifierLength? t = some n) :
    (t.take n).head?.any isIdentifierStart = true ∧ ∀ c, IsBreak c → c ∉ t.take n := by
  cases t with
  | nil => cases h
  | cons d r =>
      simp only [identifierLength?, Option.ite_none_right_eq_some, Option.some.injEq] at h
      obtain ⟨start, rfl⟩ := h
      have run : r.take (r.takeWhile isIdentifierPart).length = r.takeWhile isIdentifierPart :=
        (List.prefix_iff_eq_take.mp (List.takeWhile_prefix _)).symm
      refine ⟨start, ?_⟩
      intro c ends
      rw [List.take_succ_cons, run, List.mem_cons, not_or]
      constructor
      · rintro rfl
        rw [ends.eq_false (p := isIdentifierStart) rfl] at start
        cases start
      · intro mem
        have part := List.all_eq_true.mp List.all_takeWhile _ mem
        rw [ends.eq_false (p := isIdentifierPart) rfl] at part
        cases part

theorem heredocLabel_start {indent : Nat} {quote : Text}
    (h : heredocLabel? indent quote t = some (label, n)) :
    label.head?.any isIdentifierStart = true ∧ ∀ c, IsBreak c → c ∉ label := by
  simp only [heredocLabel?, Option.bind_eq_some_iff] at h
  obtain ⟨m, found, h⟩ := h
  split at h
  · simp only [Option.map_eq_some_iff, Prod.mk.injEq] at h
    obtain ⟨-, -, rfl, -⟩ := h
    exact identifierLength_start found
  · cases h

theorem heredocOpening_start (h : heredocOpening? t = some (label, n)) :
    label.head?.any isIdentifierStart = true ∧ ∀ c, IsBreak c → c ∉ label := by
  by_cases opens : ∃ r, t = '<' :: '<' :: '<' :: r
  · obtain ⟨r, rfl⟩ := opens
    exact heredocLabel_start h
  · rw [heredocOpening_eq_none fun r e => opens ⟨r, e⟩] at h
    cases h

end Label

end PhpGate
