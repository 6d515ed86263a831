import PhpGate.Proofs.Token.Context

/-!
Which terminals can hold a quote, a comment sign or a part of a closing tag. Strings, comments,
heredocs and markup aside, only an operator holds a slash, only an attribute bracket a hash sign,
and only an opening tag and an operator what a closing tag is made of.
-/

namespace PhpGate

open Text

/-- Characters that start neither a quoted string nor a comment. -/
def isPlain (c : Char) : Bool :=
  c != '\'' && c != '"' && c != '/' && c != '#'

/-- Plain characters that do not stand in a closing tag either. -/
def isBare (c : Char) : Bool :=
  isPlain c && c != '?' && c != '>'

/-- The first `n` characters of a text are bare. -/
def BareUpTo (n : Nat) (t : Text) : Prop :=
  (t.take n).all isBare = true

variable {t : Text} {n m : Nat}

theorem isPlain_of_isBare {c : Char} (bare : isBare c = true) : isPlain c = true :=
  (Bool.and_eq_true_iff.mp (Bool.and_eq_true_iff.mp bare).1).1

/-- The characters that are not bare. -/
def signs : Text :=
  ['\'', '"', '/', '#', '?', '>']

theorem isBare_of {p : Char → Bool} {c : Char} (h : p c = true)
    (free : signs.map p = List.replicate 6 false) : isBare c = true := by
  simp only [signs, List.map_cons, List.map_nil, List.replicate, List.cons.injEq, and_true] at free
  obtain ⟨single, double, slash, hash, mark, close⟩ := free
  simp only [isBare, isPlain, Bool.and_eq_true, bne_iff_ne]
  refine ⟨⟨⟨⟨⟨?_, ?_⟩, ?_⟩, ?_⟩, ?_⟩, ?_⟩ <;>
  · rintro rfl
    simp_all

section Take

variable {p : Char → Bool}

theorem all_take_add (first : (t.take n).all p = true) (rest : ((t.drop n).take m).all p = true) :
    (t.take (n + m)).all p = true := by
  rw [List.take_add, List.all_append, first, rest, Bool.and_self]

theorem all_take_takeWhile {q : Char → Bool} (h : ∀ c, q c = true → p c = true) (t : Text) :
    (t.take (t.takeWhile q).length).all p = true := by
  rw [← List.prefix_iff_eq_take.mp (List.takeWhile_prefix q), List.all_eq_true]
  exact fun c mem => h c (List.all_eq_true.mp List.all_takeWhile c mem)

theorem all_take_takeWhile_self (t : Text) : (t.take (t.takeWhile p).length).all p = true :=
  all_take_takeWhile (fun _ h => h) t

end Take

namespace BareUpTo

theorem zero (t : Text) : BareUpTo 0 t := rfl

theorem cons {c : Char} (first : isBare c = true) (rest : BareUpTo n t) :
    BareUpTo (n + 1) (c :: t) := by
  simpa [BareUpTo, first] using rest

theorem add (first : BareUpTo n t) (rest : BareUpTo m (t.drop n)) : BareUpTo (n + m) t :=
  all_take_add first rest

theorem takeWhile {p : Char → Bool}
    (free : signs.map p = List.replicate 6 false) (t : Text) :
    BareUpTo (t.takeWhile p).length t :=
  all_take_takeWhile (fun _ h => isBare_of h free) t

theorem beginsWith {word : Text} (bare : word.all isBare = true)
    (h : beginsWith word t = true) : BareUpTo word.length t := by
  induction word generalizing t with
  | nil => exact zero t
  | cons w word ih =>
      cases t with
      | nil => cases h
      | cons c t =>
          rw [Text.beginsWith, Bool.and_eq_true, beq_iff_eq] at h
          rw [List.all_cons, Bool.and_eq_true] at bare
          obtain ⟨rfl, rest⟩ := h
          refine cons ?_ (ih bare.2 rest)
          exact isBare_of (p := fun c => isBare (foldCase c)) bare.1 rfl

end BareUpTo

theorem identifierLength_bare (h : identifierLength? t = some n) : BareUpTo n t := by
  cases t with
  | nil => cases h
  | cons c r =>
      simp only [identifierLength?, Option.ite_none_right_eq_some, Option.some.injEq] at h
      obtain ⟨start, rfl⟩ := h
      exact BareUpTo.cons (isBare_of start rfl) (BareUpTo.takeWhile rfl r)

theorem isIdentifierPart_of_isIdentifierStart {c : Char} (start : isIdentifierStart c = true) :
    isIdentifierPart c = true := by
  simp only [isIdentifierStart, Bool.or_eq_true, beq_iff_eq] at start
  rw [isIdentifierPart, Bool.or_eq_true]
  obtain (letter | rfl) | wide := start
  · exact .inl (isWord_of_isAlphanum (by rw [Char.isAlphanum, letter, Bool.true_or]))
  · exact .inl (by decide)
  · exact .inr wide

section Name

variable {p : Char → Bool} (separator : p '\\' = true)
  (parts : ∀ c, isIdentifierPart c = true → p c = true)
include separator parts

theorem qualifiedTail_all (afterSeparator : Bool) (t : Text) :
    (t.take (qualifiedTail afterSeparator t)).all p = true := by
  induction t generalizing afterSeparator with
  | nil => rfl
  | cons c r ih =>
      rw [qualifiedTail]
      split
      · rename_i here
        rw [List.take_succ_cons, List.all_cons, here, separator, ih true, Bool.and_self]
      · by_cases goesOn : (if afterSeparator then isIdentifierStart c else isIdentifierPart c) = true
        · have part : isIdentifierPart c = true := by
            cases afterSeparator with
            | false => exact goesOn
            | true => exact isIdentifierPart_of_isIdentifierStart goesOn
          rw [if_pos goesOn, List.take_succ_cons, List.all_cons, parts c part, ih false,
            Bool.and_self]
        · rw [if_neg goesOn]
          rfl

/-- A name holds separators and what its identifiers are made of. -/
theorem nameLength_all (h : nameLength? t = some n) : (t.take n).all p = true := by
  have start (c : Char) (start : isIdentifierStart c = true) : p c = true :=
    parts c (isIdentifierPart_of_isIdentifierStart start)
  cases t with
  | nil => cases h
  | cons c r =>
      rw [nameLength_cons] at h
      split at h
      · rename_i here
        rw [Option.ite_none_right_eq_some] at h
        obtain ⟨opens, h⟩ := h
        cases r with
        | nil => cases opens
        | cons d r =>
            cases h
            rw [List.take_succ_cons, List.take_succ_cons, List.all_cons, List.all_cons, here,
              separator, start d opens, List.tail_cons, qualifiedTail_all separator parts false r]
            rfl
      · simp only [Option.ite_none_right_eq_some, Option.some.injEq] at h
        obtain ⟨opens, rfl⟩ := h
        rw [List.take_succ_cons, List.all_cons, start c opens,
          qualifiedTail_all separator parts false r]
        rfl

end Name

theorem nameLength_bare (h : nameLength? t = some n) : BareUpTo n t :=
  nameLength_all rfl (fun _ part => isBare_of part rfl) h

theorem wordLength_bare {words : List Text} (bare : ∀ w ∈ words, w.all isBare = true)
    (h : wordLength? words t = some n) : BareUpTo n t := by
  obtain ⟨w, mem, h⟩ := List.exists_of_findSome?_eq_some h
  simp only [Option.ite_none_right_eq_some, Bool.and_eq_true, Option.some.injEq] at h
  obtain ⟨⟨begins, -⟩, rfl⟩ := h
  exact BareUpTo.beginsWith (bare w mem) begins

theorem anonymousClassLength_bare {before : Text} (h : anonymousClassLength? before t = some n) :
    BareUpTo n t := by
  rw [anonymousClassLength_eq] at h
  simp only [Option.ite_none_right_eq_some, Option.map_eq_some_iff, Bool.and_eq_true] at h
  obtain ⟨⟨⟨-, begins⟩, -⟩, k, found, rfl⟩ := h
  refine BareUpTo.add (BareUpTo.add (BareUpTo.beginsWith rfl begins) ?_) ?_
  · exact BareUpTo.takeWhile rfl _
  · exact wordLength_bare (by decide) found

section Numeral

variable {p : Char → Bool}

/-- An exponent holds digits, signs and its mark. -/
theorem exponentLength_all (digits : ∀ c, isDecimalDigit c = true → p c = true)
    (signs : [p '+', p '-', p 'e', p 'E'] = [true, true, true, true]) (t : Text) :
    (t.take (exponentLength t)).all p = true := by
  simp only [List.cons.injEq, and_true] at signs
  obtain ⟨plus, minus, small, large⟩ := signs
  cases t with
  | nil => rfl
  | cons e r =>
      have sign : (r.take (if r.head? == some '+' || r.head? == some '-' then 1 else 0)).all p
          = true := by
        match r with
        | [] => rfl
        | s :: r =>
            split
            · rename_i signed
              obtain rfl | rfl : s = '+' ∨ s = '-' := by simpa using signed
              · simpa using plus
              · simpa using minus
            · rfl
      rw [exponentLength]
      generalize (if r.head? == some '+' || r.head? == some '-' then 1 else 0) = k at sign ⊢
      split
      · rename_i exponent
        rw [Bool.and_eq_true, Bool.or_eq_true, beq_iff_eq, beq_iff_eq] at exponent
        have mark : p e = true := by
          obtain rfl | rfl := exponent.1
          · exact small
          · exact large
        rw [Nat.add_assoc, Nat.add_comm, List.take_succ_cons, List.all_cons, mark, Bool.true_and]
        exact all_take_add sign (all_take_takeWhile digits _)
      · rfl

theorem fractionLength_all (digits : ∀ c, isDecimalDigit c = true → p c = true)
    (point : p '.' = true) (t : Text) : (t.take (fractionLength t)).all p = true := by
  fun_cases fractionLength t with
  | case1 r =>
      rw [List.take_succ_cons, List.all_cons, point, Bool.true_and]
      exact all_take_takeWhile digits r
  | case2 => rfl

/-- A number holds letters, digits, points and signs. -/
theorem numberLength_all (words : ∀ c, isWord c = true → p c = true)
    (digits : ∀ c, isDecimalDigit c = true → p c = true)
    (signs : [p '.', p '+', p '-', p 'e', p 'E'] = [true, true, true, true, true])
    (h : numberLength? t = some n) : (t.take n).all p = true := by
  simp only [List.cons.injEq, and_true] at signs
  obtain ⟨point, plus, minus, small, large⟩ := signs
  cases t with
  | nil => cases h
  | cons d r =>
      rw [numberLength_cons] at h
      split at h
      · rename_i dot
        rw [Option.ite_none_right_eq_some] at h
        obtain ⟨digit, h⟩ := h
        cases r with
        | nil => cases digit
        | cons e r =>
            cases h
            rw [List.tail_cons, List.take_succ_cons, List.take_succ_cons, List.all_cons,
              List.all_cons, dot, point, digits e digit, all_take_takeWhile words]
            rfl
      · simp only [Option.ite_none_right_eq_some, Option.some.injEq] at h
        obtain ⟨digit, rfl⟩ := h
        have whole := all_take_add (all_take_takeWhile words r)
          (fractionLength_all digits point (r.drop (r.takeWhile isWord).length))
        rw [Nat.add_assoc, Nat.add_assoc, Nat.add_comm 1, ← Nat.add_assoc, List.take_succ_cons,
          List.all_cons, digits d digit, all_take_add whole
            (exponentLength_all digits (by rw [plus, minus, small, large]) _)]
        rfl

end Numeral

theorem numberLength_bare (h : numberLength? t = some n) : BareUpTo n t :=
  numberLength_all (fun _ word => isBare_of word rfl) (fun _ digit => isBare_of digit rfl) rfl h

theorem variableLength_bare (h : variableLength? t = some n) : BareUpTo n t := by
  fun_cases variableLength? t with
  | case1 r =>
      simp only [variableLength?, Option.some.injEq] at h
      subst h
      have signs : BareUpTo (r.takeWhile (· == '$')).length r := BareUpTo.takeWhile rfl r
      rw [Nat.add_assoc, Nat.add_comm]
      refine BareUpTo.cons rfl (signs.add ?_)
      cases found : identifierLength? (r.drop (r.takeWhile (· == '$')).length) with
      | none => exact BareUpTo.zero _
      | some m => exact identifierLength_bare found
  | case2 => simp_all [variableLength?]

theorem fixedLength_text {word w r : Text} (h : fixedLength? word (w ++ r) = some w.length) :
    w = word := by
  simp only [fixedLength?, Option.ite_none_right_eq_some, List.isPrefixOf_iff_prefix,
    Option.some.injEq] at h
  exact ((List.prefix_of_prefix_length_le h.1 (List.prefix_append w r)
    (Nat.le_of_eq h.2)).eq_of_length h.2).symm

theorem increment_text {before w r : Text}
    (found : Terminal.length? before (w ++ r) .increment = some w.length) :
    w = "++".toList ∨ w = "--".toList := by
  simp only [Terminal.length?, Bool.or_eq_true, Option.ite_none_right_eq_some, Option.some.injEq]
    at found
  obtain ⟨stands | stands, length⟩ := found
  · exact .inl (fixedLength_text (by rw [fixedLength?, if_pos stands, ← length]; rfl))
  · exact .inr (fixedLength_text (by rw [fixedLength?, if_pos stands, ← length]; rfl))

theorem fixedLength_bare {word : Text} (bare : word.all isBare = true)
    (h : fixedLength? word t = some n) : BareUpTo n t := by
  simp only [fixedLength?, Option.ite_none_right_eq_some, List.isPrefixOf_iff_prefix,
    Option.some.injEq] at h
  obtain ⟨⟨r, rfl⟩, rfl⟩ := h
  rw [BareUpTo, List.take_left, bare]

theorem openTagLength_plain (h : openTagLength? t = some n) : (t.take n).all isPlain = true := by
  fun_cases openTagLength? t with
  | case1 r =>
      cases h
      rfl
  | case2 r shape begins =>
      rw [openTagLength?.eq_2 _ shape, if_pos begins] at h
      cases h
      have bare : BareUpTo 3 r := BareUpTo.beginsWith rfl begins
      simpa [isPlain] using fun c mem => isPlain_of_isBare (List.all_eq_true.mp bare c mem)
  | case3 r shape begins =>
      rw [openTagLength?.eq_2 _ shape, if_neg begins] at h
      cases h
  | case4 => simp_all [openTagLength?]

namespace Terminal

/-- Terminals whose text holds bare characters only. -/
def isBare : Terminal → Bool
  | inlineHtml | openTag | heredoc | lineComment | blockComment | doubleQuoted | backtick
  | singleQuoted | operator | attributeBracket => false
  | _ => true

theorem length_bare {before : Text} {k : Terminal} (bare : k.isBare = true)
    (h : k.length? before t = some n) : BareUpTo n t := by
  cases k with
  | inlineHtml | openTag | heredoc | lineComment | blockComment | doubleQuoted | backtick
  | singleQuoted | operator | attributeBracket => cases bare
  | anonymousClass => exact anonymousClassLength_bare h
  | keywordOperator =>
      simp only [length?, keywordOperatorLength?, Option.ite_none_right_eq_some] at h
      exact wordLength_bare (by decide) h.2
  | classKeyword =>
      simp only [length?, classKeywordLength?, Option.ite_none_right_eq_some,
        Option.filter_eq_some_iff] at h
      exact wordLength_bare (by decide) h.2.1
  | matchKeyword =>
      simp only [length?, matchKeywordLength?, Option.ite_none_right_eq_some, Bool.and_eq_true,
        Option.some.injEq] at h
      obtain ⟨⟨⟨-, begins⟩, -⟩, rfl⟩ := h
      exact BareUpTo.beginsWith rfl begins
  | name => exact nameLength_bare h
  | number => exact numberLength_bare h
  | variableName => exact variableLength_bare h
  | increment =>
      simp only [length?, Bool.or_eq_true, List.isPrefixOf_iff_prefix,
        Option.ite_none_right_eq_some, Option.some.injEq] at h
      obtain ⟨⟨r, rfl⟩ | ⟨r, rfl⟩, rfl⟩ := h
      · rfl
      · rfl
  | colon =>
      simp only [length?, Option.ite_none_right_eq_some, Option.some.injEq] at h
      obtain ⟨starts, rfl⟩ := h
      cases t with
      | nil => cases starts
      | cons c r =>
          rw [startsColon_cons, Bool.and_eq_true, beq_iff_eq] at starts
          obtain ⟨rfl, -⟩ := starts
          rfl
  | expressionBrace =>
      simp only [length?, Option.ite_none_right_eq_some] at h
      exact fixedLength_bare rfl h.2
  | blank =>
      obtain ⟨rfl, -⟩ := blank_eq_some_iff.mp h
      exact BareUpTo.takeWhile rfl t
  | ellipsis | comma | openBrace | openParen | openBracket | closeBrace | closeParen
  | closeBracket | semicolon => exact fixedLength_bare rfl h

end Terminal

/-- Every character of an operator goes on with it. -/
theorem operatorRun_continues {u s : Text} {c : Char} (h : u.length < operatorRun (u ++ c :: s)) :
    continuesOperator c s.head? = true := by
  induction u with
  | nil =>
      rw [List.nil_append, operatorRun] at h
      split at h
      · assumption
      · cases h
  | cons d u ih =>
      rw [List.cons_append, operatorRun] at h
      split at h
      · exact ih (Nat.lt_of_succ_lt_succ h)
      · cases h

theorem Terminal.operator_continues {before u v r : Text} {c : Char}
    (found : length? before ((u ++ c :: v) ++ r) operator = some (u ++ c :: v).length) :
    continuesOperator c (v ++ r).head? = true := by
  simp only [length?, someLength, Option.ite_none_left_eq_some, Option.some.injEq] at found
  refine operatorRun_continues (u := u) ?_
  rw [← List.cons_append, ← List.append_assoc, found.2, List.length_append, List.length_cons]
  omega

end PhpGate
