import PhpGate.Token.Lexer

/-!
The patterns whose rows overlap, as equations with the conditions under which a row is reached. What
a row sees beyond its first character is stated by the head of the text behind it.
-/

namespace PhpGate

open Text

theorem openTagLength_cons (c : Char) (r : Text) :
    openTagLength? (c :: r) =
      if c = '<' ∧ r.head? = some '?' then
        if r.tail.head? = some '=' then some 3
        else if beginsWith "php".toList r.tail then some 5 else none
      else none := by
  by_cases less : c = '<'
  · subst less
    match r with
    | [] => simp [openTagLength?]
    | [d] => by_cases mark : d = '?' <;> simp [openTagLength?, mark]
    | d :: e :: r =>
        by_cases mark : d = '?'
        · subst mark
          by_cases echo : e = '='
          · simp [openTagLength?, echo]
          · simp [openTagLength?, echo]
            rfl
        · simp [openTagLength?, mark]
  · simp [openTagLength?, less]

theorem nameLength_cons (c : Char) (r : Text) :
    nameLength? (c :: r) =
      if c = '\\' then
        if r.head?.any isIdentifierStart then some (qualifiedTail false r.tail + 2) else none
      else if isIdentifierStart c then some (qualifiedTail false r + 1) else none := by
  by_cases h : c = '\\'
  · subst h
    cases r <;> rfl
  · simp [nameLength?, h]

section Quoted

variable {quote : Char} (h : quote ≠ '\\')
include h

theorem quotedLength_cons (c : Char) (r : Text) :
    quotedLength? quote (c :: r) =
      if c = '\\' then
        if r.isEmpty then none else (quotedLength? quote r.tail).map (· + 2)
      else if c = quote then some 1 else (quotedLength? quote r).map (· + 1) := by
  by_cases escape : c = '\\'
  · subst escape
    cases r with
    | nil => simp [quotedLength?, h.symm]
    | cons d r => simp [quotedLength?]
  · simp [quotedLength?, escape]

end Quoted

theorem interpolatedLength_inside_cons (c : Char) (r : Text) :
    interpolatedLength? .inside (c :: r) =
      (interpolatedLength? (if c = '\x7d' then .outside else .inside) r).map (· + 1) := by
  rw [interpolatedLength?]

theorem interpolatedLength_outside_cons (c : Char) (r : Text) :
    interpolatedLength? .outside (c :: r) =
      if c = '\\' then
        if r.isEmpty then none else (interpolatedLength? .outside r.tail).map (· + 2)
      else if c = '\x7b' ∧ r.head? = some '$' then
        (interpolatedLength? .inside r.tail).map (· + 2)
      else if c = '"' then some 1
      else (interpolatedLength? .outside r).map (· + 1) := by
  by_cases escape : c = '\\'
  · subst escape
    cases r with
    | nil => simp [interpolatedLength?]
    | cons d r => simp [interpolatedLength?]
  · by_cases brace : c = '\x7b'
    · subst brace
      cases r with
      | nil => simp [interpolatedLength?]
      | cons d r => by_cases sign : d = '$' <;> simp [interpolatedLength?, sign]
    · simp [interpolatedLength?, escape, brace]

theorem lineCommentTail_cons (c : Char) (r : Text) :
    lineCommentTail (c :: r) =
      if (c = '?' ∧ r.head? = some '>') ∨ c = '\r' ∨ c = '\n' then 0 else lineCommentTail r + 1 := by
  by_cases mark : c = '?'
  · subst mark
    cases r with
    | nil => simp [lineCommentTail]
    | cons d r => by_cases closes : d = '>' <;> simp [lineCommentTail, closes]
  · simp [lineCommentTail, mark]

theorem blockCommentTail_cons (c : Char) (r : Text) :
    blockCommentTail? (c :: r) =
      if c = '*' ∧ r.head? = some '/' then some 2 else (blockCommentTail? r).map (· + 1) := by
  by_cases star : c = '*'
  · subst star
    cases r with
    | nil => simp [blockCommentTail?]
    | cons d r => by_cases closes : d = '/' <;> simp [blockCommentTail?, closes]
  · simp [blockCommentTail?, star]

theorem lineCommentLength_cons (c : Char) (r : Text) :
    lineCommentLength? (c :: r) =
      if c = '/' ∧ r.head? = some '/' then some (lineCommentTail r.tail + 2)
      else if c = '#' ∧ r.head? ≠ some '[' then some (lineCommentTail r + 1)
      else none := by
  by_cases slash : c = '/'
  · subst slash
    cases r with
    | nil => simp [lineCommentLength?]
    | cons d r => by_cases again : d = '/' <;> simp [lineCommentLength?, again]
  · by_cases hash : c = '#'
    · subst hash
      cases r with
      | nil => simp [lineCommentLength?]
      | cons d r => by_cases bracket : d = '[' <;> simp [lineCommentLength?, bracket]
    · simp [lineCommentLength?, slash, hash]

theorem blockCommentLength_cons (c : Char) (r : Text) :
    blockCommentLength? (c :: r) =
      if c = '/' ∧ r.head? = some '*' then (blockCommentTail? r.tail).map (· + 2) else none := by
  by_cases slash : c = '/'
  · subst slash
    cases r with
    | nil => simp [blockCommentLength?]
    | cons d r => by_cases star : d = '*' <;> simp [blockCommentLength?, star]
  · simp [blockCommentLength?, slash]

theorem followsMember_cons (c d : Char) (r : Text) :
    followsMember (c :: d :: r) = ((c == '>' && d == '-') || (c == ':' && d == ':')) := by
  by_cases arrow : c = '>'
  · by_cases dash : d = '-' <;> simp [followsMember, arrow, dash]
  · by_cases scope : c = ':'
    · by_cases again : d = ':' <;> simp [followsMember, scope, again]
    · simp [followsMember, arrow, scope]

theorem lineBreakLength_cons (c : Char) (r : Text) :
    lineBreakLength? (c :: r) =
      if c = '\n' then some 1 else if c = '\r' ∧ r.head? = some '\n' then some 2 else none := by
  by_cases carriage : c = '\r'
  · subst carriage
    cases r with
    | nil => simp [lineBreakLength?]
    | cons d r => by_cases feed : d = '\n' <;> simp [lineBreakLength?, feed]
  · by_cases feed : c = '\n' <;> simp [lineBreakLength?, feed, carriage]

/-- The quote that the label of a heredoc may stand in. -/
def heredocQuote (t : Text) : Text :=
  t.head?.toList.filter fun c => c == '"' || c == '\''

/-- The opening line of a heredoc from its label on, which stands behind the quote. -/
def heredocLabel? (indent : Nat) (quote body : Text) : Option (Text × Nat) :=
  (identifierLength? body).bind fun n =>
    if quote.isPrefixOf (body.drop n) then
      (lineBreakLength? ((body.drop n).drop quote.length)).map fun k =>
        (body.take n, 3 + indent + quote.length + n + quote.length + k)
    else none

theorem heredocOpening_eq (r : Text) :
    heredocOpening? ('<' :: '<' :: '<' :: r) =
      heredocLabel? (r.takeWhile isTabOrSpace).length
        (heredocQuote (r.drop (r.takeWhile isTabOrSpace).length))
        (r.drop ((r.takeWhile isTabOrSpace).length
          + (heredocQuote (r.drop (r.takeWhile isTabOrSpace).length)).length)) :=
  rfl

theorem heredocOpening_eq_none {t : Text} (h : ∀ r, t ≠ '<' :: '<' :: '<' :: r) :
    heredocOpening? t = none := by
  rw [heredocOpening?]
  exact h

theorem heredocQuote_length_le (t : Text) : (heredocQuote t).length ≤ t.length := by
  refine Nat.le_trans (List.length_filter_le ..) ?_
  cases t <;> simp

theorem heredocQuote_eq (t : Text) :
    heredocQuote t = [] ∨ heredocQuote t = ['"'] ∨ heredocQuote t = ['\''] := by
  cases t with
  | nil => exact .inl rfl
  | cons c r =>
      by_cases double : c = '"'
      · simp [heredocQuote, double]
      · by_cases single : c = '\'' <;> simp [heredocQuote, double, single]

theorem anonymousClassLength_eq (before t : Text) :
    anonymousClassLength? before t =
      if (startsKeyword before && beginsWith "new".toList t) = true
          ∧ 0 < blankLength (t.drop 3) then
        (wordLength? ["class".toList] (t.drop (3 + blankLength (t.drop 3)))).map
          (3 + blankLength (t.drop 3) + ·)
      else none := by
  rw [anonymousClassLength?]
  by_cases starts : (startsKeyword before && beginsWith "new".toList t) = true
  · simp only [starts, if_true, true_and]
    generalize blankLength (t.drop 3) = n
    cases n <;> simp
  · simp only [starts, Bool.false_eq_true, if_false, false_and]

theorem numberLength_cons (d : Char) (r : Text) :
    numberLength? (d :: r) =
      if d = '.' then
        if r.head?.any isDecimalDigit then some ((r.tail.takeWhile isWord).length + 2) else none
      else if isDecimalDigit d then
        let whole := (r.takeWhile isWord).length
        let fraction := fractionLength (r.drop whole)
        some (1 + whole + fraction + exponentLength (r.drop (whole + fraction)))
      else none := by
  by_cases point : d = '.'
  · subst point
    cases r <;> rfl
  · simp [numberLength?, point]

theorem startsColon_cons (c : Char) (r : Text) :
    startsColon (c :: r) = (c == ':' && r.head? != some ':') := by
  by_cases colon : c = ':'
  · subst colon
    cases r with
    | nil => rfl
    | cons d r => by_cases again : d = ':' <;> simp [startsColon, again]
  · simp [startsColon, colon]

/-- The characters that operators are made of. -/
def operatorSigns : Text := "?/-+*%=<>!&|^~.:@".toList

def isSign (c : Char) : Bool :=
  operatorSigns.contains c

/-- What holds of each of the signs is checked one by one. -/
theorem of_isSign {p : Char → Prop} [DecidablePred p] {c : Char} (sign : isSign c = true)
    (each : operatorSigns.all (fun d => decide (p d)) = true) : p c :=
  of_decide_eq_true (List.all_eq_true.mp each c (List.contains_iff_mem.mp sign))

theorem isSign_of_continuesOperator {c : Char} {next : Option Char}
    (goesOn : continuesOperator c next = true) : isSign c = true := by
  rw [isSign, List.contains_iff_mem]
  rw [continuesOperator] at goesOn
  split at goesOn
  · rename_i mark
    rw [beq_iff_eq.mp mark]
    decide
  · split at goesOn
    · rename_i slash
      rw [beq_iff_eq.mp slash]
      decide
    · exact List.mem_cons_of_mem _ (List.mem_cons_of_mem _ (List.contains_iff_mem.mp goesOn))

namespace Terminal

variable (before : Text) (c : Char) (r : Text)

theorem inlineHtml_cons :
    length? before (c :: r) inlineHtml =
      if c = '?' ∧ r.head? = some '>' then some (markupLength r.tail + 2) else none := by
  by_cases mark : c = '?'
  · subst mark
    cases r with
    | nil => simp [length?]
    | cons d r => by_cases closes : d = '>' <;> simp [length?, closes]
  · simp [length?, mark]

theorem inlineHtml_eq_some_iff {before t : Text} {n : Nat} :
    length? before t inlineHtml = some n ↔
      ∃ r, t = '?' :: '>' :: r ∧ markupLength r + 2 = n := by
  constructor
  · intro h
    simp only [length?] at h
    split at h
    · rename_i r
      exact ⟨r, rfl, Option.some.inj h⟩
    · cases h
  · rintro ⟨r, rfl, rfl⟩
    rfl

theorem blank_eq_some_iff {before t : Text} {n : Nat} :
    length? before t blank = some n ↔ blankLength t = n ∧ 0 < n := by
  simp only [length?, someLength, Option.ite_none_left_eq_some, Option.some.injEq]
  omega

theorem doubleQuoted_cons :
    length? before (c :: r) doubleQuoted =
      if c = '"' then (interpolatedLength? .outside r).map (· + 1) else none := by
  by_cases quote : c = '"' <;> simp [length?, quote]

theorem backtick_cons :
    length? before (c :: r) backtick =
      if c = '\x60' then (quotedLength? '\x60' r).map (· + 1) else none := by
  by_cases quote : c = '\x60' <;> simp [length?, quote]

theorem singleQuoted_cons :
    length? before (c :: r) singleQuoted =
      if c = '\'' then (quotedLength? '\'' r).map (· + 1) else none := by
  by_cases quote : c = '\'' <;> simp [length?, quote]

end Terminal

end PhpGate
