import PhpGate.Proofs.Text.Pieces
import PhpGate.Proofs.Token.Break
import PhpGate.Proofs.Token.Scan

/-!
Text behind a line feed that the terminals in front of it do not notice. Such a text closes no
quote, comment or heredoc, and its first character decides no look-ahead; then only markup and white
space, which run up to the end of a text, can match differently once it is appended.
-/

namespace PhpGate

open Text

/-- A text that completes nothing in front of the line feed it follows. -/
structure Inert (X : Text) : Prop where
  unquoted : ∀ c ∈ X, c ≠ '"' ∧ c ≠ '\'' ∧ c ≠ '\x60' ∧ c ≠ '*'
  head : ∃ c r, X = c :: r ∧ (c = '<' ∨ c = '\x7d')
  label : ∀ label : Text, label.head?.any isIdentifierStart = true →
    heredocBody? label true X = none

variable {X t : Text}

section Quoted

variable {quote : Char}

theorem quotedLength_eq_none (h : quote ∉ t) : quotedLength? quote t = none := by
  fun_induction quotedLength? quote t <;> simp_all

theorem quotedLength_append_line (h : quote ∉ X) (escape : quote ≠ '\\') (line : quote ≠ '\n') :
    quotedLength? quote (t ++ '\n' :: X) = quotedLength? quote t := by
  have rest : quotedLength? quote X = none := quotedLength_eq_none h
  induction hn : t.length using Nat.strongRecOn generalizing t with
  | ind n ih =>
      match t with
      | [] => simp [quotedLength_cons escape, line.symm, rest, quotedLength?]
      | [c] => simp [quotedLength_cons escape, rest, quotedLength?, line.symm]
      | c :: d :: r =>
          have later := ih r.length (by simp at hn; omega) rfl
          have next := ih (d :: r).length (by simp at hn ⊢; omega) rfl
          rw [List.cons_append, quotedLength_cons escape, quotedLength_cons escape, next]
          simp [later]

end Quoted

theorem interpolatedLength_eq_none (state : Interpolation) (h : '"' ∉ t) :
    interpolatedLength? state t = none := by
  fun_induction interpolatedLength? state t <;> simp_all

theorem interpolatedLength_append_line (state : Interpolation) (h : '"' ∉ X) :
    interpolatedLength? state (t ++ '\n' :: X) = interpolatedLength? state t := by
  have rest (state : Interpolation) : interpolatedLength? state X = none :=
    interpolatedLength_eq_none state h
  induction hn : t.length using Nat.strongRecOn generalizing t state with
  | ind n ih =>
      match t, state with
      | [], .inside => simp [interpolatedLength_inside_cons, rest, interpolatedLength?]
      | [], .outside => simp [interpolatedLength_outside_cons, rest, interpolatedLength?]
      | c :: r, .inside =>
          rw [List.cons_append, interpolatedLength_inside_cons, interpolatedLength_inside_cons,
            ih r.length (by simp at hn; omega) _ rfl]
      | [c], .outside => simp [interpolatedLength_outside_cons, rest, interpolatedLength?]
      | c :: d :: r, .outside =>
          have later (state : Interpolation) := ih r.length (by simp at hn; omega) state rfl
          have next := ih (d :: r).length (by simp at hn ⊢; omega) .outside rfl
          rw [List.cons_append, interpolatedLength_outside_cons, interpolatedLength_outside_cons,
            next]
          simp [later]

theorem lineCommentTail_append_line :
    lineCommentTail (t ++ '\n' :: X) = lineCommentTail t := by
  induction t with
  | nil => simp [lineCommentTail_cons, lineCommentTail]
  | cons c t ih =>
      simp only [List.cons_append, lineCommentTail_cons, ih,
        head_append_break (show '>' ≠ '\n' by decide)]

theorem lineCommentLength_append_line :
    lineCommentLength? (t ++ '\n' :: X) = lineCommentLength? t := by
  match t with
  | [] => rfl
  | [c] => simp [lineCommentLength_cons, lineCommentTail_cons, lineCommentTail]
  | c :: d :: r =>
      have whole := lineCommentTail_append_line (t := d :: r) (X := X)
      rw [List.cons_append] at whole
      simp only [List.cons_append, lineCommentLength_cons, List.head?_cons, List.tail_cons, whole,
        lineCommentTail_append_line]
      rfl

theorem blockCommentTail_eq_none (h : '*' ∉ t) : blockCommentTail? t = none := by
  fun_induction blockCommentTail? t <;> simp_all

theorem blockCommentTail_append_line (h : '*' ∉ X) :
    blockCommentTail? (t ++ '\n' :: X) = blockCommentTail? t := by
  induction t with
  | nil => simp [blockCommentTail_cons, blockCommentTail_eq_none h, blockCommentTail?]
  | cons c t ih =>
      simp only [List.cons_append, blockCommentTail_cons, ih,
        head_append_break (show '/' ≠ '\n' by decide)]

theorem blockCommentLength_append_line (h : '*' ∉ X) :
    blockCommentLength? (t ++ '\n' :: X) = blockCommentLength? t := by
  match t with
  | [] => rfl
  | [c] => simp [blockCommentLength_cons]
  | c :: d :: r =>
      simp only [List.cons_append, blockCommentLength_cons, List.head?_cons, List.tail_cons,
        blockCommentTail_append_line h]
      rfl

section WhiteSpace

theorem takeWhile_eq_self_of_all {p : Char → Bool} (h : t.all p = true) : t.takeWhile p = t := by
  induction t with
  | nil => rfl
  | cons c t ih =>
      simp only [List.all_cons, Bool.and_eq_true] at h
      simp [h.1, ih h.2]

theorem blankLength_append_line (h : X.head?.any isBlank = false) :
    blankLength (t ++ '\n' :: X) = if t.all isBlank then t.length + 1 else blankLength t := by
  induction t with
  | nil =>
      have line : isBlank '\n' = true := by decide
      cases X with
      | nil => simp [blankLength, line]
      | cons c r =>
          have : isBlank c = false := h
          simp [blankLength, line, this]
  | cons c t ih =>
      cases hc : isBlank c with
      | false => simp [blankLength, hc]
      | true =>
          simp only [blankLength] at ih
          cases all : t.all isBlank <;> simp [blankLength, hc, ih, all]

theorem trimStart_append_line (h : X.head?.any isBlank = false) :
    trimStart (t ++ '\n' :: X) =
      if t.all isBlank then X else trimStart t ++ '\n' :: X := by
  induction t with
  | nil =>
      have line : isBlank '\n' = true := by decide
      cases X with
      | nil => simp [trimStart, line]
      | cons c r =>
          have : isBlank c = false := h
          simp [trimStart, line, this]
  | cons c t ih =>
      cases hc : isBlank c with
      | false => simp [trimStart, hc]
      | true =>
          simp only [trimStart] at ih
          cases all : t.all isBlank <;> simp [trimStart, hc, ih, all]

theorem trimStart_head_append_line {c : Char} (h : X.head?.any isBlank = false)
    (hX : X.head? ≠ some c) (line : c ≠ '\n') :
    (trimStart (t ++ '\n' :: X)).head? = some c ↔ (trimStart t).head? = some c := by
  rw [trimStart_append_line h]
  cases all : t.all isBlank with
  | true =>
      have none : trimStart t = [] := dropWhile_eq_nil_of_all all
      simpa [none] using hX
  | false => exact head_append_break line

theorem startsColon_append_line : startsColon (t ++ '\n' :: X) = startsColon t := by
  match t with
  | [] => rfl
  | [c] =>
      have line : (some '\n' != some ':') = true := by decide
      simp [startsColon_cons, line]
  | c :: d :: r => simp [startsColon_cons]

theorem startsColon_trimStart_append_line (h : X.head?.any isBlank = false)
    (hX : X.head? ≠ some ':') :
    startsColon (trimStart (t ++ '\n' :: X)) = startsColon (trimStart t) := by
  rw [trimStart_append_line h]
  cases all : t.all isBlank with
  | true =>
      have none : trimStart t = [] := dropWhile_eq_nil_of_all all
      rw [none]
      cases X with
      | nil => rfl
      | cons c r =>
          have : c ≠ ':' := fun e => hX (by rw [e]; rfl)
          simp [startsColon, this]
  | false => exact startsColon_append_line

end WhiteSpace

theorem continuesOperator_append_line {c : Char} :
    continuesOperator c (t ++ '\n' :: X).head? = continuesOperator c t.head? := by
  cases t with
  | nil =>
      rw [continuesOperator, continuesOperator]
      cases c == '?' with
      | true => rfl
      | false => cases c == '/' <;> rfl
  | cons d t => rfl

theorem operatorRun_append_line : operatorRun (t ++ '\n' :: X) = operatorRun t := by
  induction t with
  | nil => simp [operatorRun, continuesOperator]
  | cons c t ih => simp only [List.cons_append, operatorRun, continuesOperator_append_line, ih]

section Heredoc

theorem heredocBody_append_line {label : Text} {lineStart : Bool}
    (start : label.head?.any isIdentifierStart = true) (line : '\n' ∉ label)
    (none : heredocBody? label true X = none) :
    heredocBody? label lineStart (t ++ '\n' :: X) = heredocBody? label lineStart t := by
  induction t generalizing lineStart with
  | nil =>
      have closing : heredocClosing? label ('\n' :: X) = heredocClosing? label [] :=
        isBreak_line.heredocClosing_append (t := []) line
      have empty : heredocClosing? label [] = Option.none := by
        cases label with
        | nil => cases start
        | cons c r => rfl
      cases lineStart <;> simp [heredocBody?, closing, empty, none]
  | cons c t ih =>
      have closing : heredocClosing? label (c :: (t ++ '\n' :: X))
          = heredocClosing? label (c :: t) := isBreak_line.heredocClosing_append (t := c :: t) line
      simp only [List.cons_append, heredocBody?, closing, ih]

end Heredoc

namespace Inert

theorem head_any (h : Inert X) {p : Char → Bool} (less : p '<' = false)
    (brace : p '\x7d' = false) : X.head?.any p = false := by
  obtain ⟨c, r, rfl, rfl | rfl⟩ := h.head
  · exact less
  · exact brace

theorem head_ne (h : Inert X) {c : Char} (less : c ≠ '<') (brace : c ≠ '\x7d') :
    X.head? ≠ some c := by
  obtain ⟨d, r, rfl, rfl | rfl⟩ := h.head
  · simpa using less.symm
  · simpa using brace.symm

theorem head_blank (h : Inert X) : X.head?.any isBlank = false :=
  h.head_any (by decide) (by decide)

theorem anonymousClass (h : Inert X) (before : Text) :
    anonymousClassLength? before (t ++ '\n' :: X) = anonymousClassLength? before t := by
  have begins : beginsWith "new".toList (t ++ '\n' :: X) = beginsWith "new".toList t :=
    isBreak_line.beginsWith_append rfl
  simp only [anonymousClassLength_eq, begins]
  cases stands : beginsWith "new".toList t with
  | false => simp
  | true =>
      have long : 3 ≤ t.length := length_le_of_beginsWith stands
      rw [List.drop_append_of_le_length long, blankLength_append_line h.head_blank]
      cases all : (t.drop 3).all isBlank with
      | true =>
          -- Nothing but white space follows `new`, and what comes after it is no class either.
          have run : blankLength (t.drop 3) = (t.drop 3).length := by
            rw [blankLength, takeWhile_eq_self_of_all all]
          have ends : t.drop (3 + (t.drop 3).length) = [] :=
            List.drop_eq_nil_of_le (by simp only [List.length_drop]; omega)
          have skip : (t ++ '\n' :: X).drop (3 + ((t.drop 3).length + 1)) = X := by
            rw [show t ++ '\n' :: X = (t ++ ['\n']) ++ X by simp]
            refine List.drop_left' ?_
            simp only [List.length_append, List.length_drop, List.length_cons, List.length_nil]
            omega
          have none : wordLength? ["class".toList] X = none := by
            obtain ⟨c, r, rfl, rfl | rfl⟩ := h.head <;> rfl
          rw [run, ends]
          simp only [if_true, skip, none]
          simp [wordLength?, beginsWith]
      | false =>
          have le : 3 + blankLength (t.drop 3) ≤ t.length := by
            have := length_takeWhile_le isBlank (t.drop 3)
            simp only [blankLength, List.length_drop] at *
            omega
          simp only [Bool.false_eq_true, if_false]
          rw [List.drop_append_of_le_length le, isBreak_line.wordLength_append (by decide)]

theorem heredoc (h : Inert X) : heredocLength? (t ++ '\n' :: X) = heredocLength? t := by
  simp only [heredocLength?]
  obtain same | ⟨-, none, label, ends⟩ := isBreak_line.heredocOpening_append (t := t) (X := X)
  · rw [same]
    cases opening : heredocOpening? t with
    | none => rfl
    | some found =>
        obtain ⟨label, n⟩ := found
        obtain ⟨start, line⟩ := heredocOpening_start opening
        have le := (heredocOpening_le opening).2
        simp only [Option.bind_some, List.drop_append_of_le_length le]
        rw [heredocBody_append_line start (line _ isBreak_line) (h.label label start)]
  · -- The opening line ends with the line feed, so the body would be found in the appended text.
    have start := (heredocOpening_start ends).1
    have skip : (t ++ '\n' :: X).drop (t.length + 1) = X := by
      rw [show t ++ '\n' :: X = (t ++ ['\n']) ++ X by simp]
      exact List.drop_left' (by simp)
    simp only [none, ends, Option.bind_some, Option.bind_none, skip, h.label label start,
      Option.map_none]

theorem matchKeyword (h : Inert X) (before : Text) :
    matchKeywordLength? before (t ++ '\n' :: X) = matchKeywordLength? before t := by
  have begins : beginsWith "match".toList (t ++ '\n' :: X) = beginsWith "match".toList t :=
    isBreak_line.beginsWith_append rfl
  rw [matchKeywordLength?, matchKeywordLength?, begins]
  cases stands : beginsWith "match".toList t with
  | false => simp only [Bool.and_false, Bool.false_and]
  | true =>
      have opens := trimStart_head_append_line (t := t.drop 5) (X := X) (c := '(')
        h.head_blank (h.head_ne (by decide) (by decide)) (by decide)
      have long : 5 ≤ t.length := length_le_of_beginsWith stands
      have same : ((trimStart ((t ++ '\n' :: X).drop 5)).head? == some '(')
          = ((trimStart (t.drop 5)).head? == some '(') := by
        rw [List.drop_append_of_le_length long, Bool.eq_iff_iff, beq_iff_eq, beq_iff_eq, opens]
      rw [same]

theorem classKeyword (h : Inert X) (before : Text) :
    classKeywordLength? before (t ++ '\n' :: X) = classKeywordLength? before t := by
  have word : wordLength? classKeywords (t ++ '\n' :: X) = wordLength? classKeywords t :=
    isBreak_line.wordLength_append (by decide)
  simp only [classKeywordLength?, word]
  cases found : wordLength? classKeywords t with
  | none => simp
  | some n =>
      have le := (wordLength_fits (by decide) t n found).2
      simp only [Option.filter_some, List.drop_append_of_le_length le]
      rw [startsColon_trimStart_append_line h.head_blank (h.head_ne (by decide) (by decide))]

theorem length_append_line (h : Inert X) (before : Text) {k : Terminal}
    (markup : k ≠ .inlineHtml) (space : k ≠ .blank) :
    k.length? before (t ++ '\n' :: X) = k.length? before t := by
  cases k with
  | inlineHtml => contradiction
  | blank => contradiction
  | openTag => exact isBreak_line.openTagLength_append
  | heredoc => exact h.heredoc
  | anonymousClass => exact h.anonymousClass before
  | lineComment => exact lineCommentLength_append_line
  | blockComment => exact blockCommentLength_append_line fun mem => (h.unquoted _ mem).2.2.2 rfl
  | doubleQuoted =>
      cases t with
      | nil => rfl
      | cons c t =>
          have same := interpolatedLength_append_line (t := t) .outside
            fun mem : '"' ∈ X => (h.unquoted _ mem).1 rfl
          simp only [List.cons_append, Terminal.doubleQuoted_cons, same]
  | backtick =>
      cases t with
      | nil => rfl
      | cons c t =>
          have same := quotedLength_append_line (t := t)
            (fun mem : '\x60' ∈ X => (h.unquoted _ mem).2.2.1 rfl) (by decide) (by decide)
          simp only [List.cons_append, Terminal.backtick_cons, same]
  | singleQuoted =>
      cases t with
      | nil => rfl
      | cons c t =>
          have same := quotedLength_append_line (t := t)
            (fun mem : '\'' ∈ X => (h.unquoted _ mem).2.1 rfl) (by decide) (by decide)
          simp only [List.cons_append, Terminal.singleQuoted_cons, same]
  | keywordOperator => exact isBreak_line.keywordOperatorLength_append before
  | classKeyword => exact h.classKeyword before
  | matchKeyword => exact h.matchKeyword before
  | name => exact isBreak_line.nameLength_append
  | number => exact isBreak_line.numberLength_append
  | variableName => exact isBreak_line.variableLength_append
  | increment =>
      simp only [Terminal.length?]
      rw [isPrefixOf_append_break (by decide), isPrefixOf_append_break (by decide)]
  | colon => simp only [Terminal.length?, startsColon_append_line]
  | operator => simp only [Terminal.length?, operatorRun_append_line]
  | expressionBrace =>
      simp only [Terminal.length?]
      rw [fixedLength_append_break (by decide)]
  | ellipsis | attributeBracket | comma | openBrace | openParen | openBracket | closeBrace
  | closeParen | closeBracket | semicolon => exact fixedLength_append_break (by decide)

theorem length_append_line_eq_none (h : Inert X) (before : Text) (nonempty : t ≠ [])
    (k : Terminal) (none : k.length? before t = none) :
    k.length? before (t ++ '\n' :: X) = Option.none := by
  obtain ⟨c, r, rfl⟩ := List.exists_cons_of_ne_nil nonempty
  by_cases markup : k = .inlineHtml
  · subst markup
    rw [Terminal.inlineHtml_cons, ite_eq_right_iff] at none
    rw [List.cons_append, Terminal.inlineHtml_cons, ite_eq_right_iff]
    rintro ⟨mark, closes⟩
    cases none ⟨mark, (head_append_break (by decide)).mp closes⟩
  · by_cases space : k = .blank
    · subst space
      cases blank : isBlank c with
      | false => simp [Terminal.length?, blankLength, blank, someLength]
      | true => simp [Terminal.length?, blankLength, blank, someLength] at none
    · rw [h.length_append_line before markup space, none]

/-- A terminal that wins in front of the text wins behind it too. -/
theorem first_append_line (h : Inert X) {before : Text} {k : Terminal} {n m : Nat}
    (first : Terminal.first? before t = some (k, n))
    (found : k.length? before (t ++ '\n' :: X) = some m) :
    Terminal.first? before (t ++ '\n' :: X) = some (k, m) := by
  have nonempty : t ≠ [] := by
    rintro rfl
    rw [Terminal.first_nil] at first
    cases first
  exact Terminal.first_of_first first found (h.length_append_line_eq_none before nonempty)

end Inert

end PhpGate
