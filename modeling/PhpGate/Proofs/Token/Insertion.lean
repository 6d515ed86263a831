import PhpGate.Proofs.Token.Break
import PhpGate.Proofs.Token.Keyword
import PhpGate.Proofs.Token.Scan

/-!
A blank put in behind an operator of member access. No terminal in front of that place matches more
or less for it: what ends there ends there as before, and a quote, a comment or a heredoc that goes on
behind it takes the blank along.
-/

namespace PhpGate

open Text

/-- Texts that end in an operator of member access. -/
def EndsInMember (u : Text) : Prop :=
  "->".toList <:+ u ∨ "::".toList <:+ u

/-- A length in a text into which one more character is put behind the first `m`. -/
def widen (m n : Nat) : Nat :=
  if n ≤ m then n else n + 1

variable {u b t label : Text} {n m : Nat}

theorem widen_of_le (h : n ≤ m) : widen m n = n :=
  if_pos h

theorem widen_zero (h : 0 < n) : widen 0 n = n + 1 :=
  if_neg (Nat.not_le_of_lt h)

theorem widen_add (m n k : Nat) : widen (m + k) (n + k) = widen m n + k := by
  rw [widen, widen]
  split <;> split <;> omega

theorem map_widen_add (m k : Nat) (o : Option Nat) :
    (o.map (· + k)).map (widen (m + k)) = (o.map (widen m)).map (· + k) := by
  cases o with
  | none => rfl
  | some n => exact congrArg some (widen_add m n k)

theorem map_widen_ite {p : Prop} [Decidable p] {k : Nat} (le : k ≤ m + 1) (o : Option Nat) :
    (if p then some k else o.map (· + 1)).map (widen (m + 1))
      = if p then some k else (o.map (widen m)).map (· + 1) := by
  split
  · exact congrArg some (widen_of_le le)
  · exact map_widen_add m 1 o

theorem map_widen_zero {o : Option Nat} (pos : ∀ n, o = some n → 0 < n) :
    o.map (widen 0) = o.map (· + 1) := by
  cases o with
  | none => rfl
  | some n => exact congrArg some (widen_zero (pos n rfl))

theorem map_widen_of_le {o : Option Nat} (le : ∀ n, o = some n → n ≤ m) : o.map (widen m) = o := by
  cases o with
  | none => rfl
  | some n => exact congrArg some (widen_of_le (le n rfl))

/-- Characters that a blank behind them separates from nothing. -/
def isLoose (c : Char) : Bool :=
  c != '\\' && c != '\x7b' && c != '*' && c != '?'

theorem all_getLast_of_cons {p : Char → Bool} {c : Char} (h : (c :: u).getLast?.all p = true) :
    u.getLast?.all p = true := by
  cases last : u.getLast? with
  | none => rfl
  | some d =>
      rw [List.getLast?_cons, last] at h
      exact h

section Scanning

theorem quotedLength_insert {quote : Char} (plain : quote ≠ '\\') (space : quote ≠ ' ')
    (ends : u.getLast?.all isLoose = true) :
    quotedLength? quote (u ++ ' ' :: b) = (quotedLength? quote (u ++ b)).map (widen u.length) := by
  induction hn : u.length using Nat.strongRecOn generalizing u with
  | ind n ih =>
      subst hn
      cases u with
      | nil =>
          rw [List.nil_append, List.nil_append, quotedLength_cons plain, if_neg (by decide),
            if_neg (Ne.symm space), List.length_nil,
            map_widen_zero fun n found => (quotedLength_fits quote b n found).1]
      | cons c u =>
          by_cases escape : c = '\\'
          · subst escape
            cases u with
            | nil => cases ends
            | cons d u =>
                have later := ih u.length (by simp only [List.length_cons]; omega)
                  (all_getLast_of_cons (all_getLast_of_cons ends)) rfl
                simp only [List.cons_append, quotedLength?, later, List.length_cons]
                rw [← map_widen_add u.length 2]
          · have later := ih u.length (by simp) (all_getLast_of_cons ends) rfl
            rw [List.cons_append, List.cons_append, quotedLength_cons plain,
              quotedLength_cons plain, if_neg escape, if_neg escape, later, List.length_cons, map_widen_ite (by omega)]

theorem interpolatedLength_insert (state : Interpolation) (ends : u.getLast?.all isLoose = true) :
    interpolatedLength? state (u ++ ' ' :: b)
      = (interpolatedLength? state (u ++ b)).map (widen u.length) := by
  induction hn : u.length using Nat.strongRecOn generalizing u state with
  | ind n ih =>
      subst hn
      cases u with
      | nil =>
          have pos (n : Nat) (found : interpolatedLength? state b = some n) : 0 < n :=
            (interpolatedLength_fits state _ n found).1
          rw [List.length_nil, List.nil_append, List.nil_append, map_widen_zero pos]
          cases state with
          | inside =>
              rw [interpolatedLength_inside_cons, if_neg (by decide)]
          | outside => simp [interpolatedLength_outside_cons]
      | cons c u =>
          have later (state : Interpolation) :=
            ih u.length (by simp) state (all_getLast_of_cons ends) rfl
          cases state with
          | inside =>
              rw [List.cons_append, List.cons_append, interpolatedLength_inside_cons,
                interpolatedLength_inside_cons, later, List.length_cons, map_widen_add]
          | outside =>
              by_cases escape : c = '\\'
              · subst escape
                cases u with
                | nil => cases ends
                | cons d u =>
                    have behind := ih u.length (by simp only [List.length_cons]; omega) .outside
                      (all_getLast_of_cons (all_getLast_of_cons ends)) rfl
                    simp only [List.cons_append, interpolatedLength?, behind, List.length_cons]
                    rw [← map_widen_add u.length 2]
              · rw [List.cons_append, List.cons_append, interpolatedLength_outside_cons,
                  interpolatedLength_outside_cons, if_neg escape, if_neg escape]
                cases u with
                | nil =>
                    have brace (next : Option Char) : ¬ (c = '\x7b' ∧ next = some '$') := by
                      rintro ⟨rfl, -⟩
                      cases ends
                    rw [if_neg (brace _), if_neg (brace _), later, List.length_cons,
                      map_widen_ite (by omega)]
                | cons d u =>
                    have behind := ih u.length (by simp only [List.length_cons]; omega) .inside
                      (all_getLast_of_cons (all_getLast_of_cons ends)) rfl
                    rw [later]
                    simp only [List.cons_append, List.head?_cons, List.tail_cons, behind]
                    by_cases opens : c = '\x7b' ∧ some d = some '$'
                    · rw [if_pos opens, if_pos opens, List.length_cons, List.length_cons,
                        ← map_widen_add u.length 2]
                    · rw [if_neg opens, if_neg opens, List.length_cons (a := c),
                        map_widen_ite (by omega)]

theorem blockCommentTail_insert (ends : u.getLast?.all isLoose = true) :
    blockCommentTail? (u ++ ' ' :: b) = (blockCommentTail? (u ++ b)).map (widen u.length) := by
  induction u with
  | nil =>
      rw [List.length_nil, map_widen_zero fun n found => (blockCommentTail_fits _ n found).1,
        List.nil_append, List.nil_append, blockCommentTail_cons, if_neg (by simp)]
  | cons c u ih =>
      have later := ih (all_getLast_of_cons ends)
      have same : (c = '*' ∧ (u ++ ' ' :: b).head? = some '/')
          ↔ (c = '*' ∧ (u ++ b).head? = some '/') := by
        cases u with
        | nil =>
            have star : c ≠ '*' := by
              rintro rfl
              cases ends
            simp [star]
        | cons d u => rfl
      rw [List.cons_append, List.cons_append, blockCommentTail_cons, blockCommentTail_cons, later,
        List.length_cons]
      simp only [same]
      split
      · rename_i closes
        cases u with
        | nil =>
            obtain ⟨rfl, -⟩ := closes
            cases ends
        | cons d u => exact congrArg some (widen_of_le (by simp)).symm
      · exact (map_widen_add _ 1 _).symm

theorem lineCommentTail_insert (ends : u.getLast?.all isLoose = true)
    (goesOn : 0 < lineCommentTail b) :
    lineCommentTail (u ++ ' ' :: b) = widen u.length (lineCommentTail (u ++ b)) := by
  induction u with
  | nil =>
      rw [List.nil_append, List.nil_append, List.length_nil, widen_zero goesOn,
        lineCommentTail_cons, if_neg (by simp)]
  | cons c u ih =>
      have later := ih (all_getLast_of_cons ends)
      have same : (c = '?' ∧ (u ++ ' ' :: b).head? = some '>')
          ↔ (c = '?' ∧ (u ++ b).head? = some '>') := by
        cases u with
        | nil =>
            have mark : c ≠ '?' := by
              rintro rfl
              cases ends
            simp [mark]
        | cons d u => rfl
      rw [List.cons_append, List.cons_append, lineCommentTail_cons, lineCommentTail_cons, later,
        List.length_cons]
      simp only [same]
      split
      · exact (widen_of_le (Nat.zero_le _)).symm
      · exact (widen_add _ _ 1).symm

theorem markupLength_pos {c : Char} {r : Text} : 0 < markupLength (c :: r) := by
  rw [markupLength]
  split
  · exact (openTagLength_fits _ _ ‹_›).1
  · exact Nat.succ_pos _

end Scanning

section Lines

variable {c : Char} (ends : IsBreak c)
include ends

theorem IsBreak.markupLength_insert (rest : b ≠ []) :
    markupLength (t ++ c :: ' ' :: b) = widen (t.length + 1) (markupLength (t ++ c :: b)) := by
  induction t with
  | nil =>
      have pos : 0 < markupLength b := by
        obtain ⟨d, r, rfl⟩ := List.exists_cons_of_ne_nil rest
        exact markupLength_pos
      have none (X : Text) : openTagLength? (c :: X) = none := ends.openTagLength_append (t := [])
      have blank : openTagLength? (' ' :: b) = Option.none := by simp [openTagLength_cons]
      simp only [List.nil_append, markupLength, none, blank]
      rw [List.length_nil, widen_add, widen_zero pos]
  | cons d t ih =>
      have tag (X : Text) : openTagLength? (d :: (t ++ c :: X)) = openTagLength? (d :: t) :=
        ends.openTagLength_append (t := d :: t)
      simp only [List.cons_append, markupLength, tag]
      cases found : openTagLength? (d :: t) with
      | some n =>
          have le := (openTagLength_fits _ n found).2
          exact (widen_of_le (Nat.le_succ_of_le le)).symm
      | none =>
          dsimp only
          rw [ih, List.length_cons, widen_add]

theorem IsBreak.heredocBody_insert (lineStart : Bool) (line : c ≠ '\n') (plain : c ∉ label)
    (start : label.head?.any isIdentifierStart = true) :
    heredocBody? label lineStart (t ++ c :: ' ' :: b)
      = (heredocBody? label lineStart (t ++ c :: b)).map (widen (t.length + 1)) := by
  induction t generalizing lineStart with
  | nil =>
      have closing (X : Text) : heredocClosing? label (c :: X) = none := by
        rw [← List.nil_append (c :: X), ends.heredocClosing_append plain]
        cases label with
        | nil => cases start
        | cons d label => rfl
      have feed : (c == '\n') = false := beq_eq_false_iff_ne.mpr line
      have pos (n : Nat) (found : heredocBody? label false b = some n) : 0 < n := by
        cases b with
        | nil => cases found
        | cons d r =>
            obtain ⟨m, -, rfl⟩ := Option.map_eq_some_iff.mp found
            exact Nat.succ_pos m
      simp only [List.nil_append, heredocBody?, closing, ite_self, feed]
      rw [List.length_nil, map_widen_add, map_widen_zero pos]
      rfl
  | cons d t ih =>
      have closing (X : Text) : heredocClosing? label (d :: (t ++ c :: X))
          = heredocClosing? label (d :: t) := ends.heredocClosing_append (t := d :: t) plain
      simp only [List.cons_append, heredocBody?, closing, ih]
      cases found : if lineStart then heredocClosing? label (d :: t) else none with
      | some n =>
          have le : n ≤ (d :: t).length := by
            split at found
            · exact heredocClosing_le found
            · cases found
          exact congrArg some (widen_of_le (Nat.le_succ_of_le le)).symm
      | none => exact (map_widen_add _ 1 _).symm

end Lines

section Local

variable {c : Char} {X before : Text}

theorem length_le_of_wordLength {words : List Text}
    (letters : ∀ w ∈ words, w.all Char.isLower = true)
    (plain : (foldCase c).isLower = false) (h : wordLength? words (t ++ c :: X) = some n) :
    n ≤ t.length := by
  have listed := wordLength_text h
  have lower := letters _ listed
  obtain lt | le := Nat.lt_or_ge t.length n
  · obtain ⟨k, rfl⟩ := Nat.exists_eq_add_of_lt lt
    rw [Nat.add_assoc, List.take_length_add_append, List.take_succ_cons, List.map_append,
      List.all_append, List.map_cons, List.all_cons, plain] at lower
    simp at lower
  · exact le

theorem startsColon_append {d : Char} :
    startsColon (t ++ c :: d :: X) = startsColon (t ++ [c, d]) := by
  match t with
  | [] | [e] | e :: f :: t => simp [startsColon_cons]

theorem operatorRun_append {d : Char} (goesOn : ∀ next, continuesOperator d next = true)
    (stops : operatorRun X = 0) : operatorRun (t ++ d :: X) = operatorRun (t ++ [d]) := by
  induction t with
  | nil => simp [operatorRun, goesOn, stops]
  | cons e t ih =>
      have next : (t ++ d :: X).head? = (t ++ [d]).head? := by cases t <;> rfl
      simp only [List.cons_append, operatorRun, ih, next]

end Local

/-- Terminals that may match up to the end of a text or fail there. -/
def Terminal.runsOn : Terminal → Bool
  | inlineHtml | heredoc | lineComment | blockComment | doubleQuoted | backtick
  | singleQuoted => true
  | _ => false

namespace EndsInMember

variable {X : Text} (h : EndsInMember u)
include h

theorem exists_signs :
    ∃ v c d, u = v ++ [c, d] ∧ (c = '-' ∧ d = '>' ∨ c = ':' ∧ d = ':') := by
  obtain ⟨v, rfl⟩ | ⟨v, rfl⟩ := h
  · exact ⟨v, '-', '>', rfl, .inl ⟨rfl, rfl⟩⟩
  · exact ⟨v, ':', ':', rfl, .inr ⟨rfl, rfl⟩⟩

theorem exists_break : ∃ v d, u = v ++ [d] ∧ IsBreak d ∧ d ≠ '\n' := by
  obtain ⟨v, c, d, rfl, ⟨rfl, rfl⟩ | ⟨rfl, rfl⟩⟩ := h.exists_signs
  · exact ⟨v ++ ['-'], '>', by simp, .inr (.inl rfl), by decide⟩
  · exact ⟨v ++ [':'], ':', by simp, .inr (.inr rfl), by decide⟩

/-- What no character behind a break decides is not decided behind the operator. -/
theorem eq_of_break {α : Type} {f : Text → α}
    (decided : ∀ c t X, IsBreak c → c ≠ '\n' → f (t ++ c :: X) = f t) (X : Text) :
    f (u ++ X) = f u := by
  obtain ⟨v, d, rfl, ends, line⟩ := h.exists_break
  rw [List.append_assoc, List.singleton_append, decided d v X ends line, decided d v [] ends line]

theorem fixedLength_append {word : Text}
    (plain : word.all (fun d => d != '\n' && d != '>' && d != ':') = true) :
    fixedLength? word (u ++ X) = fixedLength? word u :=
  h.eq_of_break (fun _ _ _ ends _ => fixedLength_append_break (ends.not_mem plain)) X

theorem classKeywordLength_append (before : Text) :
    classKeywordLength? before (u ++ X) = classKeywordLength? before u := by
  have word : wordLength? classKeywords (u ++ X) = wordLength? classKeywords u :=
    h.eq_of_break (fun _ _ _ ends _ => ends.wordLength_append (by decide)) X
  obtain ⟨v, c, d, rfl, signs⟩ := h.exists_signs
  have plain : (foldCase c).isLower = false ∧ isBlank c = false := by
    obtain ⟨rfl, rfl⟩ | ⟨rfl, rfl⟩ := signs <;> decide
  simp only [classKeywordLength?, word]
  cases found : wordLength? classKeywords (v ++ [c, d]) with
  | none => rfl
  | some n =>
      have le : n ≤ v.length := length_le_of_wordLength (by decide) plain.1 found
      have trimmed (X : Text) :
          trimStart ((v ++ c :: X).drop n) = trimStart (v.drop n) ++ c :: X := by
        rw [List.drop_append_of_le_length le, trimStart, dropWhile_append_break plain.2, trimStart]
      simp only [Option.filter_some, List.append_assoc, List.cons_append, List.nil_append, trimmed]
      rw [startsColon_append]

theorem exists_cons_cons : ∃ c d v, u = c :: d :: v := by
  obtain ⟨v, c, d, rfl, -⟩ := h.exists_signs
  match v with
  | [] => exact ⟨c, d, [], rfl⟩
  | [e] => exact ⟨e, c, [d], rfl⟩
  | e :: f :: v => exact ⟨e, f, v ++ [c, d], rfl⟩

theorem operatorRun_append (stops : operatorRun X = 0) : operatorRun (u ++ X) = operatorRun u := by
  obtain ⟨v, c, d, rfl, signs⟩ := h.exists_signs
  have goesOn (next : Option Char) : continuesOperator d next = true := by
    obtain ⟨-, rfl⟩ | ⟨-, rfl⟩ := signs <;> rfl
  have whole := PhpGate.operatorRun_append (t := v ++ [c]) goesOn stops
  simpa using whole

theorem length_append (before : Text) {k : Terminal} (runs : k.runsOn = false)
    (stops : operatorRun X = 0) : k.length? before (u ++ X) = k.length? before u := by
  cases k with
  | inlineHtml | heredoc | lineComment | blockComment | doubleQuoted | backtick | singleQuoted =>
      cases runs
  | openTag => exact h.eq_of_break (fun _ _ _ ends _ => ends.openTagLength_append) X
  | anonymousClass =>
      exact h.eq_of_break (fun _ _ _ ends line => ends.anonymousClassLength_append before line) X
  | keywordOperator =>
      exact h.eq_of_break (fun _ _ _ ends _ => ends.keywordOperatorLength_append before) X
  | classKeyword => exact h.classKeywordLength_append before
  | matchKeyword =>
      exact h.eq_of_break (fun _ _ _ ends line => ends.matchKeywordLength_append before line) X
  | name => exact h.eq_of_break (fun _ _ _ ends _ => ends.nameLength_append) X
  | number => exact h.eq_of_break (fun _ _ _ ends _ => ends.numberLength_append) X
  | variableName => exact h.eq_of_break (fun _ _ _ ends _ => ends.variableLength_append) X
  | increment =>
      obtain ⟨c, d, v, rfl⟩ := h.exists_cons_cons
      simp [Terminal.length?, List.isPrefixOf]
  | colon =>
      obtain ⟨c, d, v, rfl⟩ := h.exists_cons_cons
      simp [Terminal.length?, startsColon_cons]
  | operator => simp only [Terminal.length?, h.operatorRun_append stops]
  | expressionBrace =>
      simp only [Terminal.length?]
      rw [h.fixedLength_append rfl]
  | blank =>
      have same : blankLength (u ++ X) = blankLength u :=
        h.eq_of_break (fun _ _ _ ends line => ends.blankLength_append line) X
      simp only [Terminal.length?, same]
  | ellipsis | attributeBracket | comma | openBrace | openParen | openBracket | closeBrace
  | closeParen | closeBracket | semicolon => exact h.fixedLength_append rfl

theorem isLoose_getLast : u.getLast?.all isLoose = true := by
  obtain ⟨v, c, d, rfl, ⟨rfl, rfl⟩ | ⟨rfl, rfl⟩⟩ := h.exists_signs <;> simp [isLoose]

theorem of_cons {c : Char} (split : u = c :: t) (other : c ≠ '-' ∧ c ≠ ':') : EndsInMember t := by
  obtain ⟨v, e, d, rfl, signs⟩ := h.exists_signs
  cases v with
  | nil =>
      obtain ⟨rfl, -⟩ := List.cons.inj split
      obtain ⟨rfl, -⟩ | ⟨rfl, -⟩ := signs <;> simp at other
  | cons f v =>
      obtain ⟨-, rfl⟩ := List.cons.inj split
      obtain ⟨rfl, rfl⟩ | ⟨rfl, rfl⟩ := signs
      · exact .inl (List.suffix_append _ _)
      · exact .inr (List.suffix_append _ _)

theorem markupLength_insert (rest : b ≠ []) :
    markupLength (u ++ ' ' :: b) = widen u.length (markupLength (u ++ b)) := by
  obtain ⟨v, d, rfl, ends, -⟩ := h.exists_break
  simpa using ends.markupLength_insert (t := v) rest

theorem heredocLength_insert :
    heredocLength? (u ++ ' ' :: b) = (heredocLength? (u ++ b)).map (widen u.length) := by
  have opening (X : Text) : heredocOpening? (u ++ X) = heredocOpening? u := by
    apply h.eq_of_break
    intro c t X ends line
    exact ends.heredocOpening_append.resolve_right fun other => line other.1
  rw [heredocLength?, heredocLength?, opening, opening]
  obtain ⟨v, d, rfl, ends, line⟩ := h.exists_break
  cases found : heredocOpening? (v ++ [d]) with
  | none => rfl
  | some parts =>
      obtain ⟨label, n⟩ := parts
      obtain ⟨start, plain⟩ := heredocOpening_start found
      rw [ends.heredocOpening_append.resolve_right fun other => line other.1] at found
      have le : n ≤ v.length := (heredocOpening_le found).2
      have body := ends.heredocBody_insert (t := v.drop n) (b := b) true line
        (plain d ends) start
      have length : (v ++ [d]).length = (v.drop n).length + 1 + n := by
        simp only [List.length_append, List.length_drop, List.length_singleton]
        omega
      simp only [Option.bind_some, List.append_assoc, List.singleton_append,
        List.drop_append_of_le_length le, body, length, Nat.add_comm n]
      rw [map_widen_add]

end EndsInMember

section Name

/-- A name begins with a character that no operator, comment or white space goes on with. -/
theorem exists_of_nameLength (named : (nameLength? b).isSome = true) :
    ∃ e r, b = e :: r ∧ (e = '\\' ∨ isIdentifierStart e = true) := by
  cases b with
  | nil => cases named
  | cons e r =>
      refine ⟨e, r, rfl, ?_⟩
      rw [nameLength_cons] at named
      split at named
      · exact .inl ‹_›
      · split at named
        · exact .inr ‹_›
        · cases named

theorem operatorRun_of_nameLength (named : (nameLength? b).isSome = true) : operatorRun b = 0 := by
  obtain ⟨e, r, rfl, letter⟩ := exists_of_nameLength named
  rw [operatorRun, if_neg]
  intro goesOn
  obtain rfl | start := letter
  · cases goesOn
  · rw [of_isSign (p := fun d => isIdentifierStart d = false) (isSign_of_continuesOperator goesOn)
      (by decide)] at start
    cases start

theorem lineCommentTail_of_nameLength (named : (nameLength? b).isSome = true) :
    0 < lineCommentTail b := by
  obtain ⟨e, r, rfl, letter⟩ := exists_of_nameLength named
  rw [lineCommentTail_cons, if_neg]
  · exact Nat.succ_pos _
  · rintro (⟨rfl, -⟩ | rfl | rfl) <;> simp at letter <;> cases letter

end Name

section Opening

variable (c d : Char) (r before : Text)

theorem lineCommentLength_cons_cons :
    lineCommentLength? (c :: d :: r) =
      if c = '/' ∧ d = '/' then some (lineCommentTail r + 2)
      else if c = '#' ∧ d ≠ '[' then some (lineCommentTail (d :: r) + 1) else none := by
  simpa using lineCommentLength_cons c (d :: r)

theorem blockCommentLength_cons_cons :
    blockCommentLength? (c :: d :: r) =
      if c = '/' ∧ d = '*' then (blockCommentTail? r).map (· + 2) else none := by
  simpa using blockCommentLength_cons c (d :: r)

theorem inlineHtml_cons_cons :
    Terminal.length? before (c :: d :: r) .inlineHtml =
      if c = '?' ∧ d = '>' then some (markupLength r + 2) else none := by
  simpa using Terminal.inlineHtml_cons before c (d :: r)

end Opening

theorem map_widen_opened {p : Prop} [Decidable p] {o o' : Option Nat} (k : Nat)
    (h : p → o' = o.map (widen m)) :
    (if p then o'.map (· + k) else none)
      = (if p then o.map (· + k) else none).map (widen (m + k)) := by
  split
  · rw [h ‹_›, map_widen_add]
  · rfl

/-- No terminal notices a blank that is put in between an operator of member access and a name. -/
theorem EndsInMember.length_insert (h : EndsInMember u) (before : Text)
    (named : (nameLength? b).isSome = true) (k : Terminal) :
    k.length? before (u ++ ' ' :: b) = (k.length? before (u ++ b)).map (widen u.length) := by
  cases runs : k.runsOn with
  | false =>
      have stops := operatorRun_of_nameLength named
      rw [h.length_append before runs rfl, h.length_append before runs stops, map_widen_of_le]
      intro n found
      exact (Terminal.length_fits before u k n found).2
  | true =>
      have loose := h.isLoose_getLast
      obtain ⟨c, d, v, rfl⟩ := h.exists_cons_cons
      have loose' := all_getLast_of_cons loose
      have loose'' := all_getLast_of_cons loose'
      cases k with
      | inlineHtml =>
          simp only [List.cons_append, inlineHtml_cons_cons]
          split
          · -- The operator lies behind the closing tag, so the text there ends in it as well.
            rename_i closes
            obtain ⟨rfl, rfl⟩ := closes
            obtain ⟨e, r, rfl, -⟩ := exists_of_nameLength named
            have inner := (h.of_cons rfl (by decide)).of_cons rfl (by decide)
            rw [inner.markupLength_insert (by simp)]
            exact congrArg some (widen_add _ _ 2).symm
          · rfl
      | heredoc => exact h.heredocLength_insert
      | lineComment =>
          have goesOn := lineCommentTail_of_nameLength named
          have whole := lineCommentTail_insert loose' goesOn
          simp only [List.cons_append] at whole
          simp only [Terminal.length?, List.cons_append, lineCommentLength_cons_cons,
            lineCommentTail_insert loose'' goesOn, whole]
          split
          · exact congrArg some (widen_add _ _ 2).symm
          · split
            · exact congrArg some (widen_add _ _ 1).symm
            · rfl
      | blockComment =>
          simp only [Terminal.length?, List.cons_append, blockCommentLength_cons_cons]
          exact map_widen_opened 2 fun _ => blockCommentTail_insert loose''
      | doubleQuoted =>
          simp only [List.cons_append (a := c), Terminal.doubleQuoted_cons]
          exact map_widen_opened 1 fun _ => interpolatedLength_insert .outside loose'
      | backtick =>
          simp only [List.cons_append (a := c), Terminal.backtick_cons]
          exact map_widen_opened 1 fun _ => quotedLength_insert (by decide) (by decide) loose'
      | singleQuoted =>
          simp only [List.cons_append (a := c), Terminal.singleQuoted_cons]
          exact map_widen_opened 1 fun _ => quotedLength_insert (by decide) (by decide) loose'
      | _ => cases runs

theorem EndsInMember.first_insert {before w v : Text} {k : Terminal} (h : EndsInMember (w ++ v))
    (named : (nameLength? b).isSome = true)
    (first : Terminal.first? before (w ++ (v ++ b)) = some (k, w.length)) :
    Terminal.first? before (w ++ (v ++ ' ' :: b)) = some (k, w.length) := by
  have widened : Terminal.first? before (w ++ v ++ ' ' :: b)
      = (Terminal.first? before (w ++ v ++ b)).map fun (k, n) => (k, widen (w ++ v).length n) := by
    rw [Terminal.first?, Terminal.first?, List.map_findSome?]
    congr 1
    funext k
    rw [h.length_insert before named k, Function.comp_apply, Option.map_map, Option.map_map]
    rfl
  have le : w.length ≤ (w ++ v).length := by simp
  rw [List.append_assoc, List.append_assoc, first] at widened
  rw [widened]
  exact congrArg (fun n => some (k, n)) (widen_of_le le)

theorem EndsInMember.append (h : EndsInMember u) (v : Text) : EndsInMember (v ++ u) :=
  h.imp (List.suffix_append_of_suffix ·) (List.suffix_append_of_suffix ·)

/-- What is taken up to an operator of member access is taken with a blank behind it as well. -/
theorem Takes.insert {before : Text} {ls : List Lexeme} {op : Lexeme}
    (member : EndsInMember op.text) (named : (nameLength? b).isSome = true) (h : Takes before (ls ++ [op]) b) :
    Takes before (ls ++ [op]) (' ' :: b) := by
  induction ls generalizing before with
  | nil =>
      have ends : EndsInMember (op.text ++ []) := by rwa [List.append_nil]
      exact ⟨ends.first_insert named h.1, trivial⟩
  | cons l ls ih =>
      have ends : EndsInMember (l.text ++ (ls ++ [op]).flatMap Lexeme.text) := by
        rw [List.flatMap_append, List.flatMap_singleton]
        exact (member.append _).append _
      exact ⟨ends.first_insert named h.1, ih h.2⟩

end PhpGate
