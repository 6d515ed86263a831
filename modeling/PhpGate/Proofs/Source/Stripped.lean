import PhpGate.Proofs.Source.Rejection

/-!
Text without its comments. A quote that was open in front of a comment may be closed behind it once
the comment is gone, but only by a quote that the filter has kept, and in the rest of the text no
comment comes to light. So the filter finds strings only where it has been before, and removing
comments a second time changes nothing.
-/

namespace PhpGate

open Text Source

/-- What the filter leaves of a text. Characters and strings stay, a comment leaves its line
feeds. -/
inductive Strips : (t left : Text) → Prop
  | nil : Strips [] []
  | kept {c : Char} {r u : Text} (clear : commentOrStringPattern [] (c :: r) = none)
      (rest : Strips r u) : Strips (c :: r) (c :: u)
  | string {w r u : Text} (string : IsString w) (rest : Strips r u) : Strips (w ++ r) (w ++ u)
  | comment {w r u : Text} (found : blockCommentLength? (w ++ r) = some w.length ∨
      lineCommentLength? (w ++ r) = some w.length) (rest : Strips r u) :
      Strips (w ++ r) (keepNewlines w ++ u)

/-- A text in which the filter finds no comment. -/
inductive IsStripped : Text → Prop
  | nil : IsStripped []
  | kept {c : Char} {r : Text} (clear : commentOrStringPattern [] (c :: r) = none)
      (rest : IsStripped r) : IsStripped (c :: r)
  | string {w r : Text} (string : IsString w) (rest : IsStripped r) : IsStripped (w ++ r)

variable {before t u v w r : Text} {a b c q : Char} {n : Nat}

theorem IsString.ne_nil (h : IsString w) : w ≠ [] := by
  obtain ⟨q, v, rfl, -, -⟩ := h
  exact List.cons_ne_nil q v

theorem ne_nil_of_comment (found : blockCommentLength? (w ++ r) = some w.length ∨
    lineCommentLength? (w ++ r) = some w.length) : w ≠ [] := by
  obtain block | line := found
  · exact List.length_pos_iff.mp (blockCommentLength_fits _ _ block).1
  · exact List.length_pos_iff.mp (lineCommentLength_fits _ _ line).1

theorem commentOrString_eq_none_iff :
    commentOrStringPattern before t = none ↔
      stringLength? t = none ∧ blockCommentLength? t = none ∧ lineCommentLength? t = none := by
  rw [commentOrStringPattern]
  cases stringLength? t <;> cases blockCommentLength? t <;> simp

/-- The filter leaves something of every text. -/
theorem exists_strips (t : Text) : ∃ u, Strips t u := by
  induction hn : t.length using Nat.strongRecOn generalizing t with
  | ind n ih =>
      subst hn
      have rest (w r : Text) (nonempty : w ≠ []) (split : t = w ++ r) : ∃ u, Strips r u := by
        have positive := List.length_pos_iff.mpr nonempty
        exact ih r.length (by rw [split, List.length_append]; omega) r rfl
      cases found : commentOrStringPattern [] t with
      | none =>
          cases t with
          | nil => exact ⟨[], .nil⟩
          | cons c r =>
              obtain ⟨u, strips⟩ := rest [c] r (List.cons_ne_nil c []) rfl
              exact ⟨_, .kept found strips⟩
      | some n =>
          obtain ⟨w, r, split, -, string | comment⟩ := exists_of_commentOrString found
          · obtain ⟨u, strips⟩ := rest w r string.ne_nil split
            exact ⟨w ++ u, by simpa only [split] using Strips.string string strips⟩
          · obtain ⟨u, strips⟩ := rest w r (ne_nil_of_comment comment) split
            exact ⟨keepNewlines w ++ u, by simpa only [split] using Strips.comment comment strips⟩

theorem Strips.eq_cutAfter (h : Strips t u) (before : Text) :
    (cutAfter commentOrStringPattern before 0 t).flatMap (Piece.substitute dropComment) = u := by
  induction h generalizing before with
  | nil => rfl
  | @kept c r u clear _ ih =>
      have none : commentOrStringPattern before (c :: r) = Option.none := clear
      simp only [cutAfter, none, List.flatMap_cons, Piece.substitute, ih, List.singleton_append]
  | string string _ ih =>
      obtain ⟨found, kept⟩ := commentOrString_of_string string before _
      rw [cutAfter_hit string.ne_nil found, List.flatMap_cons, Piece.substitute, kept, ih]
  | comment comment _ ih =>
      obtain ⟨found, feeds⟩ := commentOrString_of_comment comment before
      rw [cutAfter_hit (ne_nil_of_comment comment) found, List.flatMap_cons, Piece.substitute, feeds, ih]

theorem strips_iff : Strips t u ↔ stripComments t = u := by
  have unique {u : Text} (h : Strips t u) : stripComments t = u := h.eq_cutAfter []
  constructor
  · exact unique
  · rintro rfl
    obtain ⟨u, strips⟩ := exists_strips t
    rwa [unique strips]

/-- In a text without comments both filters take the same matches. -/
theorem IsStripped.cutAfter_eq (h : IsStripped t) (before : Text) :
    cutAfter commentOrStringPattern before 0 t = cutAfter stringPattern before 0 t := by
  induction h generalizing before with
  | nil => rfl
  | @kept c r clear _ ih =>
      have none : commentOrStringPattern before (c :: r) = Option.none := clear
      have noString : stringPattern before (c :: r) = Option.none :=
        (commentOrString_eq_none_iff.mp none).1
      simp only [cutAfter, none, noString, ih]
  | @string w r string _ ih =>
      have noComment := (commentOrString_of_string string before r).1
      have found : stringPattern before (w ++ r) = some w.length := string.stringLength r
      rw [cutAfter_hit string.ne_nil noComment, cutAfter_hit string.ne_nil found, ih]

theorem IsStripped.strips (h : IsStripped t) : Strips t t := by
  induction h with
  | nil => exact .nil
  | kept clear _ ih => exact .kept clear ih
  | string string _ ih => exact .string string ih

section Quote

/-- Looks for the quote that closes a string, one character after the other; the first one may be
escaped. -/
def closing? (q : Char) : (escaped : Bool) → Text → Option Nat
  | _, [] => none
  | escaped, c :: r =>
      if escaped = false ∧ c = q then some 1
      else (closing? q (!escaped && c == '\\') r).map (· + 1)

theorem quotedLength_eq_closing (plain : q ≠ '\\') (t : Text) :
    quotedLength? q t = closing? q false t := by
  fun_induction quotedLength? q t with
  | case1 => rfl
  | case2 d r ih =>
      simp [closing?, plain.symm, ih, Function.comp_def]
  | case3 => simp [closing?]
  | case4 r next =>
      cases r with
      | nil => simp [closing?, plain.symm]
      | cons d r => exact absurd rfl (next d r rfl)
  | case5 c r _ other escape ih =>
      have next : (c == '\\') = false := beq_eq_false_iff_ne.mpr escape
      simp [closing?, other, next, ih]

/-- A stretch of text either holds the closing quote or hands on whether the next character is
escaped, whatever comes after it. -/
theorem closing_append (q : Char) (escaped : Bool) (v : Text) :
    (∃ n, ∀ x, closing? q escaped (v ++ x) = some n) ∨
      ∃ escaped', ∀ x, closing? q escaped (v ++ x) = (closing? q escaped' x).map (· + v.length) := by
  induction v generalizing escaped with
  | nil => exact .inr ⟨escaped, fun x => by simp⟩
  | cons c v ih =>
      by_cases closes : escaped = false ∧ c = q
      · exact .inl ⟨1, fun x => if_pos closes⟩
      · obtain ⟨n, found⟩ | ⟨escaped', later⟩ := ih (!escaped && c == '\\')
        · refine .inl ⟨n + 1, fun x => ?_⟩
          rw [List.cons_append, closing?, if_neg closes, found]
          rfl
        · refine .inr ⟨escaped', fun x => ?_⟩
          rw [List.cons_append, closing?, if_neg closes, later, Option.map_map]
          rfl

/-- An open quote is still open behind a stretch of the text. -/
theorem closing_behind {escaped : Bool} (unclosed : closing? q escaped (v ++ r) = none) :
    ∃ escaped', (∀ x, closing? q escaped (v ++ x) = (closing? q escaped' x).map (· + v.length)) ∧
      closing? q escaped' r = none := by
  obtain ⟨n, found⟩ | ⟨escaped', later⟩ := closing_append q escaped v
  · rw [found] at unclosed
    cases unclosed
  · rw [later, Option.map_eq_none_iff] at unclosed
    exact ⟨escaped', later, unclosed⟩

theorem closing_of_quote {escaped : Bool} (quote : c = '\'' ∨ c = '"')
    (other : ¬ (escaped = false ∧ c = q)) :
    closing? q escaped (c :: t) = (closing? q false t).map (· + 1) := by
  have plain : (c == '\\') = false := by obtain rfl | rfl := quote <;> rfl
  rw [closing?, if_neg other, plain, Bool.and_false]

/-- An open quote is closed by none of the characters of a string, escaped or not. -/
theorem closing_string {escaped : Bool} (string : IsString w)
    (unclosed : closing? q escaped (w ++ r) = none) (escaped' : Bool) :
    ∃ next, closing? q next r = none ∧
      ∀ x, closing? q escaped' (w ++ x) = (closing? q next x).map (· + w.length) := by
  obtain ⟨c, v, rfl, quote, whole⟩ := string
  have starts : ¬ (escaped = false ∧ c = q) := by
    intro closes
    rw [List.cons_append, closing?, if_pos closes] at unclosed
    cases unclosed
  rw [List.cons_append, closing_of_quote quote starts, Option.map_eq_none_iff] at unclosed
  have other : c ≠ q := by
    rintro rfl
    rw [← quotedLength_eq_closing (quote_plain quote),
      quotedLength_append (quote_plain quote) whole] at unclosed
    cases unclosed
  obtain ⟨next, later, rest⟩ := closing_behind unclosed
  refine ⟨next, rest, fun x => ?_⟩
  rw [List.cons_append, closing_of_quote quote (fun closes => other closes.2), later,
    Option.map_map]
  rfl

/-- Line feeds close no quote. -/
theorem closing_newlines (quote : q = '\'' ∨ q = '"') (w : Text) (escaped : Bool) :
    ∃ escaped', ∀ x, closing? q escaped (keepNewlines w ++ x)
      = (closing? q escaped' x).map (· + (keepNewlines w).length) := by
  have unclosed (escaped : Bool) (k : Nat) : closing? q escaped (List.replicate k '\n') = none := by
    have other : '\n' ≠ q := by obtain rfl | rfl := quote <;> decide
    induction k generalizing escaped with
    | zero => rfl
    | succ k ih => rw [List.replicate_succ, closing?, if_neg (fun closes => other closes.2), ih]; rfl
  obtain ⟨escaped', later, -⟩ := closing_behind (v := keepNewlines w) (r := [])
    (by rw [List.append_nil]; exact unclosed escaped _)
  exact ⟨escaped', later⟩

/-- A quote that is closed behind a stretch of text leaves the rest of what stands there. -/
theorem closing_drop {escaped next : Bool}
    (later : ∀ x, closing? q escaped (w ++ x) = (closing? q next x).map (· + w.length))
    (closed : closing? q escaped (w ++ u) = some n) :
    ∃ m, closing? q next u = some m ∧ (w ++ u).drop n = u.drop m := by
  rw [later] at closed
  obtain ⟨m, found, rfl⟩ := Option.map_eq_some_iff.mp closed
  exact ⟨m, found, by rw [Nat.add_comm, List.drop_length_add_append]⟩

/-- A quote that is open in a text may be closed in what the filter leaves of it, and the rest is
what the filter leaves of a text as well. -/
theorem Strips.resume {escaped escaped' : Bool} (h : Strips t u) (quote : q = '\'' ∨ q = '"')
    (unclosed : closing? q escaped t = none) (closed : closing? q escaped' u = some n) :
    ∃ t', t'.length ≤ t.length ∧ Strips t' (u.drop n) := by
  induction h generalizing escaped escaped' n with
  | nil => cases closed
  | @kept c r u _ rest ih =>
      have later : closing? q (!escaped && c == '\\') r = none := by
        rw [closing?] at unclosed
        split at unclosed
        · cases unclosed
        · exact Option.map_eq_none_iff.mp unclosed
      rw [closing?] at closed
      split at closed
      · cases closed
        exact ⟨r, Nat.le_succ _, rest⟩
      · obtain ⟨m, found, rfl⟩ := Option.map_eq_some_iff.mp closed
        obtain ⟨t', shorter, strips⟩ := ih later found
        exact ⟨t', Nat.le_succ_of_le shorter, strips⟩
  | @string w r u string _ ih =>
      obtain ⟨next, unclosed', later⟩ := closing_string string unclosed escaped'
      obtain ⟨m, found, same⟩ := closing_drop later closed
      obtain ⟨t', shorter, strips⟩ := ih unclosed' found
      exact ⟨t', by rw [List.length_append]; omega, same ▸ strips⟩
  | @comment w r u _ _ ih =>
      obtain ⟨_, -, unclosed'⟩ := closing_behind unclosed
      obtain ⟨next, later⟩ := closing_newlines quote w escaped'
      obtain ⟨m, found, same⟩ := closing_drop later closed
      obtain ⟨t', shorter, strips⟩ := ih unclosed' found
      exact ⟨t', by rw [List.length_append]; omega, same ▸ strips⟩

end Quote

theorem pair_infix_append (inside : [a, b] <:+: w ++ u) :
    [a, b] <:+: w ∨ [a, b] <:+: u ∨ (w.getLast? = some a ∧ u.head? = some b) := by
  induction w with
  | nil => exact .inr (.inl inside)
  | cons c w ih =>
      obtain here | later := List.infix_cons_iff.mp inside
      · obtain ⟨rfl, next⟩ := List.cons_prefix_cons.mp here
        cases w with
        | nil =>
            obtain ⟨x, rfl⟩ := next
            exact .inr (.inr ⟨rfl, rfl⟩)
        | cons d w =>
            obtain ⟨rfl, -⟩ := List.cons_prefix_cons.mp next
            exact .inl ⟨[], w, rfl⟩
      · obtain within | within | ⟨last, head⟩ := ih later
        · exact .inl (within.trans (List.suffix_cons c w).isInfix)
        · exact .inr (.inl within)
        · refine .inr (.inr ⟨?_, head⟩)
          rw [List.getLast?_cons, last]
          rfl

theorem blockCommentTail_eq_none_iff : blockCommentTail? t = none ↔ ¬ ['*', '/'] <:+: t := by
  induction t with
  | nil => simp [blockCommentTail?]
  | cons c r ih =>
      rw [blockCommentTail_cons, List.infix_cons_iff, List.cons_prefix_cons]
      by_cases closes : c = '*' ∧ r.head? = some '/'
      · obtain ⟨rfl, head⟩ := closes
        obtain ⟨r, rfl⟩ := List.head?_eq_some_iff.mp head
        simp
      · have here : ¬ ('*' = c ∧ ['/'] <+: r) := by
          rintro ⟨rfl, x, rfl⟩
          exact closes ⟨rfl, rfl⟩
        rw [if_neg closes, Option.map_eq_none_iff, ih]
        simp [here]

theorem Strips.plain (h : Strips (c :: r) u) (plain : isPlain c = true) :
    ∃ u', u = c :: u' ∧ Strips r u' := by
  generalize text : c :: r = t at h
  cases h with
  | nil => cases text
  | kept _ rest =>
      cases text
      exact ⟨_, rfl, rest⟩
  | string string rest =>
      obtain ⟨q, v, rfl, quote, -⟩ := string
      obtain ⟨rfl, -⟩ := List.cons.inj text
      obtain rfl | rfl := quote <;> cases plain
  | comment found rest =>
      have none : commentOrStringPattern [] (c :: r) = none := commentOrString_of_plain plain
      rw [text, (commentOrString_of_comment found []).1] at none
      cases none

/-- A character in front of what is left of a text was in front of it already, unless a comment was
there. -/
theorem Strips.head (h : Strips t u) (head : u.head? = some c) :
    t.head? = some c ∨ t.head? = some '/' ∨ c = '?' ∨ c = '\r' ∨ c = '\n' := by
  cases h with
  | nil => cases head
  | kept => exact .inl head
  | string string =>
      obtain ⟨q, v, rfl, -, -⟩ := string
      exact .inl head
  | @comment w r u comment rest =>
      obtain ⟨d, v, rfl⟩ := List.exists_cons_of_ne_nil (ne_nil_of_comment comment)
      obtain block | line := comment
      · exact .inr (.inl (congrArg some (blockCommentLength_head block)))
      · rw [keepNewlines, newlines_of_lineComment line, List.replicate_zero, List.nil_append] at head
        cases r with
        | nil =>
            obtain rfl := (strips_iff.mp rest).symm
            cases head
        | cons e r =>
            have stop := lineCommentLength_stop line
            have plain : isPlain e = true := by obtain rfl | rfl | rfl := stop <;> rfl
            obtain ⟨u, rfl, -⟩ := rest.plain plain
            cases head
            exact .inr (.inr stop)

/-- Removing comments puts no end of a comment together. -/
theorem Strips.commentEnd (h : Strips t u) (inside : ['*', '/'] <:+: u) : ['*', '/'] <:+: t := by
  induction h with
  | nil => exact inside
  | @kept c r u _ rest ih =>
      obtain here | later | ⟨last, head⟩ := pair_infix_append (w := [c]) inside
      · exact absurd here.length_le (Nat.not_succ_le_self 1)
      · exact (ih later).trans (List.suffix_cons c r).isInfix
      · obtain rfl : c = '*' := Option.some.inj last
        have slash : r.head? = some '/' := by
          obtain slash | slash | other := rest.head head
          · exact slash
          · exact slash
          · simp at other
        obtain ⟨r, rfl⟩ := List.head?_eq_some_iff.mp slash
        exact ⟨[], r, rfl⟩
  | @string w r u string _ ih =>
      obtain here | later | ⟨last, -⟩ := pair_infix_append inside
      · exact here.trans (List.prefix_append w r).isInfix
      · exact (ih later).trans (List.suffix_append w r).isInfix
      · obtain ⟨q, quote, last'⟩ := string.getLast
        rw [last, Option.some.injEq] at last'
        subst last'
        simp at quote
  | @comment w r u _ _ ih =>
      obtain here | later | ⟨last, -⟩ := pair_infix_append inside
      · cases List.eq_of_mem_replicate (here.subset List.mem_cons_self)
      · exact (ih later).trans (List.suffix_append w r).isInfix
      · cases List.eq_of_mem_replicate (List.mem_of_getLast? last)

/-- A sign that begins no comment in a text does not begin one where the text behind it has lost its
comments. -/
theorem Strips.clear (h : Strips r u) (other : ¬ (c = '\'' ∨ c = '"'))
    (clear : commentOrStringPattern [] (c :: r) = none) :
    commentOrStringPattern [] (c :: u) = none := by
  obtain ⟨-, block, line⟩ := commentOrString_eq_none_iff.mp clear
  rw [lineCommentLength_cons] at line
  rw [blockCommentLength_cons] at block
  have noString : stringLength? (c :: u) = none := if_neg other
  refine commentOrString_eq_none_iff.mpr ⟨noString, ?_, ?_⟩
  · rw [blockCommentLength_cons, ite_eq_right_iff, Option.map_eq_none_iff]
    rintro ⟨rfl, star⟩
    have next : r.head? = some '*' := by
      obtain star | slash | stop := h.head star
      · exact star
      · simp [slash] at line
      · simp at stop
    obtain ⟨r, rfl⟩ := List.head?_eq_some_iff.mp next
    obtain ⟨u, rfl, rest⟩ := h.plain rfl
    have never : blockCommentTail? r = none := by simpa using block
    rw [blockCommentTail_eq_none_iff] at never
    exact blockCommentTail_eq_none_iff.mpr fun inside => never (rest.commentEnd inside)
  · have single : ¬ (c = '/' ∧ u.head? = some '/') := by
      rintro ⟨rfl, slash⟩
      obtain slash | slash | stop := h.head slash
      · simp [slash] at line
      · simp [slash] at line
      · simp at stop
    have bracketed : ¬ (c = '#' ∧ u.head? ≠ some '[') := by
      rintro ⟨rfl, free⟩
      have bracket : r.head? = some '[' := by simpa using line
      obtain ⟨r, rfl⟩ := List.head?_eq_some_iff.mp bracket
      obtain ⟨u, rfl, -⟩ := h.plain rfl
      exact free rfl
    rw [lineCommentLength_cons, if_neg single, if_neg bracketed]

theorem commentOrString_of_unclosed (quote : c = '\'' ∨ c = '"')
    (unclosed : quotedLength? c t = none) : commentOrStringPattern before (c :: t) = none := by
  refine commentOrString_eq_none_iff.mpr ⟨?_, ?_, ?_⟩
  · rw [stringLength?, if_pos quote, unclosed, Option.map_none]
  · rw [blockCommentLength_cons, if_neg]
    rintro ⟨rfl, -⟩
    simp at quote
  · rw [lineCommentLength_cons, if_neg, if_neg]
    · rintro ⟨rfl, -⟩
      simp at quote
    · rintro ⟨rfl, -⟩
      simp at quote

/-- No comment comes to light in what the filter leaves. The induction is on the length of the text:
behind a string that is new the rest comes from another text that is no longer. -/
theorem Strips.isStripped (h : Strips t u) : IsStripped u := by
  induction hn : t.length using Nat.strongRecOn generalizing t u with
  | ind n ih =>
      subst hn
      cases h with
      | nil => exact .nil
      | @kept c r u clear rest =>
          have later := ih _ (Nat.lt_succ_self _) rest rfl
          by_cases quote : c = '\'' ∨ c = '"'
          · have unclosed : closing? c false r = none := by
              have noString := (commentOrString_eq_none_iff.mp clear).1
              rwa [stringLength?, if_pos quote, Option.map_eq_none_iff,
                quotedLength_eq_closing (quote_plain quote)] at noString
            cases found : quotedLength? c u with
            | none => exact .kept (commentOrString_of_unclosed quote found) later
            | some n =>
                have closed := found
                rw [quotedLength_eq_closing (quote_plain quote)] at closed
                obtain ⟨t, shorter, strips⟩ := rest.resume quote unclosed closed
                have stripped := ih t.length (Nat.lt_succ_of_le shorter) strips rfl
                rw [← List.take_append_drop n u]
                exact .string (isString_cons quote found) stripped
          · exact .kept (rest.clear quote clear) later
      | @string w r u string rest =>
          have shorter := List.length_pos_iff.mpr string.ne_nil
          exact .string string (ih _ (by rw [List.length_append]; omega) rest rfl)
      | @comment w r u comment rest =>
          have shorter := List.length_pos_iff.mpr (ne_nil_of_comment comment)
          have later := ih _ (by rw [List.length_append]; omega) rest rfl
          rw [keepNewlines]
          induction w.newlines with
          | zero => exact later
          | succ k ih => exact .kept (commentOrString_of_plain rfl) ih

/-- Removing comments once is enough: no comment comes to light, and what the filter finds the second
time is strings. -/
theorem stripComments_stripComments (t : Text) :
    stripComments (stripComments t) = stripComments t ∧
      cut commentOrStringPattern (stripComments t) = cut stringPattern (stripComments t) := by
  have stripped := (strips_iff.mpr (rfl : stripComments t = stripComments t)).isStripped
  exact ⟨strips_iff.mp stripped.strips, stripped.cutAfter_eq []⟩

/-- A string may come to light: here the quote that was escaped closes it once the comment is gone. -/
example : stripComments "'\\/**/\\'".toList = "'\\\\'".toList ∧
    cut commentOrStringPattern "'\\\\'".toList = [.hit "'\\\\'".toList] := by
  decide +kernel

end PhpGate
