import PhpGate.Proofs.Text.Letter
import PhpGate.Token.Lexer

/-!
How far the patterns of the terminals reach. Whatever a terminal matches is a non-empty part of the
text it stands at the start of, so the lexer always moves on and never takes more than there is.
-/

namespace PhpGate

open Text

/-- A match of at least one character that does not run past the end of the text. -/
def Fits (t : Text) (length : Option Nat) : Prop :=
  ∀ n, length = some n → 0 < n ∧ n ≤ t.length

theorem length_takeWhile_le (p : Char → Bool) (t : Text) : (t.takeWhile p).length ≤ t.length :=
  (List.takeWhile_prefix p).length_le

theorem beginsWith_append {word u v : Text} (h : word.length ≤ u.length) :
    beginsWith word (u ++ v) = beginsWith word u := by
  induction word generalizing u with
  | nil => simp [beginsWith]
  | cons w word ih =>
      cases u with
      | nil => simp at h
      | cons c u => simp [beginsWith, ih (Nat.le_of_succ_le_succ h)]

theorem beginsWith_take {word t : Text} {n : Nat} (h : word.length ≤ n) :
    beginsWith word (t.take n) = beginsWith word t := by
  induction word generalizing t n with
  | nil => simp [beginsWith]
  | cons w word ih =>
      obtain ⟨m, rfl⟩ : ∃ m, n = m + 1 := Nat.exists_eq_add_one.mpr (Nat.lt_of_lt_of_le (Nat.succ_pos _) h)
      cases t with
      | nil => rfl
      | cons c t => simp [beginsWith, ih (Nat.le_of_succ_le_succ h)]

theorem openTagLength_fits (t : Text) : Fits t (openTagLength? t) := by
  intro n h
  fun_cases openTagLength? t with
  | case1 r =>
      cases h
      simp
  | case2 r _ begins =>
      have := length_le_of_beginsWith begins
      simp_all [openTagLength?]
      omega
  | case3 => simp_all [openTagLength?]
  | case4 => simp_all [openTagLength?]

theorem markupLength_le (t : Text) : markupLength t ≤ t.length := by
  fun_induction markupLength t with
  | case1 => exact Nat.le_refl _
  | case2 c r n found => exact (openTagLength_fits _ _ found).2
  | case3 c r _ ih => exact Nat.succ_le_succ ih

theorem identifierLength_fits (t : Text) : Fits t (identifierLength? t) := by
  intro n h
  cases t with
  | nil => simp [identifierLength?] at h
  | cons c r =>
      simp only [identifierLength?, Option.ite_none_right_eq_some, Option.some.injEq] at h
      obtain ⟨-, rfl⟩ := h
      exact ⟨Nat.succ_pos _, Nat.succ_le_succ (length_takeWhile_le _ _)⟩

theorem qualifiedTail_le (afterSeparator : Bool) (t : Text) :
    qualifiedTail afterSeparator t ≤ t.length := by
  fun_induction qualifiedTail afterSeparator t <;> simp_all

theorem nameLength_fits (t : Text) : Fits t (nameLength? t) := by
  intro n h
  fun_cases nameLength? t <;> grind [nameLength?, qualifiedTail_le]

theorem quotedLength_fits (quote : Char) (t : Text) : Fits t (quotedLength? quote t) := by
  intro n h
  fun_induction quotedLength? quote t generalizing n <;> grind [Option.map_eq_some_iff]

theorem interpolatedLength_fits (state : Interpolation) (t : Text) :
    Fits t (interpolatedLength? state t) := by
  intro n h
  fun_induction interpolatedLength? state t generalizing n <;> grind [Option.map_eq_some_iff]

theorem lineCommentTail_le (t : Text) : lineCommentTail t ≤ t.length := by
  fun_induction lineCommentTail t <;> grind

theorem lineCommentLength_fits (t : Text) : Fits t (lineCommentLength? t) := by
  intro n h
  fun_cases lineCommentLength? t <;> grind [lineCommentLength?, lineCommentTail_le]

theorem blockCommentTail_fits (t : Text) : Fits t (blockCommentTail? t) := by
  intro n h
  fun_induction blockCommentTail? t generalizing n <;> grind [Option.map_eq_some_iff]

theorem blockCommentLength_fits (t : Text) : Fits t (blockCommentLength? t) := by
  intro n h
  fun_cases blockCommentLength? t with
  | case1 r =>
      obtain ⟨m, found, rfl⟩ := Option.map_eq_some_iff.mp h
      have := blockCommentTail_fits r m found
      simp only [List.length_cons]
      omega
  | case2 t shape => simp [blockCommentLength?] at h

theorem lineBreakLength_fits (t : Text) : Fits t (lineBreakLength? t) := by
  intro n h
  fun_cases lineBreakLength? t <;> grind [lineBreakLength?]

theorem heredocOpening_le {t label : Text} {n : Nat} (h : heredocOpening? t = some (label, n)) :
    0 < n ∧ n ≤ t.length := by
  fun_cases heredocOpening? t with
  | case1 r indent quote body =>
      simp only [heredocOpening?, Option.bind_eq_some_iff] at h
      obtain ⟨m, -, h⟩ := h
      split at h
      · simp only [Option.map_eq_some_iff, Prod.mk.injEq] at h
        obtain ⟨k, found, -, rfl⟩ := h
        have := lineBreakLength_fits _ _ found
        simp only [List.length_drop, List.length_cons] at *
        omega
      · cases h
  | case2 => simp_all [heredocOpening?]

theorem heredocClosing_le {label t : Text} {n : Nat} (h : heredocClosing? label t = some n) :
    n ≤ t.length := by
  simp only [heredocClosing?, Option.ite_none_right_eq_some, Bool.and_eq_true,
    List.isPrefixOf_iff_prefix, Option.some.injEq] at h
  obtain ⟨⟨stands, -⟩, rfl⟩ := h
  have := stands.length_le
  have := length_takeWhile_le isTabOrSpace t
  simp only [List.length_drop] at *
  omega

theorem heredocBody_le {label t : Text} {lineStart : Bool} {n : Nat}
    (h : heredocBody? label lineStart t = some n) : n ≤ t.length := by
  fun_induction heredocBody? label lineStart t generalizing n with
  | case1 => cases h
  | case2 lineStart c r m found =>
      cases h
      split at found
      · exact heredocClosing_le found
      · cases found
  | case3 lineStart c r _ ih =>
      obtain ⟨m, found, rfl⟩ := Option.map_eq_some_iff.mp h
      exact Nat.succ_le_succ (ih found)

theorem heredocLength_fits (t : Text) : Fits t (heredocLength? t) := by
  intro n h
  simp only [heredocLength?, Option.bind_eq_some_iff, Prod.exists] at h
  obtain ⟨label, m, opening, h⟩ := h
  obtain ⟨k, body, rfl⟩ := Option.map_eq_some_iff.mp h
  have := heredocOpening_le opening
  have := heredocBody_le body
  simp only [List.length_drop] at *
  omega

theorem wordLength_fits {words : List Text} (nonempty : [] ∉ words) (t : Text) :
    Fits t (wordLength? words t) := by
  intro n h
  obtain ⟨w, hw, h⟩ := List.exists_of_findSome?_eq_some h
  simp only [Option.ite_none_right_eq_some, Bool.and_eq_true, Option.some.injEq] at h
  obtain ⟨⟨begins, -⟩, rfl⟩ := h
  refine ⟨List.length_pos_iff.mpr ?_, length_le_of_beginsWith begins⟩
  rintro rfl
  exact nonempty hw

theorem anonymousClassLength_fits (before t : Text) :
    Fits t (anonymousClassLength? before t) := by
  intro n h
  simp only [anonymousClassLength?] at h
  split at h
  · split at h
    · cases h
    · obtain ⟨m, word, rfl⟩ := Option.map_eq_some_iff.mp h
      have := (wordLength_fits (by decide) _ _ word)
      simp only [List.length_drop] at *
      omega
  · cases h

theorem keywordOperatorLength_fits (before t : Text) :
    Fits t (keywordOperatorLength? before t) := by
  intro n h
  simp only [keywordOperatorLength?, Option.ite_none_right_eq_some] at h
  exact wordLength_fits (by decide) _ _ h.2

theorem classKeywordLength_fits (before t : Text) : Fits t (classKeywordLength? before t) := by
  intro n h
  simp only [classKeywordLength?, Option.ite_none_right_eq_some, Option.filter_eq_some_iff] at h
  exact wordLength_fits (by decide) _ _ h.2.1

theorem matchKeywordLength_fits (before t : Text) : Fits t (matchKeywordLength? before t) := by
  intro n h
  simp only [matchKeywordLength?, Option.ite_none_right_eq_some, Bool.and_eq_true,
    Option.some.injEq] at h
  obtain ⟨⟨⟨-, begins⟩, -⟩, rfl⟩ := h
  exact ⟨by decide, length_le_of_beginsWith begins⟩

theorem exponentLength_le (t : Text) : exponentLength t ≤ t.length := by
  cases t with
  | nil => exact Nat.le_refl _
  | cons e r =>
      simp only [exponentLength]
      generalize (if r.head? == some '+' || r.head? == some '-' then 1 else 0) = sign
      have run := length_takeWhile_le isDecimalDigit (r.drop sign)
      split
      · rename_i exponent
        have := bne_iff_ne.mp (Bool.and_eq_true_iff.mp exponent).2
        simp only [List.length_drop, List.length_cons] at *
        omega
      · exact Nat.zero_le _

theorem fractionLength_le (t : Text) : fractionLength t ≤ t.length := by
  fun_cases fractionLength t with
  | case1 r => simpa using length_takeWhile_le isDecimalDigit r
  | case2 => exact Nat.zero_le _

theorem numberLength_fits (t : Text) : Fits t (numberLength? t) := by
  intro n h
  fun_cases numberLength? t with
  | case1 => cases h
  | case2 d r digit =>
      simp only [numberLength?, digit, if_true, Option.some.injEq] at h
      have := length_takeWhile_le isWord r
      simp only [List.length_cons]
      omega
  | case3 d r digit => simp [numberLength?, digit] at h
  | case4 d r shape digit =>
      rw [numberLength?.eq_3 _ _ shape, if_pos digit] at h
      have whole := length_takeWhile_le isWord r
      have fraction := fractionLength_le (r.drop (r.takeWhile isWord).length)
      have exponent := exponentLength_le (r.drop ((r.takeWhile isWord).length
        + fractionLength (r.drop (r.takeWhile isWord).length)))
      simp only [Option.some.injEq, List.length_drop, List.length_cons] at *
      omega
  | case5 d r shape digit =>
      rw [numberLength?.eq_3 _ _ shape, if_neg digit] at h
      cases h

theorem variableLength_fits (t : Text) : Fits t (variableLength? t) := by
  intro n h
  fun_cases variableLength? t with
  | case1 r =>
      simp only [variableLength?, Option.some.injEq] at h
      have signs := length_takeWhile_le (· == '$') r
      have named : (identifierLength? (r.drop (r.takeWhile (· == '$')).length)).getD 0
          ≤ (r.drop (r.takeWhile (· == '$')).length).length := by
        cases found : identifierLength? (r.drop (r.takeWhile (· == '$')).length) with
        | none => exact Nat.zero_le _
        | some m => exact (identifierLength_fits _ m found).2
      simp only [List.length_drop, List.length_cons] at *
      omega
  | case2 => simp_all [variableLength?]

theorem operatorRun_le (t : Text) : operatorRun t ≤ t.length := by
  fun_induction operatorRun t with
  | case1 => exact Nat.le_refl _
  | case2 c r _ ih => exact Nat.succ_le_succ ih
  | case3 => exact Nat.zero_le _

theorem fixedLength_fits {word : Text} (nonempty : word ≠ []) (t : Text) :
    Fits t (fixedLength? word t) := by
  intro n h
  simp only [fixedLength?, Option.ite_none_right_eq_some, List.isPrefixOf_iff_prefix,
    Option.some.injEq] at h
  obtain ⟨stands, rfl⟩ := h
  exact ⟨List.length_pos_iff.mpr nonempty, stands.length_le⟩

theorem someLength_fits {n : Nat} {t : Text} (le : n ≤ t.length) : Fits t (someLength n) := by
  intro m h
  simp only [someLength, Option.ite_none_left_eq_some, Option.some.injEq] at h
  omega

namespace Terminal

theorem length_fits (before t : Text) (k : Terminal) : Fits t (k.length? before t) := by
  cases k with
  | inlineHtml =>
      intro n h
      simp only [length?] at h
      split at h
      · cases h
        exact ⟨Nat.succ_pos _, Nat.add_le_add_right (markupLength_le _) 2⟩
      · cases h
  | doubleQuoted | backtick | singleQuoted =>
      intro n h
      simp only [length?] at h
      split at h
      · obtain ⟨m, found, rfl⟩ := Option.map_eq_some_iff.mp h
        first
          | exact ⟨Nat.succ_pos _, Nat.succ_le_succ (interpolatedLength_fits _ _ m found).2⟩
          | exact ⟨Nat.succ_pos _, Nat.succ_le_succ (quotedLength_fits _ _ m found).2⟩
      · cases h
  | increment =>
      intro n h
      simp only [length?, Bool.or_eq_true, List.isPrefixOf_iff_prefix,
        Option.ite_none_right_eq_some, Option.some.injEq] at h
      obtain ⟨stands | stands, rfl⟩ := h <;> exact ⟨by decide, stands.length_le⟩
  | colon =>
      intro n h
      simp only [length?, Option.ite_none_right_eq_some, Option.some.injEq] at h
      obtain ⟨starts, rfl⟩ := h
      cases t with
      | nil => simp [startsColon] at starts
      | cons c r => simp
  | expressionBrace =>
      intro n h
      simp only [length?, Option.ite_none_right_eq_some] at h
      exact fixedLength_fits (by decide) t n h.2
  | openTag => exact openTagLength_fits t
  | heredoc => exact heredocLength_fits t
  | anonymousClass => exact anonymousClassLength_fits before t
  | lineComment => exact lineCommentLength_fits t
  | blockComment => exact blockCommentLength_fits t
  | keywordOperator => exact keywordOperatorLength_fits before t
  | classKeyword => exact classKeywordLength_fits before t
  | matchKeyword => exact matchKeywordLength_fits before t
  | name => exact nameLength_fits t
  | number => exact numberLength_fits t
  | variableName => exact variableLength_fits t
  | operator => exact someLength_fits (operatorRun_le t)
  | blank => exact someLength_fits (length_takeWhile_le _ _)
  | ellipsis | attributeBracket | comma | openBrace | openParen | openBracket | closeBrace
  | closeParen | closeBracket | semicolon => exact fixedLength_fits (by decide) t

variable {before before' t t' : Text} {k : Terminal} {n m : Nat}

theorem mem_inOrder (k : Terminal) : k ∈ inOrder := by
  cases k <;> decide

theorem first_eq_none_iff : first? before t = none ↔ ∀ k, length? before t k = none := by
  simp [first?, mem_inOrder]

theorem first_eq_some_iff :
    first? before t = some (k, n) ↔
      ∃ earlier later, inOrder = earlier ++ k :: later ∧ length? before t k = some n ∧
        ∀ k' ∈ earlier, length? before t k' = none := by
  rw [first?, List.findSome?_eq_some_iff]
  constructor
  · rintro ⟨earlier, k', later, order, found, none⟩
    obtain ⟨m, found, e⟩ := Option.map_eq_some_iff.mp found
    cases e
    exact ⟨earlier, later, order, found, fun k' mem => by simpa using none k' mem⟩
  · rintro ⟨earlier, later, order, found, none⟩
    exact ⟨earlier, k, later, order, by simp [found], fun k' mem => by simp [none k' mem]⟩

/-- No terminal that is tried before the winner matches. -/
theorem length_eq_none_of_first {k' : Terminal} (h : first? before t = some (k, n))
    (order : k' ∈ inOrder.takeWhile (· != k)) : length? before t k' = none := by
  obtain ⟨earlier, later, split, -, none⟩ := first_eq_some_iff.mp h
  rw [split, List.takeWhile_append] at order
  refine none k' ?_
  split at order
  · simpa using order
  · exact (List.takeWhile_sublist _).subset order

/-- A terminal wins where it matches and none that is tried before it does. -/
theorem first_of_length (found : length? before t k = some n)
    (none : ∀ k' ∈ inOrder.takeWhile (· != k), length? before t k' = none) :
    first? before t = some (k, n) := by
  have order : inOrder = inOrder.takeWhile (· != k) ++ k :: (inOrder.dropWhile (· != k)).tail := by
    cases k <;> rfl
  exact first_eq_some_iff.mpr ⟨_, _, order, found, none⟩

/-- The winner at one place wins at another, if it matches there and no further terminal does. -/
theorem first_of_first (h : first? before t = some (k, n))
    (found : length? before' t' k = some m)
    (still : ∀ k', length? before t k' = none → length? before' t' k' = none) :
    first? before' t' = some (k, m) := by
  obtain ⟨earlier, later, order, -, none⟩ := first_eq_some_iff.mp h
  exact first_eq_some_iff.mpr ⟨earlier, later, order, found, fun k' mem => still k' (none k' mem)⟩

theorem first_fits {before t : Text} {k : Terminal} {n : Nat}
    (h : first? before t = some (k, n)) : 0 < n ∧ n ≤ t.length := by
  obtain ⟨k', -, h⟩ := List.exists_of_findSome?_eq_some h
  simp only [Option.map_eq_some_iff, Prod.mk.injEq] at h
  obtain ⟨m, found, rfl, rfl⟩ := h
  exact length_fits before t k' m found

theorem first_nil (before : Text) : first? before [] = none := by
  cases h : first? before [] with
  | none => rfl
  | some found =>
      have := first_fits h
      simp only [List.length_nil] at this
      omega

end Terminal
end PhpGate
