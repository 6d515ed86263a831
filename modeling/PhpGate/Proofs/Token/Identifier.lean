import Mathlib.Data.List.TakeWhile
import PhpGate.Proofs.Text.Pieces
import PhpGate.Proofs.Token.Keyword
import PhpGate.Proofs.Token.Start

/-!
Identifiers. PHP takes every character above ASCII for a letter; the terminals name the characters
up to U+FFFF, and beyond them take along word characters behind the first letter. Where they leave
an identifier nothing but a number can be read.
-/

namespace PhpGate

open Text

/-- Characters that an identifier of PHP may begin with. -/
def beginsIdentifier (c : Char) : Bool :=
  c.isAlpha || c == '_' || 0x80 ≤ c.toNat

/-- Characters that may follow in an identifier of PHP. -/
def continuesIdentifier (c : Char) : Bool :=
  beginsIdentifier c || c.isDigit

/-- An identifier of PHP. Every character above ASCII counts as a letter. -/
structure IsIdentifier (t : Text) : Prop where
  head : t.head?.any beginsIdentifier = true
  tail : t.tail.all continuesIdentifier = true

/-- The characters lie below U+10000, word characters behind the first aside. -/
structure IsCovered (t : Text) : Prop where
  head : t.head?.all (fun c => c.toNat ≤ 0xffff) = true
  tail : t.tail.all (fun c => c.toNat ≤ 0xffff || isWord c) = true

variable {before t r id : Text} {c : Char} {n : Nat}

theorem narrow_of_plain (plain : (c.isAlphanum || c == '_') = true) : c.toNat ≤ 0xffff := by
  simp only [isAlphanum_or_eq, plainWords, inRanges, List.any_cons, List.any_nil, Bool.or_eq_true,
    Bool.and_eq_true, decide_eq_true_eq, Bool.or_false] at plain
  omega

theorem isWord_of_plain (plain : (c.isAlphanum || c == '_') = true) : isWord c = true := by
  obtain letter | line := Bool.or_eq_true_iff.mp plain
  · exact isWord_of_isAlphanum letter
  · rw [beq_iff_eq.mp line]
    decide +kernel

theorem plain_of_letter (letter : (c.isAlpha || c == '_') = true) :
    (c.isAlphanum || c == '_') = true := by
  rw [Char.isAlphanum, Bool.or_right_comm, letter, Bool.true_or]

theorem isIdentifierStart_iff (begins : beginsIdentifier c = true) :
    isIdentifierStart c = true ↔ c.toNat ≤ 0xffff := by
  rw [beginsIdentifier, Bool.or_eq_true, decide_eq_true_eq] at begins
  rw [isIdentifierStart, Bool.or_eq_true, Bool.and_eq_true, decide_eq_true_eq, decide_eq_true_eq]
  constructor
  · rintro (letter | range)
    · exact narrow_of_plain (plain_of_letter letter)
    · exact range.2
  · exact fun narrow => begins.imp_right fun high => ⟨high, narrow⟩

theorem isIdentifierPart_iff (goesOn : continuesIdentifier c = true) :
    isIdentifierPart c = true ↔ c.toNat ≤ 0xffff ∨ isWord c = true := by
  rw [isIdentifierPart, Bool.or_eq_true, Bool.and_eq_true, decide_eq_true_eq, decide_eq_true_eq]
  constructor
  · exact fun part => part.symm.imp_left And.right
  · rintro (narrow | word)
    · rw [continuesIdentifier, beginsIdentifier, Bool.or_eq_true, Bool.or_eq_true,
        decide_eq_true_eq] at goesOn
      obtain (letter | high) | digit := goesOn
      · exact .inl (isWord_of_plain (plain_of_letter letter))
      · exact .inr ⟨high, narrow⟩
      · exact .inl (isWord_of_isAlphanum (by rw [Char.isAlphanum, digit, Bool.or_true]))
    · exact .inl word

/-- Where the terminals end an identifier that goes on, no digit stands. -/
theorem wide_of_stop (goesOn : continuesIdentifier c = true) (stop : isIdentifierPart c = false) :
    0xffff < c.toNat ∧ isDecimalDigit c = false := by
  rw [← Bool.not_eq_true, isIdentifierPart_iff goesOn, not_or, Bool.not_eq_true] at stop
  refine ⟨Nat.lt_of_not_le stop.1, ?_⟩
  rw [← Bool.not_eq_true]
  intro digit
  rw [isWord_of_isDecimalDigit digit] at stop
  cases stop.2

theorem isCovered_cons_iff (h : IsIdentifier (c :: r)) :
    IsCovered (c :: r) ↔ isIdentifierStart c = true ∧ r.all isIdentifierPart = true := by
  have part : r.all (fun d => d.toNat ≤ 0xffff || isWord d) = true
      ↔ r.all isIdentifierPart = true := by
    rw [List.all_eq_true, List.all_eq_true]
    refine forall₂_congr fun d mem => ?_
    rw [Bool.or_eq_true, decide_eq_true_eq, isIdentifierPart_iff (List.all_eq_true.mp h.tail d mem)]
  rw [isIdentifierStart_iff h.head]
  constructor
  · rintro ⟨head, tail⟩
    exact ⟨of_decide_eq_true head, part.mp tail⟩
  · rintro ⟨head, tail⟩
    exact ⟨decide_eq_true head, part.mpr tail⟩

/-- Keywords begin with a letter. -/
theorem Terminal.opensWith_keyword (plain : (foldCase c).isLower = false) :
    ∀ k ∈ keywords, k.opensWith c = false := by
  have folded (d : Char) (letter : d.isLower = true) : (foldCase c == d) = false := by
    refine beq_false_of_ne ?_
    rintro rfl
    rw [letter] at plain
    cases plain
  have words (ws : List Text) (letters : ∀ word ∈ ws, word.head?.any Char.isLower = true) :
      (ws.any fun word => word.head? == some (foldCase c)) = false := by
    refine List.any_eq_false.mpr fun word mem head => ?_
    have lower := letters word mem
    rw [beq_iff_eq.mp head, Option.any_some, plain] at lower
    cases lower
  simp only [keywords, List.forall_mem_cons, opensWith]
  exact ⟨folded 'n' rfl, words _ (by decide), words _ (by decide), folded 'm' rfl,
    List.forall_mem_nil _⟩

theorem isLower_foldCase_of_plain (plain : isIdentifierStart c = false) :
    (foldCase c).isLower = false := by
  rw [← Bool.not_eq_true]
  intro letter
  rw [isIdentifierStart_of_foldCase letter] at plain
  cases plain

section Wide

variable (wide : 0xffff < c.toNat)
include wide

theorem ne_of_wide {d : Char} (narrow : d.toNat ≤ 0xffff) : c ≠ d := by
  rintro rfl
  exact absurd wide (Nat.not_lt.mpr narrow)

theorem isIdentifierStart_of_wide : isIdentifierStart c = false := by
  rw [← Bool.not_eq_true]
  intro start
  have begins : beginsIdentifier c = true := by
    simp only [beginsIdentifier, Bool.or_eq_true, decide_eq_true_eq]
    omega
  have narrow := (isIdentifierStart_iff begins).mp start
  omega

/-- Beyond U+FFFF nothing but a number begins. -/
theorem length_eq_none_of_wide {k : Terminal} (other : k ≠ .number) :
    k.length? before (c :: r) = none := by
  have ne (d : Char) (narrow : d.toNat ≤ 0xffff) : (c == d) = false :=
    beq_false_of_ne (ne_of_wide wide narrow)
  have start := isIdentifierStart_of_wide wide
  refine Terminal.length_eq_none_of_opensWith ?_
  cases k with
  | number => exact absurd rfl other
  | anonymousClass | keywordOperator | classKeyword | matchKeyword =>
      exact Terminal.opensWith_keyword (isLower_foldCase_of_plain start) _ (by decide)
  | name => rw [Terminal.opensWith, ne '\\' (by decide), start, Bool.or_false]
  | operator =>
      rw [Terminal.opensWith, ← Bool.not_eq_true]
      intro sign
      have narrow : c.toNat ≤ 0xffff := of_isSign (p := fun d => d.toNat ≤ 0xffff) sign (by decide)
      exact absurd wide (Nat.not_lt.mpr narrow)
  | blank =>
      rw [Terminal.opensWith, ← Bool.not_eq_true]
      intro blank
      have low : inRanges [(0, 0x3000)] c.toNat = true := inRanges_of_covered blank (by decide)
      simp only [inRanges, List.any_cons, List.any_nil, Bool.or_false, Bool.and_eq_true,
        decide_eq_true_eq] at low
      omega
  | lineComment =>
      rw [Terminal.opensWith, ne '/' (by decide), ne '#' (by decide), Bool.or_false]
  | increment =>
      rw [Terminal.opensWith, ne '+' (by decide), ne '-' (by decide), Bool.or_false]
  | _ => exact ne _ (by decide)

/-- Where no number begins, nothing does. -/
theorem first_eq_none_of_wide (letter : isDecimalDigit c = false) :
    Terminal.first? before (c :: r) = none := by
  rw [Terminal.first_eq_none_iff]
  intro k
  by_cases number : k = .number
  · rw [number, Terminal.length?, numberLength_cons, if_neg (ne_of_wide wide (by decide)), letter,
      if_neg Bool.false_ne_true]
  · exact length_eq_none_of_wide wide number

theorem exists_first_of_wide (before : Text) (digit : isDecimalDigit c = true) :
    ∃ w v, c :: r = w ++ v ∧ Terminal.first? before (w ++ v) = some (.number, w.length) := by
  have found : ∃ n, Terminal.length? before (c :: r) .number = some n :=
    ⟨_, by rw [Terminal.length?, numberLength_cons, if_neg (ne_of_wide wide (by decide)), digit,
      if_pos rfl]⟩
  obtain ⟨n, found⟩ := found
  have first : Terminal.first? before (c :: r) = some (.number, n) := by
    refine Terminal.first_of_length found fun k earlier => length_eq_none_of_wide wide ?_
    rintro rfl
    exact absurd earlier (by decide)
  refine ⟨(c :: r).take n, (c :: r).drop n, (List.take_append_drop n _).symm, ?_⟩
  rw [List.take_append_drop, List.length_take_of_le (Terminal.first_fits first).2]
  exact first

end Wide

theorem variableLength_sign (single : t.head? ≠ some '$') :
    variableLength? ('$' :: t) = some ((identifierLength? t).getD 0 + 1) := by
  have none : t.takeWhile (· == '$') = [] := by
    cases t with
    | nil => rfl
    | cons c t => rw [List.takeWhile_cons_of_neg (by simpa using single)]
  simp [variableLength?, none, Nat.add_comm]

theorem first_variable (before : Text) (single : t.head? ≠ some '$') :
    Terminal.first? before ('$' :: t)
      = some (.variableName, (identifierLength? t).getD 0 + 1) := by
  rw [Terminal.first_of_plain before (by decide) (by decide)]
  refine Terminal.first_of_length (variableLength_sign single) fun k earlier => ?_
  cases k <;> first | rfl | exact absurd earlier (by decide)

/-- The part of an identifier that the terminals take, and what they leave: nothing if they cover
the identifier, and otherwise a text that begins beyond U+FFFF. -/
structure SplitsIdentifier (id u s : Text) : Prop where
  whole : id = u ++ s
  covered : s = [] ↔ IsCovered id
  taken : (identifierLength? (id ++ [';'])).getD 0 = u.length
  stop : ∀ c ∈ s.head?, 0xffff < c.toNat ∧ (u = [] ∨ isDecimalDigit c = false)

theorem IsIdentifier.exists_split (h : IsIdentifier id) : ∃ u s, SplitsIdentifier id u s := by
  cases id with
  | nil => cases h.head
  | cons c r =>
      have covered := isCovered_cons_iff h
      cases start : isIdentifierStart c with
      | false =>
          refine ⟨[], c :: r, rfl, by simp [covered, start], by simp [identifierLength?, start], ?_⟩
          rintro d ⟨⟩
          rw [← Bool.not_eq_true, isIdentifierStart_iff h.head] at start
          exact ⟨Nat.lt_of_not_le start, .inl rfl⟩
      | true =>
          refine ⟨c :: r.takeWhile isIdentifierPart, r.dropWhile isIdentifierPart, ?_, ?_, ?_, ?_⟩
          · rw [List.cons_append, List.takeWhile_append_dropWhile]
          · rw [covered, start, List.dropWhile_eq_nil_iff, List.all_eq_true]
            simp
          · rw [List.cons_append, identifierLength?, start, if_pos rfl, takeWhile_append (by decide)]
            rfl
          · intro d head
            have stop := any_head_dropWhile isIdentifierPart r
            rw [show (r.dropWhile isIdentifierPart).head? = some d from head] at stop
            have mem : d ∈ r := List.dropWhile_subset _ (List.mem_of_mem_head? head)
            exact (wide_of_stop (List.all_eq_true.mp h.tail d mem) stop).imp_right .inr

end PhpGate
