import PhpGate.Interpreter.LintOutput
import PhpGate.Proofs.Text.Lines
import PhpGate.Proofs.Token.Report

/-!
The line number in what an interpreter prints. It is the number of the first phrase `on line 12`, in
any case and with any white space, in the first line that is not blank.
-/

namespace PhpGate.LintReport

open Text

variable {word t r digits : Text}

/-- A text begins with `on line` in any case, white space behind each word, and all of a run of
digits. -/
def OnLine (t digits : Text) : Prop :=
  ∃ on gap line space rest, t = on ++ (gap ++ (line ++ (space ++ (digits ++ rest)))) ∧
    on.map foldCase = "on".toList ∧ gap ≠ [] ∧ gap.all isBlank = true ∧
    line.map foldCase = "line".toList ∧ space ≠ [] ∧ space.all isBlank = true ∧
    digits ≠ [] ∧ digits.all isDecimalDigit = true ∧ rest.head?.any isDecimalDigit = false

/-- The first such phrase in a text has these digits. -/
def NumbersLine (t digits : Text) : Prop :=
  ∃ u v, t = u ++ v ∧ OnLine v digits ∧
    ∀ u' v' d, t = u' ++ v' → u'.length < u.length → ¬ OnLine v' d

theorem OnLine.numbersLine (h : OnLine t digits) : NumbersLine t digits :=
  ⟨[], t, rfl, h, fun _ _ _ _ earlier => by cases earlier⟩

theorem afterBlanks_eq_some_iff :
    afterBlanks? t = some r ↔
      ∃ gap, t = gap ++ r ∧ gap ≠ [] ∧ gap.all isBlank = true ∧ r.head?.any isBlank = false := by
  constructor
  · intro h
    have split : t.takeWhile isBlank ++ t.dropWhile isBlank = t := List.takeWhile_append_dropWhile
    have rest : t.drop (blankLength t) = t.dropWhile isBlank :=
      List.append_cancel_left ((takeWhile_append_drop isBlank t).trans split.symm)
    rw [afterBlanks?] at h
    split at h
    · cases h
    · rename_i nonempty
      rw [rest] at h
      cases h
      refine ⟨t.takeWhile isBlank, split.symm, ?_, List.all_takeWhile, any_head_dropWhile isBlank t⟩
      intro none
      exact nonempty (by rw [blankLength, none]; rfl)
  · rintro ⟨gap, rfl, nonempty, blanks, stop⟩
    have length := blankLength_append blanks stop
    have positive : gap.length ≠ 0 := by simpa using nonempty
    rw [afterBlanks?, length]
    split
    · contradiction
    · rw [List.drop_left]

/-- Skips a word, in any case, and the white space behind it. -/
def afterWord? (word t : Text) : Option Text :=
  if beginsWith word t then afterBlanks? (t.drop word.length) else none

theorem afterWord_eq_some_iff :
    afterWord? word t = some r ↔
      ∃ u gap, t = u ++ (gap ++ r) ∧ u.map foldCase = word ∧ gap ≠ [] ∧ gap.all isBlank = true ∧
        r.head?.any isBlank = false := by
  rw [afterWord?, Option.ite_none_right_eq_some, beginsWith_iff, afterBlanks_eq_some_iff]
  constructor
  · rintro ⟨folded, gap, split, nonempty, blanks, stop⟩
    exact ⟨t.take word.length, gap, by rw [← split, List.take_append_drop], folded, nonempty,
      blanks, stop⟩
  · rintro ⟨u, gap, rfl, rfl, nonempty, blanks, stop⟩
    rw [List.length_map, List.take_left, List.drop_left]
    exact ⟨rfl, gap, rfl, nonempty, blanks, stop⟩

theorem bind_ite_none {α β : Type} {c : Prop} [Decidable c] (x : Option α) (f : α → Option β) :
    (if c then x else none).bind f = if c then x.bind f else none := by
  split <;> rfl

/-- What stands behind `on line`, in any case, and the white space behind each word. -/
def afterLineWords? (t : Text) : Option Text :=
  (afterWord? "on".toList t).bind (afterWord? "line".toList)

theorem onLineDigits_eq (t : Text) : onLineDigits? t = (afterLineWords? t).bind fun rest =>
    if (rest.takeWhile isDecimalDigit).isEmpty then none
    else some (rest.takeWhile isDecimalDigit) := by
  simp only [afterLineWords?, Option.bind_assoc, afterWord?, bind_ite_none]
  rfl

theorem onLineDigits_eq_some_iff : onLineDigits? t = some digits ↔ OnLine t digits := by
  simp only [onLineDigits_eq, afterLineWords?, Option.bind_eq_some_iff, afterWord_eq_some_iff]
  constructor
  · rintro ⟨s, ⟨_, ⟨on, gap, rfl, onFolded, gapped, gaps, -⟩,
      ⟨line, space, rfl, lineFolded, spaced, spaces, -⟩⟩, digit⟩
    rw [Option.ite_none_left_eq_some, List.isEmpty_iff] at digit
    obtain ⟨nonempty, found⟩ := digit
    cases found
    have split : s.takeWhile isDecimalDigit ++ s.dropWhile isDecimalDigit = s :=
      List.takeWhile_append_dropWhile
    exact ⟨on, gap, line, space, s.dropWhile isDecimalDigit, by rw [split], onFolded, gapped, gaps,
      lineFolded, spaced, spaces, nonempty, List.all_takeWhile, any_head_dropWhile _ s⟩
  · rintro ⟨on, gap, line, space, rest, rfl, onFolded, gapped, gaps, lineFolded, spaced, spaces,
      nonempty, digit, stop⟩
    have run : (digits ++ rest).takeWhile isDecimalDigit = digits := takeWhile_append_stop digit stop
    have lineStart : (line ++ (space ++ (digits ++ rest))).head?.any isBlank = false := by
      cases line with
      | nil => cases lineFolded
      | cons c line =>
          have letter : foldCase c = 'l' := (List.cons.inj lineFolded).1
          exact isBlank_of_isWord (isWord_of_foldCase (by rw [letter]; rfl))
    have digitStart : (digits ++ rest).head?.any isBlank = false := by
      obtain ⟨c, digits, rfl⟩ := List.exists_cons_of_ne_nil nonempty
      rw [List.all_cons, Bool.and_eq_true] at digit
      exact isBlank_of_isWord (isWord_of_isDecimalDigit digit.1)
    exact ⟨_, ⟨_, ⟨on, gap, rfl, onFolded, gapped, gaps, lineStart⟩,
      ⟨line, space, rfl, lineFolded, spaced, spaces, digitStart⟩⟩, by simp [run, nonempty]⟩

theorem not_onLine_nil : ¬ OnLine [] digits := by
  rintro ⟨on, gap, line, space, rest, split, folded, -⟩
  obtain rfl : on = [] := (List.append_eq_nil_iff.mp split.symm).1
  cases folded

theorem firstLineNumber_eq_some_iff : firstLineNumber? t = some digits ↔ NumbersLine t digits := by
  induction t with
  | nil =>
      refine iff_of_false nofun ?_
      rintro ⟨u, v, split, phrase, -⟩
      obtain rfl : v = [] := (List.append_eq_nil_iff.mp split.symm).2
      exact not_onLine_nil phrase
  | cons c r ih =>
      cases here : onLineDigits? (c :: r) with
      | some d =>
          have phrase := onLineDigits_eq_some_iff.mp here
          rw [firstLineNumber?, here, Option.some.injEq]
          constructor
          · rintro rfl
            exact phrase.numbersLine
          · rintro ⟨u, v, split, later, first⟩
            cases u with
            | nil =>
                obtain rfl : c :: r = v := split
                exact Option.some.inj (here.symm.trans (onLineDigits_eq_some_iff.mpr later))
            | cons c' u => exact absurd phrase (first [] _ d rfl (Nat.succ_pos _))
      | none =>
          have absent (d : Text) : ¬ OnLine (c :: r) d := by
            rw [← onLineDigits_eq_some_iff, here]
            exact nofun
          rw [firstLineNumber?, here]
          refine ih.trans ⟨?_, ?_⟩
          · rintro ⟨u, v, rfl, phrase, first⟩
            refine ⟨c :: u, v, rfl, phrase, ?_⟩
            intro u' v' d split earlier
            cases u' with
            | nil =>
                obtain rfl : c :: (u ++ v) = v' := split
                exact absent d
            | cons c' u' =>
                obtain ⟨-, split⟩ := List.cons.inj split
                exact first u' v' d split (Nat.lt_of_succ_lt_succ earlier)
          · rintro ⟨u, v, split, phrase, first⟩
            cases u with
            | nil =>
                obtain rfl : c :: r = v := split
                exact absurd phrase (absent digits)
            | cons c' u =>
                obtain ⟨rfl, tail⟩ := List.cons.inj split
                refine ⟨u, v, tail, phrase, ?_⟩
                rintro u' v' d rfl earlier
                exact first (c :: u') v' d rfl (Nat.succ_lt_succ earlier)

/-- A single line is the first one, but for white space at its ends. -/
theorem firstLine_of_unbroken (unbroken : ∀ c ∈ t, isLineBreak c = false) (nonempty : trim t ≠ []) :
    firstLine t = trim t := by
  have present : t ≠ [] := by
    rintro rfl
    exact nonempty rfl
  simp [firstLine, lines_of_unbroken unbroken present, nonempty]

/-- What is read from a first line that is not empty. -/
theorem read_of_firstLine (path : Text) {output line : Text} (first : firstLine output = line)
    (nonempty : line ≠ []) :
    read? path output = ((firstLineNumber? line).elim (some 0) readDigits?).map fun n =>
      ⟨trim (dropPlace path (dropLabel line)), n⟩ := by
  obtain ⟨c, r, rfl⟩ := List.exists_cons_of_ne_nil nonempty
  rw [read?, first]
  dsimp only
  cases firstLineNumber? (c :: r) <;> rfl

/-- Nothing is answered just when the number of the line has too many digits. -/
theorem read_eq_none_iff (path output : Text) :
    read? path output = none ↔
      ∃ digits, NumbersLine (firstLine output) digits ∧ digitLimit < digits.length := by
  simp only [← firstLineNumber_eq_some_iff]
  cases line : firstLine output with
  | nil => simp [read?, line, firstLineNumber?]
  | cons c r =>
      cases number : firstLineNumber? (c :: r) with
      | none => simp [read?, line, number]
      | some digits => simp [read?, line, number, readDigits_eq_none_iff]

end PhpGate.LintReport
