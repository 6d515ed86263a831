import PhpGate.Proofs.Text.OneLine
import PhpGate.Proofs.Token.Equations
import PhpGate.Proofs.Token.Report
import PhpGate.Proofs.Token.Scan

/-!
The character that lexing stops at. White space is always taken, so it is none, and a report that
shows it is a single line. The report says what the character begins and on which line it stands,
whatever the text of the description holds.
-/

namespace PhpGate

open Text

variable {t : Text} {stop : LexicalStop}

theorem Lexes.stuck {before t rest : Text} {ls : List Lexeme} (h : Lexes before t ls rest) :
    Terminal.first? ((ls.flatMap Lexeme.text).reverse ++ before) rest = none := by
  induction h with
  | stop stuck => exact stuck
  | take _ _ ih => simpa using ih

/-- At the offset where lexing stops its character stands. -/
theorem drop_offset_of_stop (stopped : (Lexing.of t).stop? = some stop) :
    ∃ r, (Lexing.of t).rest = stop.char :: r ∧ t.drop stop.offset = stop.char :: r := by
  obtain ⟨c, first, rfl⟩ := Option.map_eq_some_iff.mp stopped
  obtain ⟨r, rest⟩ := List.head?_eq_some_iff.mp first
  have whole := (Lexes.of t).eq_append
  refine ⟨r, rest, ?_⟩
  rw [← rest]
  exact (congrArg (List.drop _) whole).trans List.drop_left

/-- The lexemes cover what stands in front of the place where lexing stops. -/
theorem take_offset_of_stop (stopped : (Lexing.of t).stop? = some stop) :
    t.take stop.offset = (Lexing.of t).consumed := by
  obtain ⟨c, -, rfl⟩ := Option.map_eq_some_iff.mp stopped
  exact (congrArg (List.take _) (Lexes.of t).eq_append).trans List.take_left

/-- The line where lexing stops counts the line feeds in front of that place. -/
theorem line_of_stop (stopped : (Lexing.of t).stop? = some stop) :
    stop.line = 1 + newlines (t.take stop.offset) := by
  rw [take_offset_of_stop stopped]
  obtain ⟨c, -, rfl⟩ := Option.map_eq_some_iff.mp stopped
  exact Nat.add_comm _ _

theorem isBlank_stop (stopped : (Lexing.of t).stop? = some stop) : isBlank stop.char = false := by
  obtain ⟨r, rest, -⟩ := drop_offset_of_stop stopped
  have stuck := Terminal.first_eq_none_iff.mp (Lexes.of t).stuck
  rw [← Bool.not_eq_true]
  intro blank
  have taken (before : Text) : Terminal.length? before (Lexing.of t).rest .blank
      = some (blankLength (Lexing.of t).rest) := by
    rw [Terminal.blank_eq_some_iff, rest, blankLength, List.takeWhile_cons_of_pos blank]
    exact ⟨rfl, Nat.succ_pos _⟩
  cases (stuck _).symm.trans (taken _)

/-- What is said where lexing stops at a character in front of a text. -/
def stopMessage (c : Char) (r : Text) : Text :=
  if c = '/' ∧ r.head? = some '*' then "Unterminated comment".toList
  else if c = '\'' ∨ c = '"' ∨ c = '\x60' then "Unterminated string".toList
  else "Unexpected character in input: '".toList ++ [c] ++ "' (ASCII=".toList ++ ofNat c.toNat
    ++ ")".toList

namespace LexicalFault

theorem message_ofOffset_stop {r : Text} (stopped : (Lexing.of t).stop? = some stop)
    (rest : (Lexing.of t).rest = stop.char :: r) :
    (ofOffset t (some stop.offset) [stop.char]).message = stopMessage stop.char r := by
  obtain ⟨r', rest', here⟩ := drop_offset_of_stop stopped
  obtain rfl : r = r' := (List.cons.inj (rest.symm.trans rest')).2
  have within : stop.offset < t.length := by
    have length := congrArg List.length here
    rw [List.length_drop, List.length_cons] at length
    omega
  have inside : ((some (stop.offset : Int)).filter fun k => 0 ≤ k && k < (t.length : Int))
      = some (stop.offset : Int) := by simp [within]
  rw [ofOffset, inside]
  simp only [Int.toNat_natCast, here, ofCharacter, stopMessage, Bool.and_eq_true, beq_iff_eq]
  split
  · rfl
  · split <;> rfl

end LexicalFault

theorem trim_stopMessage (c : Char) (r : Text) : trim (stopMessage c r) = stopMessage c r := by
  rw [stopMessage]
  split
  · rfl
  · split
    · rfl
    · refine trim_of_ends rfl ?_
      rw [List.getLast?_append]
      rfl

theorem isOneLine_stopMessage {c : Char} (visible : isBlank c = false) (r : Text) :
    IsOneLine (stopMessage c r) := by
  rw [stopMessage]
  split
  · decide
  · split
    · decide
    · exact ((((by decide : IsOneLine _).append (isOneLine_singleton visible)).append
        (by decide)).append (isOneLine_ofNat _)).append (by decide)

/-- The report on a text at which lexing stops. -/
theorem lexicalReport_of_stop {r : Text} (stopped : (Lexing.of t).stop? = some stop)
    (rest : (Lexing.of t).rest = stop.char :: r) :
    lexicalReport? t = if stop.line < Nat.pow 10 digitLimit
      then .ok (some ⟨stopMessage stop.char r, stop.line⟩) else .error .tooManyDigits := by
  have described (fault : LexicalFault) : fault.describe stop.line
      = fault.message ++ LexicalFault.startingLine ++ ofNat stop.line := rfl
  rw [lexicalReport?, stopped]
  simp only [described, LexicalFault.message_ofOffset_stop stopped rest]
  split
  · rename_i readable
    rw [ofDescription_of_lt _ readable, trim_stopMessage]
    rfl
  · rename_i long
    rw [ofDescription_of_le _ (Nat.le_of_not_lt long)]
    rfl

/-- A report on a text that the lexer does not consume is a single line. -/
theorem isOneLine_lexicalReport {report : LexicalReport}
    (reported : lexicalReport? t = .ok (some report)) : IsOneLine report.message := by
  cases stopped : (Lexing.of t).stop? with
  | none =>
      rw [lexicalReport?, stopped] at reported
      cases reported
  | some stop =>
      obtain ⟨r, rest, -⟩ := drop_offset_of_stop stopped
      rw [lexicalReport_of_stop stopped rest] at reported
      split at reported
      · cases reported
        exact isOneLine_stopMessage (isBlank_stop stopped) r
      · cases reported

/-- A report is exact. A line below the limit is split off from the end of any description. Where
the lexer does not consume a text, no terminal matches at the place where it stops, and the report
says what stands there and counts the line feeds in front of it. -/
theorem lexicalReport_of_incomplete :
    (∀ (m : Text) (n : Nat), n < Nat.pow 10 digitLimit →
      LexicalReport.ofDescription (m ++ " starting line ".toList ++ ofNat n)
        = .ok ⟨trim m, n⟩) ∧
    ∀ t : Text, (Lexing.of t).complete = false →
      let front := (Lexing.of t).consumed
      let line := 1 + newlines front
      ∃ c r, t = front ++ c :: r ∧ Terminal.first? front.reverse (c :: r) = none ∧
        lexicalReport? t = if line < Nat.pow 10 digitLimit
          then .ok (some ⟨stopMessage c r, line⟩) else .error .tooManyDigits := by
  refine ⟨fun m n readable => ofDescription_of_lt m readable, fun t incomplete => ?_⟩
  have rest : (Lexing.of t).rest ≠ [] := by
    simpa [Lexing.complete] using incomplete
  obtain ⟨c, r, rest⟩ := List.exists_cons_of_ne_nil rest
  have stopped : (Lexing.of t).stop?
      = some ⟨c, (Lexing.of t).consumed.length, 1 + newlines (Lexing.of t).consumed⟩ := by
    rw [Lexing.stop?, rest, Nat.add_comm]
    rfl
  have report := lexicalReport_of_stop stopped rest
  refine ⟨c, r, ?_, ?_, report⟩
  · rw [← rest]
    exact (Lexes.of t).eq_append
  · have stuck := (Lexes.of t).stuck
    rwa [rest, List.append_nil] at stuck

/-- A description that names a line within, and a comment that is not closed. -/
theorem lexicalReport_comment :
    LexicalReport.ofDescription ("at starting line 7 ".toList ++ " starting line ".toList ++ ofNat 9)
        = .ok ⟨"at starting line 7".toList, 9⟩ ∧
      lexicalReport? "<?php\n$a /* b".toList = .ok (some ⟨"Unterminated comment".toList, 2⟩) := by
  have small : 9 < Nat.pow 10 digitLimit :=
    (length_ofNat_le_iff 9 digitLimit (by decide)).mp (by decide)
  refine ⟨lexicalReport_of_incomplete.1 _ 9 small, ?_⟩
  obtain ⟨c, r, whole, -, report⟩ :=
    lexicalReport_of_incomplete.2 "<?php\n$a /* b".toList (by decide +kernel)
  have front : (Lexing.of "<?php\n$a /* b".toList).consumed = "<?php\n$a ".toList := by
    decide +kernel
  rw [front] at whole report
  cases whole
  have readable : 1 + newlines "<?php\n$a ".toList < Nat.pow 10 digitLimit :=
    Nat.lt_trans (by decide) small
  rw [report, if_pos readable]
  rfl

end PhpGate
