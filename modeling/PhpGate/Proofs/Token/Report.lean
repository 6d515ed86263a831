import PhpGate.Proofs.Text.Digit
import PhpGate.Proofs.Text.Pieces
import PhpGate.Token.Report

/-!
The line in a description of a lexical fault. A description ends in the number of its line, and the
report finds that number again unless it has more digits than may be read.
-/

namespace PhpGate

open Text LexicalFault

variable {before m t : Text} {n : Nat}

theorem foldCase_of_isDigit {c : Char} (digit : c.isDigit = true) :
    (foldCase c).isLower = false := by
  rw [← Bool.not_eq_true]
  intro letter
  obtain rfl | rfl | rfl | rfl | alpha := foldCase_cases letter
  · cases digit
  · cases digit
  · cases digit
  · cases digit
  · have range : 48 ≤ c.toNat ∧ c.toNat ≤ 57 := Char.isDigit_iff_toNat.mp digit
    have letter : (c.isUpper || c.isLower) = true := alpha
    rw [Bool.or_eq_true, isUpper_iff, isLower_iff] at letter
    omega

/-- Where no character can begin the phrase, no number is found. -/
theorem splitStartingLine_eq_none (h : ∀ c ∈ t, foldCase c ≠ 's') :
    splitStartingLine before t = none := by
  induction t generalizing before with
  | nil => rfl
  | cons c r ih =>
      obtain ⟨first, later⟩ := List.forall_mem_cons.mp h
      have opens : startingLineDigits? (c :: r) = none := by
        simp [startingLineDigits?, beginsWith, first]
      simp [splitStartingLine, ih later, opens]

/-- The last place counts, whatever stands in front of it. -/
theorem splitStartingLine_append {w digits : Text} {c : Char} (later : ∀ d ∈ w, foldCase d ≠ 's')
    (found : startingLineDigits? (c :: w) = some digits) :
    splitStartingLine before (m ++ c :: w) = some (before.reverse ++ m, digits) := by
  induction m generalizing before with
  | nil => simp [splitStartingLine, splitStartingLine_eq_none later, found]
  | cons d m ih => simp [splitStartingLine, ih]

theorem startingLineDigits_ofNat (n : Nat) :
    startingLineDigits? ('s' :: ("tarting line ".toList ++ ofNat n)) = some (ofNat n) := by
  have digits : (ofNat n).all Char.isDigit = true :=
    List.all_eq_true.mpr fun c mem => isDigit_of_mem_ofNat mem
  have nonempty : ofNat n ≠ [] := Nat.toDigits_ne_nil
  have start : (ofNat n).dropWhile isBlank = ofNat n := by
    obtain ⟨c, r, number⟩ := List.exists_cons_of_ne_nil nonempty
    have digit : c.isDigit = true := isDigit_of_mem_ofNat (number ▸ List.mem_cons_self)
    rw [number, List.dropWhile_cons, isBlank_of_isDigit digit]
    rfl
  have run : (ofNat n).takeWhile Char.isDigit = ofNat n := by
    simpa using takeWhile_append_stop (r := []) digits rfl
  have phrase : startingLineDigits? ('s' :: ("tarting line ".toList ++ ofNat n))
      = let rest := (ofNat n).dropWhile isBlank
        let digits := rest.takeWhile Char.isDigit
        if !digits.isEmpty && (rest.drop digits.length).all isBlank then some digits else none :=
    rfl
  rw [phrase, start]
  simp [run, nonempty]

theorem ofDescription_startingLine (m : Text) (n : Nat) :
    LexicalReport.ofDescription (m ++ startingLine ++ ofNat n)
      = match readDigits? (ofNat n) with
        | some line => .ok ⟨trim (m ++ [' ']), line⟩
        | none => .error .tooManyDigits := by
  have phrase : startingLine = [' '] ++ 's' :: "tarting line ".toList := rfl
  have later : ∀ d ∈ "tarting line ".toList ++ ofNat n, foldCase d ≠ 's' := by
    intro d mem
    obtain letter | digit := List.mem_append.mp mem
    · have letters : ("tarting line ".toList.all fun d => foldCase d != 's') = true := rfl
      exact bne_iff_ne.mp (List.all_eq_true.mp letters d letter)
    · intro same
      have upright := foldCase_of_isDigit (isDigit_of_mem_ofNat digit)
      rw [same] at upright
      cases upright
  have found : splitStartingLine [] (m ++ startingLine ++ ofNat n)
      = some (m ++ [' '], ofNat n) := by
    rw [phrase, ← List.append_assoc, List.append_assoc, List.cons_append]
    exact splitStartingLine_append later (startingLineDigits_ofNat n)
  cases read : readDigits? (ofNat n) <;> simp only [LexicalReport.ofDescription, found, read]

/-- The line that a description ends in is found again, whatever stands in front of it. -/
theorem ofDescription_of_lt (m : Text) {n : Nat} (readable : n < Nat.pow 10 digitLimit) :
    LexicalReport.ofDescription (m ++ startingLine ++ ofNat n) = .ok ⟨trim m, n⟩ := by
  simp only [ofDescription_startingLine, readDigits_ofNat readable]
  rw [trim_append_blank rfl]

theorem ofDescription_of_le (m : Text) {n : Nat} (long : Nat.pow 10 digitLimit ≤ n) :
    LexicalReport.ofDescription (m ++ startingLine ++ ofNat n) = .error .tooManyDigits := by
  have unreadable : readDigits? (ofNat n) = none := by
    rw [readDigits_eq_none_iff, ← Nat.not_le, length_ofNat_le_iff _ _ (by decide), Nat.not_lt]
    exact long
  simp only [ofDescription_startingLine, unreadable]

/-- The report on a text fails just when lexing stops on a line whose number cannot be read. -/
theorem lexicalReport_eq_error_iff :
    lexicalReport? t = .error .tooManyDigits ↔
      ∃ stop, (Lexing.of t).stop? = some stop ∧ Nat.pow 10 digitLimit ≤ stop.line := by
  rw [lexicalReport?]
  cases (Lexing.of t).stop? with
  | none => simp
  | some stop =>
      have described (fault : LexicalFault) : fault.describe stop.line
          = fault.message ++ startingLine ++ ofNat stop.line := rfl
      simp only [described, Option.some.injEq, exists_eq_left']
      by_cases readable : stop.line < Nat.pow 10 digitLimit
      · rw [ofDescription_of_lt _ readable]
        exact iff_of_false nofun (Nat.not_le_of_lt readable)
      · have long := Nat.le_of_not_lt readable
        rw [ofDescription_of_le _ long]
        exact iff_of_true rfl long

end PhpGate
