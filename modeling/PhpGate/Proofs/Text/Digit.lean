import PhpGate.Proofs.Text.Letter
import PhpGate.Text.Digit

/-!
Decimal numbers as text. What is written is read again, as far as the limit of digits allows.
-/

namespace PhpGate.Text

variable {t : Text} {c : Char} {n : Nat}

theorem isBlank_of_isDigit (digit : c.isDigit = true) : isBlank c = false := by
  apply isBlank_of_isWord
  apply isWord_of_isAlphanum
  rw [Char.isAlphanum, digit, Bool.or_true]

theorem isDigit_of_mem_ofNat (mem : c ∈ ofNat n) : c.isDigit = true :=
  Nat.isDigit_of_mem_toDigits (by decide) (by decide) mem

theorem digitValue_of_isDigit (digit : c.isDigit = true) :
    digitValue? c = some (c.toNat - '0'.toNat) := by
  have bounds : 48 ≤ c.toNat ∧ c.toNat ≤ 57 := Char.isDigit_iff_toNat.mp digit
  rw [digitValue?, if_pos (by omega), if_pos digit]

theorem foldl_digitValue (digits : ∀ c ∈ t, c.isDigit = true) (n : Nat) :
    t.foldl (fun n c => 10 * n + (digitValue? c).getD 0) n = Nat.ofDigitChars 10 t n := by
  induction t generalizing n with
  | nil => rfl
  | cons c t ih =>
      have first := digitValue_of_isDigit (digits c List.mem_cons_self)
      rw [List.foldl_cons, Nat.ofDigitChars_cons, first]
      exact ih (fun d mem => digits d (List.mem_cons_of_mem c mem)) _

theorem digitsValue_ofNat (n : Nat) : digitsValue (ofNat n) = n := by
  rw [digitsValue, foldl_digitValue fun _ => isDigit_of_mem_ofNat, ofNat,
    Nat.ofDigitChars_ten_toDigits]

theorem isDecimalDigit_ofNat (n : Nat) : (ofNat n).all isDecimalDigit = true := by
  rw [List.all_eq_true]
  intro c mem
  rw [isDecimalDigit, digitValue_of_isDigit (isDigit_of_mem_ofNat mem)]
  rfl

theorem readDigits_eq_none_iff : readDigits? t = none ↔ digitLimit < t.length := by
  simp [readDigits?]

theorem length_ofNat_le_iff (n k : Nat) (positive : 0 < k) :
    (ofNat n).length ≤ k ↔ n < Nat.pow 10 k :=
  Nat.length_toDigits_le_iff (by decide) positive

theorem readDigits_ofNat (readable : n < Nat.pow 10 digitLimit) :
    readDigits? (ofNat n) = some n := by
  have short := (length_ofNat_le_iff n digitLimit (by decide)).mpr readable
  rw [readDigits?, if_pos short, digitsValue_ofNat]

end PhpGate.Text
