import PhpGate.Json.Reading
import PhpGate.Json.Writing

/-!
A quoted text is read back as it was, whether or not the characters beyond ASCII are escaped, and
whatever follows the closing quote.
-/

namespace PhpGate.Json

open Text

theorem hexDigit_digitChar : ∀ d < 16, hexDigit? (Nat.digitChar d) = some d := by
  decide

theorem hexDigits_four {n : Nat} (bound : n < 0x10000) :
    hexDigits 4 n = [Nat.digitChar (n / 16 / 16 / 16), Nat.digitChar (n / 16 / 16 % 16),
      Nat.digitChar (n / 16 % 16), Nat.digitChar (n % 16)] := by
  have last {m : Nat} (large : 16 ≤ m) := Nat.toDigits_of_base_le (b := 16) (by decide) large
  have only {m : Nat} (small : m < 16) := Nat.toDigits_of_lt_base (b := 16) small
  unfold hexDigits
  by_cases one : n < 16
  · rw [only one, show n / 16 = 0 by omega, Nat.mod_eq_of_lt one]
    rfl
  rw [last (Nat.le_of_not_lt one)]
  by_cases two : n / 16 < 16
  · rw [only two, show n / 16 / 16 = 0 by omega, Nat.mod_eq_of_lt two]
    rfl
  rw [last (Nat.le_of_not_lt two)]
  by_cases three : n / 16 / 16 < 16
  · rw [only three, show n / 16 / 16 / 16 = 0 by omega, Nat.mod_eq_of_lt three]
    rfl
  rw [last (Nat.le_of_not_lt three), only (by omega)]
  rfl

theorem readUnit_hexDigits {n : Nat} (bound : n < 0x10000) (r : Text) :
    readUnit? (hexDigits 4 n ++ r) = some (n, r) := by
  have first := hexDigit_digitChar (n / 16 / 16 / 16) (by omega)
  have second := hexDigit_digitChar (n / 16 / 16 % 16) (Nat.mod_lt _ (by decide))
  have third := hexDigit_digitChar (n / 16 % 16) (Nat.mod_lt _ (by decide))
  have fourth := hexDigit_digitChar (n % 16) (Nat.mod_lt _ (by decide))
  have value : ((n / 16 / 16 / 16 * 16 + n / 16 / 16 % 16) * 16 + n / 16 % 16) * 16 + n % 16 = n := by
    omega
  simp only [hexDigits_four bound, List.cons_append, List.nil_append, readUnit?, first, second,
    third, fourth, Option.bind_eq_bind, Option.bind_some, value, Option.pure_def]

theorem readEscape_unit {n : Nat} (bound : n < 0xd800 ∨ 0xe000 ≤ n ∧ n < 0x10000) (r : Text) :
    readEscape? ('u' :: (hexDigits 4 n ++ r)) = some (Char.ofNat n, r) := by
  rw [readEscape?, readUnit_hexDigits (by omega), Option.bind_some]
  dsimp only
  rw [if_neg (by omega), if_neg (by omega)]

theorem readEscape_pair {high low : Nat} (high_bounds : 0xd800 ≤ high ∧ high < 0xdc00)
    (low_bounds : 0xdc00 ≤ low ∧ low < 0xe000) (r : Text) :
    readEscape? ('u' :: (hexDigits 4 high ++ '\\' :: 'u' :: (hexDigits 4 low ++ r)))
      = some (Char.ofNat (0x10000 + (high - 0xd800) * 0x400 + (low - 0xdc00)), r) := by
  rw [readEscape?, readUnit_hexDigits (by omega), Option.bind_some]
  simp only [if_pos high_bounds, readUnit_hexDigits (n := low) (by omega), Option.bind_some,
    if_pos low_bounds]

theorem unicodeEscape_append (n : Nat) (r : Text) :
    unicodeEscape n ++ r = '\\' :: ('u' :: (hexDigits 4 n ++ r)) :=
  rfl

theorem toNat_bounds (c : Char) : c.toNat < 0xd800 ∨ 0xe000 ≤ c.toNat ∧ c.toNat < 0x110000 := by
  obtain small | ⟨large, bound⟩ := c.valid
  · exact .inl small
  · exact .inr ⟨large, bound⟩

theorem readEscape_char {c : Char} (bound : c.toNat < 0x10000) (r : Text) :
    readEscape? ('u' :: (hexDigits 4 c.toNat ++ r)) = some (c, r) := by
  have bounds := toNat_bounds c
  rw [readEscape_unit (by omega), Char.ofNat_toNat]

theorem escapeBeyondAscii_append (c : Char) (r : Text) :
    ∃ e, escapeBeyondAscii c ++ r = '\\' :: e ∧ readEscape? e = some (c, r) := by
  unfold escapeBeyondAscii
  split
  · next bound => exact ⟨_, unicodeEscape_append _ _, readEscape_char bound r⟩
  · next beyond =>
      have bounds := toNat_bounds c
      have value : 0x10000 + (0xd800 + (c.toNat - 0x10000) / 0x400 - 0xd800) * 0x400
          + (0xdc00 + (c.toNat - 0x10000) % 0x400 - 0xdc00) = c.toNat := by
        omega
      rw [List.append_assoc, unicodeEscape_append, unicodeEscape_append]
      refine ⟨_, rfl, ?_⟩
      rw [readEscape_pair (by omega) (by omega), value, Char.ofNat_toNat]

/-- An escaped character is read back, and the rest of the string after it. -/
theorem readString_escapeChar (ascii : Bool) (c : Char) (fuel : Nat) (r : Text) :
    readString? (fuel + 1) (escapeChar ascii c ++ r)
      = (readString? fuel r).map fun s => (c :: s.1, s.2) := by
  have escaped {e : Text} (h : readEscape? e = some (c, r)) :
      readString? (fuel + 1) ('\\' :: e) = (readString? fuel r).map fun s => (c :: s.1, s.2) := by
    simp only [readString?, h, Option.bind_eq_bind, Option.bind_some, Option.pure_def,
      Option.map_eq_bind]
    rfl
  unfold escapeChar
  split
  · exact escaped rfl
  · exact escaped rfl
  · exact escaped rfl
  · exact escaped rfl
  · exact escaped rfl
  · exact escaped rfl
  · exact escaped rfl
  · next notQuote notBackslash _ _ _ _ _ =>
      split
      · next control =>
          rw [unicodeEscape_append]
          exact escaped (readEscape_char (Nat.lt_trans control (by decide)) r)
      · next notControl =>
          split
          · obtain ⟨e, written, read⟩ := escapeBeyondAscii_append c r
            rw [written]
            exact escaped read
          · rw [List.cons_append, List.nil_append, readString?, if_neg notControl]
            · simp only [Option.bind_eq_bind, Option.pure_def, Option.map_eq_bind]
              rfl
            · exact notQuote
            · exact notBackslash

theorem readString_quoted (ascii : Bool) (t : Text) (fuel : Nat) (enough : t.length < fuel)
    (r : Text) :
    readString? fuel (t.flatMap (escapeChar ascii) ++ '"' :: r) = some (t, r) := by
  induction t generalizing fuel with
  | nil =>
      obtain ⟨fuel, rfl⟩ := Nat.exists_eq_add_of_lt enough
      rfl
  | cons c t ih =>
      obtain ⟨fuel, rfl⟩ := Nat.exists_eq_add_of_lt enough
      rw [List.flatMap_cons, List.append_assoc, readString_escapeChar,
        ih _ (by rw [List.length_cons]; omega)]
      rfl

end PhpGate.Json
