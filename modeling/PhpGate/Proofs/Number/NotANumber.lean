import PhpGate.Number.Reading
import PhpGate.Proofs.Text.Letter

/-!
The numbers that are not a number. Rounding gives none, so no numeral is read as one and no whole
number becomes one: a text is read as such only if it spells the word, with a sign or without.
-/

namespace PhpGate.Binary64

open Text

variable {t u : Text} {c : Char} {afterDigit : Bool} {x : Binary64}

theorem isPositive_iff : x.isPositive = true ↔ x.isNonPositive = false ∧ x ≠ nan := by
  cases x with
  | nan => simp [isPositive]
  | infinite negative => simp [isPositive, isNonPositive]
  | finite negative m e => simp [isPositive, isNonPositive]

theorem zero_ne_nan (negative : Bool) : zero negative ≠ nan := by
  rw [zero]
  rintro ⟨⟩

theorem round_ne_nan (negative : Bool) (num den : Nat) : round negative num den ≠ nan := by
  have rounded (large : Prop) [Decidable large] (q : Nat) (e : Int) :
      (if large then infinite negative
        else if q = 0 then zero negative else finite negative q e) ≠ nan := by
    split
    · rintro ⟨⟩
    · split
      · exact zero_ne_nan negative
      · rintro ⟨⟩
  rw [round]
  split
  · exact zero_ne_nan negative
  · exact rounded _ _ _

theorem ofInt_ne_nan (n : Int) : ofInt n ≠ nan :=
  round_ne_nan _ _ _

theorem ofDecimal_ne_nan (negative : Bool) (m : Nat) (e : Int) : ofDecimal negative m e ≠ nan := by
  rw [ofDecimal]
  dsimp only
  split
  · exact zero_ne_nan negative
  · split
    · rintro ⟨⟩
    · exact round_ne_nan _ _ _

/-- An underscore leaves a digit behind it, so without digits none has been dropped. -/
theorem eq_of_dropUnderscores (kept : dropUnderscores afterDigit t = some u)
    (undigited : ∀ c ∈ u, c.isDigit = false) : t = u := by
  fun_induction dropUnderscores afterDigit t generalizing u with
  | case1 => exact Option.some.inj kept
  | case2 afterDigit c r digits ih =>
      obtain ⟨w, -, rfl⟩ := Option.map_eq_some_iff.mp kept
      rw [Bool.and_eq_true, undigited c List.mem_cons_self] at digits
      cases digits.2
  | case3 => cases kept
  | case4 => cases kept
  | case5 afterDigit c r _ _ ih =>
      obtain ⟨w, rest, rfl⟩ := Option.map_eq_some_iff.mp kept
      rw [ih rest fun d mem => undigited d (List.mem_cons_of_mem c mem)]

theorem dropUnderscores_of_not_mem (free : '_' ∉ t) : dropUnderscores afterDigit t = some t := by
  fun_induction dropUnderscores afterDigit t with
  | case1 => rfl
  | case2 | case3 | case4 => exact absurd List.mem_cons_self free
  | case5 afterDigit c r _ _ ih =>
      rw [ih fun mem => free (List.mem_cons_of_mem c mem)]
      rfl

/-- A text is the word for what is not a number, with a sign or without, in any case. -/
def spellsNan (t : Text) : Bool :=
  (splitSign (bareNumeral t)).2.map Char.toLower == "nan".toList

theorem mem_splitSign (mem : c ∈ t) : c = '-' ∨ c = '+' ∨ c ∈ (splitSign t).2 := by
  fun_cases splitSign t with
  | case1 r => exact (List.mem_cons.mp mem).imp_right .inr
  | case2 r => exact .inr (List.mem_cons.mp mem)
  | case3 => exact .inr (.inr mem)

/-- Behind the sign of a word there are no digits and no underscores. -/
theorem plain_of_spelled (spelled : (splitSign t).2.map Char.toLower = "nan".toList) (mem : c ∈ t) :
    c.isDigit = false ∧ c ≠ '_' := by
  obtain rfl | rfl | letter := mem_splitSign mem
  · decide
  · decide
  · have lower : c.toLower ∈ "nan".toList := spelled ▸ List.mem_map_of_mem letter
    have word : "nan".toList.all Char.isLower = true := by decide
    have isLower : c.toLower.isLower = true := List.all_eq_true.mp word _ lower
    have alpha := isAlpha_of_isLower_toLower isLower
    refine ⟨?_, ?_⟩
    · have bounds := Bool.or_eq_true_iff.mp alpha
      rw [isUpper_iff, isLower_iff] at bounds
      rw [← Bool.not_eq_true]
      intro digit
      have decimal : 48 ≤ c.toNat ∧ c.toNat ≤ 57 := Char.isDigit_iff_toNat.mp digit
      omega
    · rintro rfl
      cases alpha

/-- A text is read as what is not a number if it spells the word for it, and only then. -/
theorem read_eq_nan_iff : read? t = some nan ↔ spellsNan t = true := by
  rw [spellsNan, beq_iff_eq, read?, Option.bind_eq_some_iff]
  dsimp only
  constructor
  · rintro ⟨u, kept, found⟩
    split at found
    · rename_i spelled
      rw [eq_of_dropUnderscores kept fun c mem => (plain_of_spelled spelled mem).1]
      exact spelled
    · split at found
      · cases found
      · obtain ⟨n, -, value⟩ := Option.map_eq_some_iff.mp found
        exact absurd value (ofDecimal_ne_nan _ _ _)
  · intro spelled
    refine ⟨_, dropUnderscores_of_not_mem fun mem => (plain_of_spelled spelled mem).2 rfl, ?_⟩
    rw [if_pos spelled]

end PhpGate.Binary64
