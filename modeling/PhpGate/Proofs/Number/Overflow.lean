import PhpGate.Number.Binary64

/-!
Whole numbers that are too large for a floating-point number. They are those from half way between
the greatest finite one and the next power of two on, as a tie goes to the even significand.
-/

namespace PhpGate.Binary64

variable {negative : Bool} {m : Nat}

theorem scale_natCast (base m k : Nat) : scale base m k = (m * Nat.pow base k, 1) := by
  rw [scale, if_pos (Int.natCast_nonneg k), Int.toNat_natCast]

/-- The last place of a whole number is 52 binary places behind its first. -/
theorem lastPlace_one (positive : m ≠ 0) : lastPlace m 1 = (Nat.log2 m : Int) - 52 := by
  have size : Nat.pow 2 (Nat.log2 m) ≤ m := Nat.log2_self_le positive
  have one : Nat.log2 1 = 0 := rfl
  have first : (Nat.log2 m : Int) - Nat.log2 1 - 53 + 53 = Nat.log2 m := by omega
  rw [lastPlace]
  simp only [first, scale_natCast, Nat.one_mul, Nat.mul_one, if_pos size, leastExponent]
  omega

/-- A number is rounded to an infinity when its exponent is too large once its significand has been
rounded. -/
theorem round_infinite_iff {num den : Nat} (positive : num ≠ 0) :
    (∃ b, round negative num den = .infinite b) ↔
      greatestExponent <
        if roundQuotient (num * (scale 2 1 (lastPlace num den)).2)
            (den * (scale 2 1 (lastPlace num den)).1) = 2 * leastNormal
        then lastPlace num den + 1 else lastPlace num den := by
  have finite (large : Prop) [Decidable large] (q : Nat) (e : Int) :
      (∃ b, (if large then infinite negative
        else if q = 0 then zero negative else finite negative q e) = .infinite b) ↔ large := by
    split
    · exact iff_of_true ⟨negative, rfl⟩ ‹_›
    · refine iff_of_false ?_ ‹_›
      rintro ⟨b, found⟩
      split at found <;> cases found
  rw [round, if_neg positive]
  dsimp only
  rw [finite]
  split <;> rfl

/-- Below an even number of divisors, a quotient is rounded up to it from half a divisor on. -/
theorem roundQuotient_eq_iff {q half : Nat} (odd : q % 2 = 1) (positive : 0 < half)
    (below : m < (q + 1) * (2 * half)) :
    roundQuotient m (2 * half) = q + 1 ↔ q * (2 * half) + half ≤ m := by
  have split : m / (2 * half) * (2 * half) + m % (2 * half) = m := Nat.div_add_mod' m (2 * half)
  have rest : m % (2 * half) < 2 * half := Nat.mod_lt m (by omega)
  have within : m / (2 * half) < q + 1 := Nat.div_lt_of_lt_mul (by rwa [Nat.mul_comm])
  rw [roundQuotient]
  obtain here | lower := Nat.lt_succ_iff_lt_or_eq.mp within |>.symm
  · rw [here] at split ⊢
    split <;> omega
  · have gap : (m / (2 * half) + 1) * (2 * half) ≤ q * (2 * half) :=
      Nat.mul_le_mul_right _ lower
    rw [Nat.succ_mul] at gap
    split <;> omega

/-- The least whole number that is rounded to an infinity. It lies half way between the greatest
finite number, `(2 ^ 53 - 1) * 2 ^ 971`, and the next power of two. -/
def overflow : Nat :=
  (4 * leastNormal - 1) * Nat.pow 2 970

theorem ofInt_infinite_iff (n : Int) :
    (∃ b, ofInt n = .infinite b) ↔ overflow ≤ n.natAbs := by
  -- powers of two by a name of their own, since the exponents are too large for evaluation
  obtain ⟨pow, named⟩ : ∃ pow, pow = Nat.pow 2 := ⟨_, rfl⟩
  have scaled (m k : Nat) : scale 2 m k = (m * pow k, 1) := by rw [named, scale_natCast]
  have power (k l e c : Nat) (sum : e = k + l) (count : Nat.pow 2 k = c) : pow e = c * pow l := by
    rw [sum, ← count, named]
    exact Nat.pow_add 2 k l
  have mono {a b : Nat} (le : a ≤ b) : pow a ≤ pow b := by
    rw [named]
    exact Nat.pow_le_pow_right (by decide) le
  have limit : overflow = (4 * leastNormal - 1) * pow 970 := by rw [named, overflow]
  have nonzero (k : Nat) : 0 < pow k := by
    rw [named]
    exact Nat.two_pow_pos k
  have place := power 1 970 971 2 rfl rfl
  have half := power 53 970 1023 (2 * leastNormal) rfl rfl
  have top := power 54 970 1024 (4 * leastNormal) rfl rfl
  rw [ofInt, limit]
  generalize n.natAbs = m
  by_cases zeroth : m = 0
  · rw [zeroth]
    have positive := Nat.mul_pos (show 0 < 4 * leastNormal - 1 by decide) (nonzero 970)
    exact iff_of_false (fun ⟨b, found⟩ => by cases found) (Nat.not_le_of_lt positive)
  have low : pow (Nat.log2 m) ≤ m := by
    rw [named]
    exact Nat.log2_self_le zeroth
  have high : m < pow (Nat.log2 m + 1) := by
    rw [named]
    exact Nat.lt_log2_self
  rw [round_infinite_iff zeroth, lastPlace_one zeroth]
  obtain short | exact | long := Nat.lt_trichotomy (Nat.log2 m) 1023
  · have bound := mono (show Nat.log2 m + 1 ≤ 1023 from short)
    refine iff_of_false ?_ ?_
    · rw [greatestExponent]
      split <;> omega
    · rw [leastNormal] at half ⊢
      omega
  · have exponent : (Nat.log2 m : Int) - 52 = (971 : Nat) := by omega
    have bound := mono (show Nat.log2 m + 1 ≤ 1024 from Nat.succ_le_succ (Nat.le_of_eq exact))
    have below : m < (2 * leastNormal - 1 + 1) * (2 * pow 970) := by
      rw [leastNormal] at top ⊢
      omega
    simp only [exponent, scaled, Nat.mul_one, Nat.one_mul, place]
    calc greatestExponent < (if roundQuotient m (2 * pow 970) = 2 * leastNormal
            then ((971 : Nat) : Int) + 1 else (971 : Nat))
        ↔ roundQuotient m (2 * pow 970) = 2 * leastNormal := by
          rw [greatestExponent]
          split
          · exact iff_of_true (by decide) ‹_›
          · exact iff_of_false (by decide) ‹_›
      _ ↔ (2 * leastNormal - 1) * (2 * pow 970) + pow 970 ≤ m :=
          roundQuotient_eq_iff (by decide) (nonzero 970) below
      _ ↔ (4 * leastNormal - 1) * pow 970 ≤ m := by
          rw [leastNormal]
          omega
  · have bound := mono (show 1024 ≤ Nat.log2 m from long)
    refine iff_of_true ?_ ?_
    · rw [greatestExponent]
      split <;> omega
    · rw [leastNormal] at top ⊢
      omega

end PhpGate.Binary64
