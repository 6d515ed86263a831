import PhpGate.Number.Writing
import PhpGate.Proofs.Text.OneLine

/-!
Written numbers. Whatever the layout, a number is written in a single line.
-/

namespace PhpGate.Binary64

open Text

namespace Decimal

variable {d : Decimal}

theorem isOneLine_withoutTrailingZeros (digits : IsOneLine d.digits) :
    IsOneLine d.withoutTrailingZeros.digits :=
  (digits.reverse.dropWhile _).reverse

theorem isOneLine_zeros (n : Nat) : IsOneLine (List.replicate n '0') := by
  intro c mem
  rw [List.eq_of_mem_replicate mem]
  rfl

theorem isOneLine_positional (digits : IsOneLine d.digits) (showsPoint : Bool) :
    IsOneLine (d.positional showsPoint) := by
  unfold positional
  extract_lets zeros whole fraction
  have whole' : IsOneLine whole := by
    simp only [whole]
    split
    · decide
    · exact (digits.take _).append (isOneLine_zeros _)
  have fraction' : IsOneLine fraction := by
    simp only [fraction]
    split
    · exact (isOneLine_zeros _).append digits
    · exact digits.drop _
  split
  · refine whole'.append ?_
    split
    · decide
    · decide
  · exact (whole'.append (by decide)).append fraction'

theorem isOneLine_exponential (digits : IsOneLine d.digits) : IsOneLine d.exponential := by
  unfold exponential
  extract_lets exponent
  have exponent' : IsOneLine exponent := isOneLine_ofNat _
  refine IsOneLine.append (IsOneLine.append (IsOneLine.append (digits.take 1) ?_) ?_) ?_
  · split
    · exact isOneLine_cons.mpr ⟨rfl, digits.drop 1⟩
    · exact isOneLine_nil
  · split
    · decide
    · decide
  · split
    · exact isOneLine_cons.mpr ⟨rfl, exponent'⟩
    · exact exponent'

theorem isOneLine_layOut (layout : Layout) (digits : IsOneLine d.digits) :
    IsOneLine (d.layOut layout) := by
  rw [layOut]
  split
  · exact isOneLine_exponential digits
  · exact isOneLine_positional digits _

end Decimal

theorem isOneLine_of_mem_neighbours {places num den : Nat} {d : Decimal}
    (mem : d ∈ neighbours places num den) : IsOneLine d.digits := by
  rw [neighbours] at mem
  obtain ⟨q, -, rfl⟩ := List.mem_map.mp mem
  exact isOneLine_ofNat q

theorem isOneLine_writeWith (layout : Layout) {decimal : Nat → Nat → Decimal} (x : Binary64)
    (digits : ∀ num den, IsOneLine (decimal num den).digits) :
    IsOneLine (writeWith layout decimal x) := by
  have sign (negative : Bool) : IsOneLine (if negative then ['-'] else []) := by
    cases negative <;> decide
  cases x with
  | nan => exact (by decide : IsOneLine "nan".toList)
  | infinite negative => exact (sign negative).append (by decide)
  | finite negative m e =>
      rw [writeWith]
      refine (sign negative).append ?_
      split
      · exact Decimal.isOneLine_positional (by decide) _
      · exact Decimal.isOneLine_layOut layout (digits _ _)

theorem isOneLine_general (x : Binary64) : IsOneLine x.general := by
  refine isOneLine_writeWith _ x fun num den => Decimal.isOneLine_withoutTrailingZeros ?_
  cases listed : neighbours 6 num den with
  | nil => exact isOneLine_nil
  | cons d ds => exact isOneLine_of_mem_neighbours (listed ▸ List.mem_cons_self)

end PhpGate.Binary64
