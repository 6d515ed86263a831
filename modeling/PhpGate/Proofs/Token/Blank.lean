import PhpGate.Proofs.Token.Context

/-!
White space between tokens. White space that starts no name is always taken as a blank, and nothing
else is; so a blank is told by its first character.
-/

namespace PhpGate

open Text

/-- White space that starts no name. -/
def isSpace (c : Char) : Bool :=
  isBlank c && !isIdentifierStart c

variable {before r t : Text} {c : Char} {n : Nat}

theorem isSpace_cases (h : isSpace c = true) :
    c ∈ ['\t', '\n', '\x0b', '\x0c', '\r', '\x1c', '\x1d', '\x1e', '\x1f', ' '] := by
  simp only [isSpace, isBlank, inRanges, isIdentifierStart, List.any_cons, List.any_nil,
    Bool.or_false, Bool.and_eq_true, Bool.or_eq_true, decide_eq_true_eq, Bool.not_eq_true',
    Bool.or_eq_false_iff, Bool.and_eq_false_iff, decide_eq_false_iff_not] at h
  have code : c.toNat ∈ [9, 10, 11, 12, 13, 28, 29, 30, 31, 32] := by
    simp only [List.mem_cons, List.not_mem_nil, or_false]
    omega
  have named : c = Char.ofNat c.toNat := (Char.ofNat_toNat c).symm
  rw [named]
  generalize c.toNat = n at code
  simp only [List.mem_cons, List.not_mem_nil, or_false] at code
  obtain rfl | rfl | rfl | rfl | rfl | rfl | rfl | rfl | rfl | rfl := code <;> decide

theorem first_of_isSpace (h : isSpace c = true) :
    Terminal.first? before (c :: r) = some (.blank, blankLength (c :: r)) := by
  have cases := isSpace_cases h
  simp only [List.mem_cons, List.not_mem_nil, or_false] at cases
  obtain rfl | rfl | rfl | rfl | rfl | rfl | rfl | rfl | rfl | rfl := cases <;>
  · rw [Terminal.first_of_plain before (by decide) (by decide)]
    rfl

theorem isSpace_of_first_blank (h : Terminal.first? before t = some (.blank, n)) :
    t.head?.any isSpace = true ∧ n = blankLength t := by
  obtain ⟨-, -, -, found, -⟩ := Terminal.first_eq_some_iff.mp h
  obtain ⟨rfl, pos⟩ := Terminal.blank_eq_some_iff.mp found
  refine ⟨?_, rfl⟩
  cases t with
  | nil => cases pos
  | cons c r =>
      have blank : isBlank c = true := by
        cases hc : isBlank c with
        | true => rfl
        | false => simp [blankLength, hc] at pos
      have name : nameLength? (c :: r) = none :=
        Terminal.length_eq_none_of_first h (show Terminal.name ∈ _ by decide)
      have plain : c ≠ '\\' := by
        rintro rfl
        cases blank
      have unnamed : isIdentifierStart c = false := by
        simpa [nameLength_cons, plain] using name
      simp [isSpace, blank, unnamed]

/-- Nothing but a blank is taken where white space starts that starts no name. -/
theorem not_isSpace_of_first {k : Terminal} (h : Terminal.first? before (c :: r) = some (k, n))
    (token : k ≠ .blank) : isSpace c = false := by
  cases space : isSpace c with
  | false => rfl
  | true =>
      rw [first_of_isSpace space] at h
      cases h
      contradiction

end PhpGate
