import PhpGate.Proofs.Token.Joining

/-!
How far a number reaches in front of another text. Behind its digits come letters or a fraction, and
behind those an exponent, which counts only if it has digits.
-/

namespace PhpGate

open Text

variable {w v X : Text} {c : Char}

/-- The letters that an exponent begins with. -/
def isExponent (c : Char) : Bool :=
  c == 'e' || c == 'E'

theorem exponentLength_eq_zero (plain : X.head?.any isExponent = false) : exponentLength X = 0 := by
  cases X with
  | nil => rfl
  | cons c X =>
      have other : (c == 'e' || c == 'E') = false := plain
      simp [exponentLength, other]

/-- Digits that are counted only where there are some. -/
theorem digits_iff (exponent : Bool) {k : Nat} (pos : 0 < k) :
    (if exponent && ((v ++ X).takeWhile isDecimalDigit).length != 0
        then k + ((v ++ X).takeWhile isDecimalDigit).length else 0) = k + v.length ↔
      (exponent = true ∧ v ≠ [] ∧ v.all isDecimalDigit = true) ∧
        X.head?.any isDecimalDigit = false := by
  have taken := length_takeWhile_append_iff (v := v) (X := X) (p := isDecimalDigit)
  generalize ((v ++ X).takeWhile isDecimalDigit).length = n at taken
  rw [and_assoc, and_assoc, ← taken, ← List.length_pos_iff]
  cases exponent with
  | false => simp; omega
  | true =>
      by_cases none : n = 0
      · simp [none]; omega
      · simp [none]; omega

/-- What is left of an exponent behind its letter and its sign. -/
def unsigned : Text → Text
  | [] => []
  | s :: u => if s == '+' || s == '-' then u else s :: u

/-- An exponent ends with its digits. -/
theorem exponentLength_iff {u : Text} (nonempty : u ≠ []) :
    exponentLength (c :: (u ++ X)) = u.length + 1 ↔
      (isExponent c = true ∧ unsigned u ≠ [] ∧ (unsigned u).all isDecimalDigit = true) ∧
        X.head?.any isDecimalDigit = false := by
  obtain ⟨s, u, rfl⟩ := List.exists_cons_of_ne_nil nonempty
  have head (r : Text) : ((s :: r).head? == some '+' || (s :: r).head? == some '-')
      = (s == '+' || s == '-') := rfl
  rw [exponentLength, List.cons_append, head, unsigned]
  cases signed : s == '+' || s == '-' with
  | true =>
      rw [if_pos rfl, if_pos rfl]
      have digits := digits_iff (v := u) (X := X) (k := 2) (isExponent c) (by decide)
      rw [← digits, List.length_cons, Nat.add_comm 2 u.length]
      rfl
  | false =>
      rw [if_neg Bool.false_ne_true, if_neg Bool.false_ne_true]
      have digits := digits_iff (v := s :: u) (X := X) (k := 1) (isExponent c) (by decide)
      rw [← digits, Nat.add_comm 1 (s :: u).length]
      rfl

/-- An exponent has at least a letter and a digit. -/
theorem exponentLength_ne_one (t : Text) : exponentLength t ≠ 1 := by
  cases t with
  | nil => exact Nat.zero_ne_one
  | cons e r =>
      simp only [exponentLength]
      generalize (if r.head? == some '+' || r.head? == some '-' then 1 else 0) = sign
      split
      · rename_i exponent
        have digits := bne_iff_ne.mp (Bool.and_eq_true_iff.mp exponent).2
        omega
      · exact Nat.zero_ne_one

/-- The digits behind the point of a number, with the exponent behind them. -/
def fractionTail (t : Text) : Nat :=
  (t.takeWhile isDecimalDigit).length + exponentLength (t.drop (t.takeWhile isDecimalDigit).length)

/-- What follows the first digit of a number. -/
def numberTail (t : Text) : Nat :=
  let whole := (t.takeWhile isWord).length
  let fraction := fractionLength (t.drop whole)
  whole + fraction + exponentLength (t.drop (whole + fraction))

theorem lt_length_takeWhile {p : Char → Bool} (all : v.all p = true) (goesOn : X.head?.any p = true) :
    v.length < ((v ++ X).takeWhile p).length := by
  cases X with
  | nil => cases goesOn
  | cons c X =>
      rw [List.takeWhile_append_of_pos (List.all_eq_true.mp all),
        List.takeWhile_cons_of_pos (by simpa using goesOn), List.length_append, List.length_cons]
      omega

theorem fractionTail_append {digits : Text} (all : digits.all isDecimalDigit = true)
    (stop : X.head?.any isDecimalDigit = false) :
    fractionTail (digits ++ X) = digits.length + exponentLength X := by
  rw [fractionTail, takeWhile_append_stop all stop, List.drop_left]

theorem fractionTail_append_iff (plain : X.head?.any isExponent = false) :
    fractionTail (v ++ X) = v.length ↔
      fractionTail v = v.length ∧ X.head?.any isDecimalDigit = false := by
  have all : (v.takeWhile isDecimalDigit).all isDecimalDigit = true := List.all_takeWhile
  have stop := any_head_dropWhile isDecimalDigit v
  rw [← List.takeWhile_append_dropWhile (l := v) (p := isDecimalDigit)]
  generalize v.takeWhile isDecimalDigit = digits at all
  generalize v.dropWhile isDecimalDigit = rest at stop
  cases rest with
  | nil =>
      have alone := fractionTail_append (X := []) all rfl
      rw [List.append_nil] at alone ⊢
      rw [alone]
      cases goesOn : X.head?.any isDecimalDigit with
      | false => simp [fractionTail_append all goesOn, exponentLength_eq_zero plain,
          exponentLength_eq_zero (X := []) rfl]
      | true =>
          have longer := lt_length_takeWhile all goesOn
          refine iff_of_false (fun whole => ?_) (by simp)
          rw [fractionTail] at whole
          omega
  | cons z u =>
      have head : (z :: (u ++ X)).head?.any isDecimalDigit = false := stop
      rw [List.append_assoc, List.cons_append, fractionTail_append all head,
        fractionTail_append all stop, List.length_append, Nat.add_left_cancel_iff,
        Nat.add_left_cancel_iff, List.length_cons]
      cases u with
      | nil =>
          exact iff_of_false (exponentLength_ne_one _) fun whole => exponentLength_ne_one _ whole.1
      | cons s u =>
          have whole := exponentLength_iff (c := z) (X := []) (List.cons_ne_nil s u)
          rw [List.append_nil] at whole
          rw [exponentLength_iff (List.cons_ne_nil s u), whole]
          simp

section Tail

variable {words : Text} (all : words.all isWord = true)
include all

theorem numberTail_append (stop : X.head?.any isWord = false) :
    numberTail (words ++ X)
      = words.length + fractionLength X + exponentLength (X.drop (fractionLength X)) := by
  simp only [numberTail, takeWhile_append_stop all stop, List.drop_left, List.drop_length_add_append]

theorem numberTail_point : numberTail (words ++ '.' :: X) = words.length + 1 + fractionTail X := by
  rw [numberTail_append all rfl, fractionLength, List.drop_succ_cons, fractionTail]
  omega

theorem numberTail_other {y : Char} (stop : isWord y = false) (other : y ≠ '.') :
    numberTail (words ++ y :: X) = words.length := by
  have fraction : fractionLength (y :: X) = 0 := by simp [fractionLength, other]
  have plain : (y :: X).head?.any isExponent = false := by
    rw [List.head?_cons, Option.any_some, ← Bool.not_eq_true]
    intro exponent
    rw [isExponent, Bool.or_eq_true, beq_iff_eq, beq_iff_eq] at exponent
    obtain rfl | rfl := exponent <;> revert stop <;> decide
  have head : (y :: X).head?.any isWord = false := stop
  rw [numberTail_append all head, fraction, List.drop_zero, exponentLength_eq_zero plain]
  rfl

end Tail

theorem numberTail_append_iff (plain : X.head?.any isExponent = false) :
    numberTail (v ++ X) = v.length ↔ numberTail v = v.length ∧ X.head?.any (joinsTail v) = false := by
  have all : (v.takeWhile isWord).all isWord = true := List.all_takeWhile
  have stop := any_head_dropWhile isWord v
  rw [← List.takeWhile_append_dropWhile (l := v) (p := isWord)]
  generalize v.takeWhile isWord = words at all
  generalize v.dropWhile isWord = rest at stop
  have free : '.' ∉ words := by
    intro mem
    cases List.all_eq_true.mp all _ mem
  cases rest with
  | nil =>
      have joins : joinsTail words = fun c => isWord c || c == '.' :=
        funext fun c => if_neg (by simpa using free)
      have alone : numberTail words = words.length := by
        have whole := numberTail_append (X := []) all rfl
        rwa [List.append_nil] at whole
      rw [List.append_nil, joins, alone]
      cases X with
      | nil => simp [alone]
      | cons c X =>
          cases word : isWord c with
          | true =>
              have longer := lt_length_takeWhile (X := c :: X) all word
              refine iff_of_false (fun whole => ?_) (by simp [word])
              simp only [numberTail] at whole
              omega
          | false =>
              by_cases point : c = '.'
              · subst point
                rw [numberTail_point all]
                refine iff_of_false (fun whole => ?_) (by simp)
                omega
              · rw [numberTail_other all word point]
                simp [word, point]
  | cons y s =>
      have word : isWord y = false := stop
      rw [List.append_assoc, List.cons_append, List.length_append, List.length_cons]
      by_cases point : y = '.'
      · subst point
        have joins : joinsTail (words ++ '.' :: s) = isDecimalDigit :=
          funext fun c => if_pos (by simp)
        have total (n : Nat) : words.length + 1 + n = words.length + (s.length + 1) ↔ n = s.length := by
          omega
        rw [joins, numberTail_point all, numberTail_point all, total, total,
          fractionTail_append_iff plain]
      · rw [numberTail_other all word point, numberTail_other all word point]
        refine iff_of_false ?_ fun whole => ?_ <;> omega

theorem numberLength_append_iff (plain : X.head?.any isExponent = false) :
    numberLength? (w ++ X) = some w.length ↔
      numberLength? w = some w.length ∧ X.head?.any (joinsNumber w) = false := by
  cases w with
  | nil =>
      refine iff_of_false (fun found => ?_) (fun found => ?_)
      · exact absurd (numberLength_fits _ _ found).1 (Nat.lt_irrefl 0)
      · cases found.1
  | cons d v =>
      by_cases point : d = '.'
      · subst point
        have joins : joinsNumber ('.' :: v) = isWord := funext fun c => if_pos rfl
        rw [joins, List.cons_append, numberLength_cons, numberLength_cons, if_pos rfl, if_pos rfl]
        cases v with
        | nil =>
            refine iff_of_false (fun found => ?_) (fun found => ?_)
            · rw [Option.ite_none_right_eq_some] at found
              cases found.2
            · cases found.1
        | cons e v =>
            have taken := length_takeWhile_append_iff (v := v) (X := []) (p := isWord)
            rw [List.append_nil] at taken
            cases digit : isDecimalDigit e with
            | false => simp [digit]
            | true => simp [digit, length_takeWhile_append_iff, taken]
      · have joins : joinsNumber (d :: v) = joinsTail v :=
          funext fun c => if_neg (by simpa using point)
        have tail (t : Text) : numberLength? (d :: t)
            = if isDecimalDigit d then some (1 + numberTail t) else none := by
          rw [numberLength_cons, if_neg point]
          simp only [numberTail, Nat.add_assoc]
        rw [joins, List.cons_append, tail, tail]
        cases digit : isDecimalDigit d with
        | false => simp
        | true =>
            have total (n : Nat) : 1 + n = (d :: v).length ↔ n = v.length := by
              rw [List.length_cons]
              omega
            simp only [if_true, Option.some.injEq, total]
            exact numberTail_append_iff plain

end PhpGate
