import PhpGate.Proofs.Token.Equations
import PhpGate.Proofs.Token.Extent

/-!
Where comments begin and where they end. A line comment leaves what ends it to the text behind, and
a block comment takes its end along.
-/

namespace PhpGate

open Text

variable {t u w r : Text} {c : Char}

theorem lineCommentLength_head {n : Nat} (h : lineCommentLength? (c :: r) = some n) :
    (c = '/' ∧ r.head? = some '/') ∨ c = '#' := by
  rw [lineCommentLength_cons] at h
  by_cases slashes : c = '/' ∧ r.head? = some '/'
  · exact .inl slashes
  · rw [if_neg slashes, Option.ite_none_right_eq_some] at h
    exact .inr h.1.1

theorem blockCommentLength_head {n : Nat} (h : blockCommentLength? (c :: r) = some n) :
    c = '/' := by
  rw [blockCommentLength_cons, Option.ite_none_right_eq_some] at h
  exact h.1.1

theorem newline_not_mem_lineCommentTail (t : Text) : '\n' ∉ t.take (lineCommentTail t) := by
  induction t with
  | nil => simp
  | cons c r ih =>
      rw [lineCommentTail_cons]
      split
      · simp
      · rename_i goesOn
        simp only [not_or] at goesOn
        rw [List.take_succ_cons, List.mem_cons, not_or]
        exact ⟨fun e => goesOn.2.2 e.symm, ih⟩

theorem lineCommentLength_text (h : lineCommentLength? (w ++ r) = some w.length) :
    ∃ sign v, w = sign ++ v ∧ (sign = "//".toList ∨ sign = "#".toList) ∧
      lineCommentTail (v ++ r) = v.length := by
  obtain ⟨c, v, rfl⟩ := List.exists_cons_of_length_pos (lineCommentLength_fits _ _ h).1
  rw [List.cons_append, lineCommentLength_cons] at h
  split at h
  · rename_i slashes
    obtain ⟨rfl, again⟩ := slashes
    cases v with
    | nil => cases h
    | cons d v =>
        cases again
        exact ⟨['/', '/'], v, rfl, .inl rfl, Nat.add_right_cancel (m := 2) (Option.some.inj h)⟩
  · rw [Option.ite_none_right_eq_some, Option.some.injEq] at h
    obtain ⟨⟨rfl, -⟩, length⟩ := h
    exact ⟨['#'], v, rfl, .inr rfl, Nat.succ.inj length⟩

theorem newlines_of_lineComment (h : lineCommentLength? (w ++ r) = some w.length) :
    w.newlines = 0 := by
  obtain ⟨sign, v, rfl, signs, length⟩ := lineCommentLength_text h
  have rest := newline_not_mem_lineCommentTail (v ++ r)
  rw [length, List.take_left] at rest
  rw [newlines, List.count_eq_zero, List.mem_append, not_or]
  refine ⟨?_, rest⟩
  obtain rfl | rfl := signs <;> decide

/-- A line comment ends in front of a line break or a closing tag. -/
theorem lineCommentTail_stop (h : lineCommentTail (u ++ c :: r) = u.length) :
    (c = '?' ∧ r.head? = some '>') ∨ c = '\r' ∨ c = '\n' := by
  induction u with
  | nil =>
      rw [List.nil_append, lineCommentTail_cons] at h
      split at h
      · assumption
      · cases h
  | cons d u ih =>
      rw [List.cons_append, lineCommentTail_cons] at h
      split at h
      · cases h
      · exact ih (Nat.succ.inj h)

theorem lineCommentLength_closes (h : lineCommentLength? (w ++ c :: r) = some w.length) :
    (c = '?' ∧ r.head? = some '>') ∨ c = '\r' ∨ c = '\n' := by
  obtain ⟨sign, v, -, -, length⟩ := lineCommentLength_text h
  exact lineCommentTail_stop length

theorem lineCommentLength_stop (h : lineCommentLength? (w ++ c :: r) = some w.length) :
    c = '?' ∨ c = '\r' ∨ c = '\n' :=
  (lineCommentLength_closes h).imp_left And.left

theorem getLast_of_blockCommentTail {n : Nat} (h : blockCommentTail? t = some n) :
    (t.take n).getLast? = some '/' := by
  fun_induction blockCommentTail? t generalizing n with
  | case1 => cases h
  | case2 r =>
      cases h
      rfl
  | case3 c r shape ih =>
      obtain ⟨m, found, rfl⟩ := Option.map_eq_some_iff.mp h
      rw [List.take_succ_cons, List.getLast?_cons, ih found]
      rfl

theorem getLast_of_blockCommentLength {n : Nat} (h : blockCommentLength? t = some n) :
    (t.take n).getLast? = some '/' := by
  fun_cases blockCommentLength? t with
  | case1 r =>
      obtain ⟨m, found, rfl⟩ := Option.map_eq_some_iff.mp h
      have last := getLast_of_blockCommentTail found
      rw [List.take_succ_cons, List.take_succ_cons, List.getLast?_cons, List.getLast?_cons, last]
      rfl
  | case2 => simp_all [blockCommentLength?]

end PhpGate
