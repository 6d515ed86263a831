import PhpGate.Proofs.Token.Break
import PhpGate.Proofs.Token.Closing
import PhpGate.Proofs.Token.Content

/-!
Open tags and heredocs against closing tags. Neither holds a closing tag at its end: behind the
question mark of an open tag stands its word, and a heredoc ends in its label, at a word boundary.
-/

namespace PhpGate

open Text

variable {t u v : Text} {c : Char} {n : Nat}

theorem eq_of_mark {r : Text} (free : '?' ∉ r) (h : u ++ '?' :: v = '<' :: '?' :: r) : v = r := by
  match u with
  | [] => simp at h
  | [_] => exact (List.cons.inj (List.cons.inj h).2).2
  | _ :: _ :: u =>
      obtain ⟨-, -, rfl⟩ : _ = '<' ∧ _ = '?' ∧ u ++ '?' :: v = r := by simpa using h
      simp at free

theorem isBare_of_foldCase {d : Char} (fold : foldCase c = d) (bare : isBare d = true) :
    isBare c = true :=
  isBare_of (p := fun c => isBare (foldCase c)) (by rwa [fold]) rfl

/-- Behind the question mark of an open tag stands what can belong to no closing tag. -/
theorem exists_cons_of_isOpenTag (h : IsOpenTag (u ++ '?' :: v)) :
    ∃ c w, v = c :: w ∧ isBare c = true := by
  obtain echo | ⟨begins, length⟩ := h
  · exact ⟨'=', [], eq_of_mark (by decide) echo, rfl⟩
  · obtain ⟨p, h, q, rest, split⟩ := beginsWith_openTag begins
    obtain rfl : rest = [] := by simpa [split] using length
    have word : "<?php".toList = ['<', '?', 'p', 'h', 'p'] := rfl
    simp only [split, word, beginsWith, Bool.and_eq_true, beq_iff_eq] at begins
    have bare : [p, h, q].all isBare = true := by
      simp only [List.all_cons, List.all_nil, Bool.and_true, Bool.and_eq_true]
      exact ⟨isBare_of_foldCase begins.2.2.1 rfl, isBare_of_foldCase begins.2.2.2.1 rfl,
        isBare_of_foldCase begins.2.2.2.2.1 rfl⟩
    refine ⟨p, [h, q], eq_of_mark (fun mem => ?_) split, List.all_eq_true.mp bare p (by simp)⟩
    exact absurd (List.all_eq_true.mp bare '?' mem) (by decide)

theorem heredocClosing_last {label : Text} (nonempty : label ≠ [])
    (h : heredocClosing? label t = some n) :
    (t.take n).getLast? = label.getLast? ∧
      isBoundary label.getLast? (t.drop n).head? = true := by
  simp only [heredocClosing?, Option.ite_none_right_eq_some, Bool.and_eq_true,
    List.isPrefixOf_iff_prefix, Option.some.injEq] at h
  obtain ⟨⟨⟨r, stands⟩, boundary⟩, rfl⟩ := h
  refine ⟨?_, boundary⟩
  rw [List.take_add, ← stands, List.take_left, List.getLast?_append,
    List.getLast?_eq_some_getLast nonempty, Option.some_or]

/-- A heredoc ends in its label, and at a word boundary. -/
theorem heredocBody_last {label : Text} (nonempty : label ≠ []) {lineStart : Bool}
    (h : heredocBody? label lineStart t = some n) :
    (t.take n).getLast? = label.getLast? ∧
      isBoundary label.getLast? (t.drop n).head? = true := by
  fun_induction heredocBody? label lineStart t generalizing n with
  | case1 => cases h
  | case2 lineStart c r m found =>
      cases h
      split at found
      · exact heredocClosing_last nonempty found
      · cases found
  | case3 lineStart c r _ ih =>
      obtain ⟨m, found, rfl⟩ := Option.map_eq_some_iff.mp h
      obtain ⟨last, boundary⟩ := ih found
      refine ⟨?_, boundary⟩
      rw [List.take_succ_cons, List.getLast?_cons, last, List.getLast?_eq_some_getLast nonempty]
      rfl

theorem heredocLabel_bare {indent : Nat} {quote label : Text}
    (h : heredocLabel? indent quote t = some (label, n)) : label.all isBare = true := by
  simp only [heredocLabel?, Option.bind_eq_some_iff] at h
  obtain ⟨m, found, h⟩ := h
  split at h
  · simp only [Option.map_eq_some_iff, Prod.mk.injEq] at h
    obtain ⟨-, -, rfl, -⟩ := h
    exact identifierLength_bare found
  · cases h

theorem heredocOpening_bare {label : Text} (h : heredocOpening? t = some (label, n)) :
    label.all isBare = true := by
  by_cases opens : ∃ r, t = '<' :: '<' :: '<' :: r
  · obtain ⟨r, rfl⟩ := opens
    exact heredocLabel_bare h
  · rw [heredocOpening_eq_none fun r e => opens ⟨r, e⟩] at h
    cases h

theorem heredocLength_last (h : heredocLength? t = some n) :
    ∃ c, (t.take n).getLast? = some c ∧ isBare c = true ∧
      isBoundary (some c) (t.drop n).head? = true := by
  simp only [heredocLength?, Option.bind_eq_some_iff, Prod.exists] at h
  obtain ⟨label, m, opening, h⟩ := h
  obtain ⟨k, body, rfl⟩ := Option.map_eq_some_iff.mp h
  have nonempty : label ≠ [] := by
    rintro rfl
    cases (heredocOpening_start opening).1
  obtain ⟨last, boundary⟩ := heredocBody_last nonempty body
  rw [List.getLast?_eq_some_getLast nonempty] at last boundary
  refine ⟨label.getLast nonempty, ?_, List.all_eq_true.mp (heredocOpening_bare opening) _
    (List.getLast_mem nonempty), by rwa [List.drop_drop] at boundary⟩
  rw [List.take_add, List.getLast?_append, last, Option.some_or]

end PhpGate
