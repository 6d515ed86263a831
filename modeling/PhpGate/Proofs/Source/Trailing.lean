import PhpGate.Proofs.Source.Numbered

/-!
White space behind a closing tag. No string and no comment that begins in front of a closing tag
with nothing but white space behind it goes on over that tag, so the filter keeps it where it is, and
the text is rejected at its offset whatever stands in front.
-/

namespace PhpGate

open Text Source

namespace Text

variable {needle t u v b : Text} {n : Nat}

theorem trimEnd_eq_self (visible : t.getLast?.any isBlank = false) : trimEnd t = t := by
  rw [← List.head?_reverse] at visible
  cases reversed : t.reverse with
  | nil => rw [trimEnd, reversed, List.dropWhile_nil, ← reversed, List.reverse_reverse]
  | cons c r =>
      rw [reversed, List.head?_cons, Option.any_some] at visible
      rw [trimEnd, reversed, List.dropWhile_cons_of_neg (by simp [visible]), ← reversed,
        List.reverse_reverse]

theorem exists_trimEnd (t : Text) : ∃ b, t = trimEnd t ++ b ∧ b.all isBlank = true := by
  refine ⟨(t.reverse.takeWhile isBlank).reverse, ?_, ?_⟩
  · rw [trimEnd, ← List.reverse_append, List.takeWhile_append_dropWhile, List.reverse_reverse]
  · rw [List.all_reverse]
    exact List.all_takeWhile

theorem findLast_eq_none_iff : findLast? needle t = none ↔ ¬ needle <:+: t := by
  induction t with
  | nil => simp [findLast?]
  | cons c t ih =>
      rw [List.infix_cons_iff, not_or, ← ih, findLast?]
      cases findLast? needle t with
      | some n => simp
      | none => simp

theorem prefix_of_findLast (found : findLast? needle t = some n) : needle <+: t.drop n := by
  induction t generalizing n with
  | nil =>
      rw [findLast?, Option.ite_none_right_eq_some, List.isEmpty_iff] at found
      obtain ⟨rfl, -⟩ := found
      exact List.nil_prefix
  | cons c t ih =>
      rw [findLast?] at found
      split at found
      · rename_i n later
        cases found
        exact ih later
      · rw [Option.ite_none_right_eq_some, List.isPrefixOf_iff_prefix, Option.some.injEq] at found
        obtain ⟨here, rfl⟩ := found
        exact here

/-- A text that stands somewhere stands at the last place that is found. -/
theorem exists_findLast (stands : needle <:+: t) :
    ∃ n, findLast? needle t = some n ∧ needle <+: t.drop n := by
  cases found : findLast? needle t with
  | none => exact absurd stands (findLast_eq_none_iff.mp found)
  | some n => exact ⟨n, rfl, prefix_of_findLast found⟩

theorem findLast_append (found : findLast? needle t = some n) (u : Text) :
    findLast? needle (u ++ t) = some (u.length + n) := by
  induction u with
  | nil => simpa using found
  | cons c u ih =>
      rw [List.cons_append, findLast?, ih, List.length_cons]
      simp only [Option.some.injEq]
      omega

theorem findLast_of_last (absent : ¬ needle <:+: (needle ++ v).tail) (nonempty : needle ≠ [])
    (u : Text) : findLast? needle (u ++ (needle ++ v)) = some u.length := by
  refine findLast_append (n := 0) ?_ u
  obtain ⟨c, needle, rfl⟩ := List.exists_cons_of_ne_nil nonempty
  rw [List.cons_append, List.tail_cons] at absent
  rw [List.cons_append, findLast?, findLast_eq_none_iff.mpr absent]
  simp [List.isPrefixOf_iff_prefix]

end Text

variable {before p w y v : Text} {c : Char} {n : Nat}

theorem length_le_of_getLast (fits : n ≤ (y ++ v).length)
    (last : ((y ++ v).take n).getLast? = some c) (absent : c ∉ v) : n ≤ y.length := by
  refine Nat.le_of_not_lt fun longer => absent ?_
  obtain ⟨k, rfl⟩ := Nat.exists_eq_add_of_lt longer
  rw [Nat.add_assoc, List.take_length_add_append, List.getLast?_append] at last
  have some : (v.take (k + 1)).getLast? = Option.some c := by
    cases found : (v.take (k + 1)).getLast? with
    | none =>
        have empty := List.getLast?_eq_none_iff.mp found
        have lengths := congrArg List.length empty
        simp only [List.length_take, List.length_nil, List.length_append] at lengths fits
        omega
    | some d => rwa [found, Option.some_or] at last
  exact List.mem_of_mem_take (List.mem_of_getLast? some)

theorem lineCommentTail_before (y v : Text) :
    lineCommentTail (y ++ '?' :: '>' :: v) ≤ y.length := by
  induction y with
  | nil => exact Nat.le_refl 0
  | cons c y ih =>
      rw [List.cons_append, lineCommentTail_cons]
      split
      · exact Nat.zero_le _
      · exact Nat.succ_le_succ ih

/-- A line comment ends in front of a closing tag. -/
theorem lineCommentLength_before
    (found : lineCommentLength? (y ++ '?' :: '>' :: v) = some n) : n ≤ y.length := by
  cases y with
  | nil => cases found
  | cons c y =>
      rw [List.cons_append, lineCommentLength_cons] at found
      split at found
      · rename_i slashes
        cases y with
        | nil => cases slashes.2
        | cons d y =>
            cases found
            exact Nat.succ_le_succ (Nat.succ_le_succ (lineCommentTail_before y v))
      · rw [Option.ite_none_right_eq_some, Option.some.injEq] at found
        obtain ⟨-, rfl⟩ := found
        exact Nat.succ_le_succ (lineCommentTail_before y v)

theorem plain_of_blank (blank : w.all isBlank = true) : (closeTag ++ w).all isPlain = true := by
  rw [List.all_append, Bool.and_eq_true, List.all_eq_true (l := w)]
  exact ⟨rfl, fun c mem => isPlain_of_isBare (isBare_of (List.all_eq_true.mp blank c mem) rfl)⟩

/-- No match goes on from a text into a closing tag behind which there are no quotes and comments. -/
theorem commentOrString_before (plain : (closeTag ++ v).all isPlain = true)
    (found : commentOrStringPattern before (y ++ (closeTag ++ v)) = some n) : n ≤ y.length := by
  have absent {c : Char} (sign : isPlain c = false) : c ∉ closeTag ++ v := by
    intro mem
    rw [List.all_eq_true.mp plain c mem] at sign
    cases sign
  rw [commentOrStringPattern] at found
  split at found
  · rename_i m string
    cases found
    obtain ⟨q, quote, last⟩ := (isString_take string).getLast
    refine length_le_of_getLast (stringLength_le string) last (absent ?_)
    obtain rfl | rfl := quote <;> rfl
  · split at found
    · rename_i m block
      cases found
      exact length_le_of_getLast (blockCommentLength_fits _ _ block).2
        (getLast_of_blockCommentLength block) (absent rfl)
    · exact lineCommentLength_before found

/-- The filter keeps a closing tag that has neither quotes nor comments behind it, and what stands
there. -/
theorem stripComments_closeTag (plain : (closeTag ++ v).all isPlain = true) (p : Text) :
    ∃ u, stripComments (p ++ (closeTag ++ v)) = u ++ (closeTag ++ v) := by
  obtain ⟨front, cut, -⟩ : ∃ front, cutAfter commentOrStringPattern [] 0 (p ++ (closeTag ++ v))
      = front ++ cutAfter commentOrStringPattern (p.reverse ++ []) 0 (closeTag ++ v) ∧
        front.flatMap Piece.source = p :=
    cutAfter_append fun x y n _ _ found => commentOrString_before plain found
  have kept : cutAfter commentOrStringPattern p.reverse 0 ((closeTag ++ v) ++ [])
      = (closeTag ++ v).map .kept
        ++ cutAfter commentOrStringPattern ((closeTag ++ v).reverse ++ p.reverse) 0 [] :=
    cutAfter_kept fun u c v' split =>
      commentOrString_of_plain (List.all_eq_true.mp plain c (by simp [split]))
  rw [List.append_nil] at cut kept
  refine ⟨front.flatMap (Piece.substitute dropComment), ?_⟩
  rw [stripComments, substitute, Text.cut, cut, kept, cutAfter, List.append_nil,
    List.flatMap_append, flatMap_substitute_kept]

/-- White space behind a closing tag at the end of a text is rejected at the offset behind that tag,
counted from 1, whatever the text in front. -/
theorem checkTrailingBuffer_append_blank (p : Text) {w : Text} (nonempty : w ≠ [])
    (blank : w.all isBlank = true) (file : Option Text) :
    checkTrailingBuffer (p ++ closeTag ++ w) (stripComments (p ++ closeTag ++ w)) file
      = .error { diagnostic := ⟨.buffer, "File content buffer on after closing php tag".toList,
                  fileLabel file, p.length + 1⟩ } := by
  obtain ⟨u, stripped⟩ := stripComments_closeTag (plain_of_blank blank) p
  have closes : endsWith closeTag (trimEnd (u ++ (closeTag ++ w))) = true := by
    rw [← List.append_assoc, trimEnd_append_blank blank, trimEnd_eq_self, endsWith,
      List.isSuffixOf_iff_suffix]
    · exact List.suffix_append _ _
    · rw [List.getLast?_append]
      rfl
  have unsigned {c : Char} (visible : isBlank c = false) : c ∉ w := by
    intro mem
    rw [List.all_eq_true.mp blank c mem] at visible
    cases visible
  have goesOn : endsWith closeTag (p ++ (closeTag ++ w)) = false := by
    rw [← Bool.not_eq_true, endsWith, List.isSuffixOf_iff_suffix, ← List.append_assoc]
    rintro ⟨u, ends⟩
    have last := congrArg List.getLast? ends
    rw [List.getLast?_append_of_ne_nil _ nonempty, List.getLast?_append] at last
    exact unsigned rfl (List.mem_of_getLast? last.symm)
  have last : findLast? closeTag (p ++ (closeTag ++ w)) = some p.length := by
    refine findLast_of_last ?_ (by decide) p
    rintro ⟨u, v, within⟩
    have mark : '?' ∈ (closeTag ++ w).tail := by
      rw [← within]
      simp [closeTag]
    exact unsigned rfl ((List.mem_cons.mp mark).resolve_left (by decide))
  rw [List.append_assoc, stripped, checkTrailingBuffer, trailingBuffer?, closes, goesOn, last]
  rfl

/-- A comment and two quotes that are open in front of the tag change nothing. -/
theorem checkTrailingBuffer_append_blank_open :
    "\n \t".toList ≠ [] ∧ "\n \t".toList.all isBlank = true ∧
    checkTrailingBuffer ("<?php /* ' // \"".toList ++ closeTag ++ "\n \t".toList)
        (stripComments ("<?php /* ' // \"".toList ++ closeTag ++ "\n \t".toList)) none
      = .error { diagnostic := ⟨.buffer, "File content buffer on after closing php tag".toList,
                  fileLabel none, 16⟩ } :=
  ⟨by decide, by decide, checkTrailingBuffer_append_blank "<?php /* ' // \"".toList (by decide)
    (by decide) none⟩

end PhpGate
