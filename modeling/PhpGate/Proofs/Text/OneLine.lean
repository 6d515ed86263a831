import PhpGate.Proofs.Text.Digit
import PhpGate.Proofs.Text.Lines

/-!
Texts of a single line. A text is one if no line ends in it, and so is every part of it; the lines
of any text are.
-/

namespace PhpGate.Text

/-- No line ends in this text. -/
def IsOneLine (t : Text) : Prop :=
  ∀ c ∈ t, isLineBreak c = false

instance (t : Text) : Decidable (IsOneLine t) :=
  decidable_of_iff (t.all (!isLineBreak ·) = true) (by simp [IsOneLine])

variable {t u v : Text} {c : Char}

theorem isOneLine_nil : IsOneLine [] := nofun

theorem isOneLine_cons : IsOneLine (c :: t) ↔ isLineBreak c = false ∧ IsOneLine t :=
  List.forall_mem_cons

theorem isOneLine_append : IsOneLine (u ++ v) ↔ IsOneLine u ∧ IsOneLine v :=
  List.forall_mem_append

theorem isLineBreak_of_not_isBlank (visible : isBlank c = false) : isLineBreak c = false := by
  rw [← Bool.not_eq_true] at visible ⊢
  exact fun ends => visible (isBlank_of_isLineBreak ends)

theorem isOneLine_singleton (visible : isBlank c = false) : IsOneLine [c] :=
  isOneLine_cons.mpr ⟨isLineBreak_of_not_isBlank visible, isOneLine_nil⟩

theorem isOneLine_ofNat (n : Nat) : IsOneLine (ofNat n) := by
  intro c mem
  have bounds := Char.isDigit_iff_toNat.mp (isDigit_of_mem_ofNat mem)
  have digit : inRanges [(48, 57)] c.toNat = true := by simpa [inRanges] using bounds
  exact inRanges_of_disjoint _ digit rfl

theorem isOneLine_ofInt (n : Int) : IsOneLine (ofInt n) := by
  cases n with
  | ofNat n => exact isOneLine_ofNat n
  | negSucc n => exact isOneLine_cons.mpr ⟨rfl, isOneLine_ofNat _⟩

namespace IsOneLine

theorem subset (single : IsOneLine u) (part : v ⊆ u) : IsOneLine v :=
  fun c mem => single c (part mem)

theorem append (front : IsOneLine u) (back : IsOneLine v) : IsOneLine (u ++ v) :=
  isOneLine_append.mpr ⟨front, back⟩

theorem take (single : IsOneLine t) (n : Nat) : IsOneLine (t.take n) :=
  single.subset (List.take_subset n t)

theorem drop (single : IsOneLine t) (n : Nat) : IsOneLine (t.drop n) :=
  single.subset (List.drop_subset n t)

theorem reverse (single : IsOneLine t) : IsOneLine t.reverse :=
  fun c mem => single c (List.mem_reverse.mp mem)

theorem dropWhile (single : IsOneLine t) (p : Char → Bool) : IsOneLine (t.dropWhile p) :=
  single.subset (List.dropWhile_subset p)

theorem trim (single : IsOneLine t) : IsOneLine (trim t) :=
  ((single.dropWhile isBlank).reverse.dropWhile isBlank).reverse

end IsOneLine

theorem isOneLine_of_mem_linesAfter {current : Text} (begun : IsOneLine current)
    (mem : u ∈ linesAfter current t) : IsOneLine u := by
  fun_induction linesAfter current t with
  | case1 current empty => cases mem
  | case2 current => exact (List.mem_singleton.mp mem) ▸ begun.reverse
  | case3 current r ih =>
      obtain rfl | later := List.mem_cons.mp mem
      · exact begun.reverse
      · exact ih isOneLine_nil later
  | case4 current c r _ _ ih =>
      obtain rfl | later := List.mem_cons.mp mem
      · exact begun.reverse
      · exact ih isOneLine_nil later
  | case5 current c r _ inside ih =>
      exact ih (isOneLine_cons.mpr ⟨Bool.eq_false_iff.mpr inside, begun⟩) mem

theorem isOneLine_of_mem_lines (mem : u ∈ lines t) : IsOneLine u :=
  isOneLine_of_mem_linesAfter isOneLine_nil mem

/-- What is left where matches are taken away is part of the text. -/
theorem substitute_nil_subset (pattern : Pattern) : substitute pattern (fun _ => []) t ⊆ t := by
  have part (before : Text) (skip : Nat) :
      (cutAfter pattern before skip t).flatMap (Piece.substitute fun _ => []) ⊆ t := by
    fun_induction cutAfter pattern before skip t with
    | case1 => exact fun _ mem => mem
    | case2 before skip c r ih => exact List.Subset.trans ih (List.subset_cons_self c r)
    | case3 before c r n _ ih => exact List.Subset.trans ih (List.subset_cons_self c r)
    | case4 before c r _ ih => exact List.cons_subset_cons c ih
  exact part [] 0

end PhpGate.Text
