import PhpGate.Proofs.Text.Letter
import PhpGate.Proofs.Text.Pieces

/-!
The lines of a text: there is one unless the text is empty, and only one where no line ends.
-/

namespace PhpGate.Text

variable {current t r : Text} {c : Char}

theorem isBlank_of_isLineBreak (ends : isLineBreak c = true) : isBlank c = true :=
  inRanges_of_covered ends rfl

theorem linesAfter_kept (inside : isLineBreak c = false) :
    linesAfter current (c :: r) = linesAfter (c :: current) r := by
  rw [linesAfter]
  · rw [inside]
    rfl
  · rintro s rfl -
    cases inside

theorem linesAfter_break (ends : isLineBreak c = true) (single : c = '\r' → r.head? ≠ some '\n') :
    linesAfter current (c :: r) = current.reverse :: linesAfter [] r := by
  rw [linesAfter]
  · rw [ends]
    rfl
  · rintro s rfl rfl
    exact single rfl rfl

theorem exists_linesAfter_of_break (present : current ≠ [])
    (behind : r.head?.all isLineBreak = true) :
    ∃ ls, linesAfter current r = current.reverse :: ls := by
  unfold linesAfter
  split
  · exact ⟨[], if_neg (by simpa using present)⟩
  · exact ⟨_, rfl⟩
  · exact ⟨_, if_pos behind⟩

theorem linesAfter_append (unbroken : ∀ c ∈ t, isLineBreak c = false) :
    linesAfter current (t ++ r) = linesAfter (t.reverse ++ current) r := by
  induction t generalizing current with
  | nil => rfl
  | cons c t ih =>
      rw [List.cons_append, linesAfter_kept (unbroken c List.mem_cons_self),
        ih fun d mem => unbroken d (List.mem_cons_of_mem c mem)]
      simp

theorem linesAfter_ne_nil (h : current ++ t ≠ []) : linesAfter current t ≠ [] := by
  fun_induction linesAfter current t with
  | case1 current empty => simp_all
  | case2 | case3 | case4 => exact List.cons_ne_nil _ _
  | case5 current c r _ _ ih => exact ih (by simp)

theorem lines_ne_nil (h : t ≠ []) : lines t ≠ [] :=
  linesAfter_ne_nil h

theorem linesAfter_of_unbroken (unbroken : ∀ c ∈ t, isLineBreak c = false)
    (nonempty : current ++ t ≠ []) : linesAfter current t = [current.reverse ++ t] := by
  fun_induction linesAfter current t with
  | case1 current empty => simp_all
  | case2 current => simp
  | case3 current r =>
      have feed : isLineBreak '\r' = true := rfl
      rw [unbroken '\r' List.mem_cons_self] at feed
      cases feed
  | case4 current c r _ ends =>
      rw [unbroken c List.mem_cons_self] at ends
      cases ends
  | case5 current c r _ _ ih =>
      rw [ih (fun d mem => unbroken d (List.mem_cons_of_mem c mem)) (by simp)]
      simp

theorem lines_of_unbroken (unbroken : ∀ c ∈ t, isLineBreak c = false) (nonempty : t ≠ []) :
    lines t = [t] :=
  linesAfter_of_unbroken unbroken nonempty

end PhpGate.Text
