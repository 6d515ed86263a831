import PhpGate.Proofs.Text.OneLine

/-!
The line that a text is found on. A text of a single line is found on the line where it stands
first, and that line counts every boundary in front of it; any other text is placed by the line
feeds alone. The two counts differ by the boundaries that go without a line feed.
-/

namespace PhpGate.Text

variable {needle t l r : Text} {c : Char} {n : Nat}

section Occurrence

/-- The text stands at this offset and at none in front of it. -/
def StandsFirst (needle t : Text) (n : Nat) : Prop :=
  needle <+: t.drop n ∧ ∀ m < n, ¬ needle <+: t.drop m

instance (needle t : Text) (n : Nat) : Decidable (StandsFirst needle t n) :=
  inferInstanceAs (Decidable (_ ∧ _))

theorem find_eq_some_iff : find? needle t = some n ↔ StandsFirst needle t n := by
  induction t generalizing n with
  | nil =>
      cases needle with
      | nil =>
          cases n with
          | zero => simp [find?, StandsFirst]
          | succ n =>
              refine iff_of_false (by rintro ⟨⟩) ?_
              exact fun first => first.2 0 n.succ_pos (List.prefix_refl _)
      | cons c needle => simp [find?, StandsFirst]
  | cons c t ih =>
      rw [find?]
      split
      · next here =>
          rw [List.isPrefixOf_iff_prefix] at here
          cases n with
          | zero => simp [StandsFirst, here]
          | succ n => exact iff_of_false (by rintro ⟨⟩) fun first => first.2 0 n.succ_pos here
      · next away =>
          rw [List.isPrefixOf_iff_prefix] at away
          cases n with
          | zero => simpa [StandsFirst] using away
          | succ n =>
              rw [Option.map_eq_some_iff]
              simp only [Nat.add_right_cancel_iff, exists_eq_right, ih, StandsFirst,
                List.drop_succ_cons]
              refine and_congr_right fun _ => ⟨fun clear m less => ?_, fun clear m less => ?_⟩
              · cases m with
                | zero => exact away
                | succ m => exact clear m (Nat.lt_of_succ_lt_succ less)
              · exact clear (m + 1) (Nat.succ_lt_succ less)

theorem prefix_append_cons_iff (absent : c ∉ needle) : needle <+: l ++ c :: r ↔ needle <+: l := by
  refine ⟨?_, fun h => h.trans (List.prefix_append _ _)⟩
  rintro ⟨s, split⟩
  obtain ⟨u, rfl, -⟩ | ⟨v, rfl, behind⟩ := List.append_eq_append_iff.mp split
  · exact List.prefix_append _ _
  · cases v with
    | nil => simp
    | cons d v =>
        obtain rfl : c = d := (List.cons.inj behind).1
        simp at absent

/-- A text is looked for on both sides of a character that it does not hold. -/
theorem find_append_cons (nonempty : needle ≠ []) (absent : c ∉ needle) :
    find? needle (l ++ c :: r)
      = (find? needle l).or ((find? needle r).map (· + (l.length + 1))) := by
  induction l with
  | nil =>
      have away : ¬ needle <+: [] ++ c :: r := by
        rw [prefix_append_cons_iff absent, List.prefix_nil]
        exact nonempty
      rw [← List.isPrefixOf_iff_prefix, List.nil_append] at away
      simp [find?, away, nonempty]
  | cons d l ih =>
      have same := prefix_append_cons_iff (l := d :: l) (r := r) absent
      simp only [← List.isPrefixOf_iff_prefix, List.cons_append] at same
      simp only [List.cons_append, find?, ih, same]
      split
      · rfl
      · cases find? needle l with
        | none => simp [Function.comp_def, Nat.add_assoc]
        | some n => rfl

end Occurrence

section Boundaries

/-- A line ends here without a line feed, alone or behind a carriage return. -/
def isStrayBreak (c : Char) (r : Text) : Bool :=
  isLineBreak c && c != '\n' && !(c == '\r' && r.head? == some '\n')

/-- The number of line boundaries without a line feed. -/
def strayBreaks : Text → Nat
  | [] => 0
  | c :: r => (if isStrayBreak c r then 1 else 0) + strayBreaks r

/-- Every line that ends in this text ends by a line feed, alone or behind a carriage return. -/
def BreaksByFeed (t : Text) : Prop :=
  ∀ u c r, t = u ++ c :: r → isLineBreak c = true → c = '\n' ∨ c = '\r' ∧ r.head? = some '\n'

theorem strayBreaks_eq_zero_iff : strayBreaks t = 0 ↔ BreaksByFeed t := by
  induction t with
  | nil => simp [strayBreaks, BreaksByFeed]
  | cons c t ih =>
      have here : isStrayBreak c t = false ↔
          (isLineBreak c = true → c = '\n' ∨ c = '\r' ∧ t.head? = some '\n') := by
        cases ends : isLineBreak c <;> simp [isStrayBreak, ends, Decidable.or_iff_not_imp_left]
      have count : strayBreaks (c :: t) = 0 ↔ isStrayBreak c t = false ∧ strayBreaks t = 0 := by
        cases stray : isStrayBreak c t <;> simp [strayBreaks, stray]
      rw [count, here, ih]
      constructor
      · rintro ⟨first, later⟩ u d r split ends
        cases u with
        | nil =>
            obtain ⟨rfl, rfl⟩ := List.cons.inj split
            exact first ends
        | cons e u => exact later u d r (List.cons.inj split).2 ends
      · intro all
        exact ⟨fun ends => all [] c t rfl ends,
          fun u d r split ends => all (c :: u) d r (by rw [split, List.cons_append]) ends⟩

/-- The number of lines that end in a text. -/
def boundaries (t : Text) : Nat :=
  t.newlines + strayBreaks t

theorem boundaries_cons (c : Char) (r : Text) : boundaries (c :: r) = boundaries r
    + ((if c = '\n' then 1 else 0) + if isStrayBreak c r then 1 else 0) := by
  rw [boundaries, boundaries, newlines, List.count_cons, ← newlines, strayBreaks]
  simp only [beq_iff_eq]
  omega

theorem boundaries_append (single : IsOneLine l) : boundaries (l ++ r) = boundaries r := by
  induction l with
  | nil => rfl
  | cons c l ih =>
      obtain ⟨inside, single⟩ := isOneLine_cons.mp single
      have feed : c ≠ '\n' := by
        rintro rfl
        cases inside
      have stray : ¬ isStrayBreak c (l ++ r) = true := by simp [isStrayBreak, inside]
      rw [List.cons_append, boundaries_cons, if_neg feed, if_neg stray, ih single]
      rfl

theorem boundaries_of_isOneLine (single : IsOneLine t) : boundaries t = 0 := by
  have none := boundaries_append (r := []) single
  rwa [List.append_nil] at none

theorem boundaries_pair : boundaries ('\r' :: '\n' :: r) = boundaries r + 1 := by
  rw [boundaries_cons, boundaries_cons]
  rfl

theorem boundaries_break (ends : isLineBreak c = true) (single : c = '\r' → r.head? ≠ some '\n') :
    boundaries (c :: r) = boundaries r + 1 := by
  rw [boundaries_cons]
  by_cases feed : c = '\n'
  · subst feed
    rfl
  · have stray : isStrayBreak c r = true := by
      simpa [isStrayBreak, ends, feed, Decidable.imp_iff_not_or] using single
    rw [if_neg feed, if_pos stray]

/-- The text stands somewhere in this line. -/
abbrev holds (needle line : Text) : Bool :=
  (find? needle line).isSome

theorem length_lt_of_find (nonempty : needle ≠ []) (found : find? needle t = some n) :
    n < t.length := by
  have stands := (find_eq_some_iff.mp found).1.length_le
  have := List.length_pos_iff.mpr nonempty
  rw [List.length_drop] at stands
  omega

/-- A first line and the lines behind it, which begin `k` characters after its end. -/
theorem findIdx_cons_line {s : Text} {k : Nat} {ls : List Text} (nonempty : needle ≠ [])
    (single : IsOneLine l)
    (found : find? needle (l ++ s)
      = (find? needle l).or ((find? needle r).map (· + (l.length + k))))
    (counts : ∀ m, boundaries (s.take (m + k)) = boundaries (r.take m) + 1)
    (later : ls.findIdx? (holds needle)
      = (find? needle r).map fun n => boundaries (r.take n)) :
    (l :: ls).findIdx? (holds needle)
      = (find? needle (l ++ s)).map fun n => boundaries ((l ++ s).take n) := by
  rw [List.findIdx?_cons, found, holds]
  cases here : find? needle l with
  | some n =>
      have within : n ≤ l.length := Nat.le_of_lt (length_lt_of_find nonempty here)
      simp [List.take_append_of_le_length within, boundaries_of_isOneLine (single.take n)]
  | none =>
      have behind (m : Nat) :
          boundaries ((l ++ s).take (m + (l.length + k))) = boundaries (r.take m) + 1 := by
        rw [show m + (l.length + k) = l.length + (m + k) by omega, List.take_length_add_append,
          boundaries_append single, counts]
      rw [later]
      cases find? needle r with
      | none => rfl
      | some m => simp [behind]

theorem findIdx_linesAfter {current : Text} (nonempty : needle ≠ []) (single : IsOneLine needle)
    (begun : IsOneLine current) :
    (linesAfter current t).findIdx? (holds needle)
      = (find? needle (current.reverse ++ t)).map fun n =>
          boundaries ((current.reverse ++ t).take n) := by
  have absent {c : Char} (ends : isLineBreak c = true) : c ∉ needle := by
    intro mem
    rw [single c mem] at ends
    cases ends
  fun_induction linesAfter current t with
  | case1 current empty =>
      obtain rfl := List.isEmpty_iff.mp empty
      simp [find?, nonempty]
  | case2 current =>
      rw [List.append_nil]
      cases here : find? needle current.reverse with
      | none => simp [here]
      | some n => simp [here, boundaries_of_isOneLine (begun.reverse.take n)]
  | case3 current r ih =>
      apply findIdx_cons_line nonempty begun.reverse (k := 2) (r := r)
      · have gap := find_append_cons (l := []) (r := r) nonempty (absent (c := '\n') rfl)
        rw [find_append_cons nonempty (absent rfl), ← List.nil_append ('\n' :: r), gap]
        simp [find?, nonempty, Function.comp_def, Nat.add_assoc, Nat.add_comm 1]
      · intro m
        rw [List.take_succ_cons, List.take_succ_cons, boundaries_pair]
      · exact ih isOneLine_nil
  | case4 current c r alone ends ih =>
      apply findIdx_cons_line nonempty begun.reverse (k := 1) (r := r)
      · exact find_append_cons nonempty (absent ends)
      · intro m
        rw [List.take_succ_cons]
        refine boundaries_break ends fun ret head => ?_
        rw [List.head?_take] at head
        split at head
        · cases head
        · obtain ⟨s, rfl⟩ := List.head?_eq_some_iff.mp head
          exact alone s ret rfl
      · exact ih isOneLine_nil
  | case5 current c r _ inside ih =>
      rw [ih (isOneLine_cons.mpr ⟨Bool.eq_false_iff.mpr inside, begun⟩)]
      simp

/-- A text of a single line stands on the line that the boundaries in front of it count to. -/
theorem findIdx_lines (nonempty : needle ≠ []) (single : IsOneLine needle) :
    (lines t).findIdx? (holds needle)
      = (find? needle t).map fun n => boundaries (t.take n) :=
  findIdx_linesAfter nonempty single isOneLine_nil

/-- No line holds a text that a line ends in. -/
theorem findIdx_lines_of_break (broken : ¬ IsOneLine needle) :
    (lines t).findIdx? (holds needle) = none := by
  rw [List.findIdx?_eq_none_iff]
  intro line mem
  rw [Option.isSome_eq_false_iff, Option.isNone_iff_eq_none, Option.eq_none_iff_forall_ne_some]
  intro n found
  have part : needle ⊆ line :=
    List.Subset.trans (find_eq_some_iff.mp found).1.subset (List.drop_subset n line)
  exact broken ((isOneLine_of_mem_lines mem).subset part)

/-- The line of a text that stands first at the given offset. -/
theorem lineOf_eq (nonempty : needle ≠ []) (first : StandsFirst needle t n) :
    lineOf needle t = newlines (t.take n)
      + (if IsOneLine needle then strayBreaks (t.take n) else 0) + 1 := by
  have found := find_eq_some_iff.mpr first
  rw [lineOf, if_neg (by simpa using nonempty)]
  by_cases single : IsOneLine needle
  · rw [findIdx_lines nonempty single, found, if_pos single]
    rfl
  · rw [findIdx_lines_of_break single, found, if_neg single]

/-- The line counts the line feeds in front of the text if a line ends within it, or else if every
line in front of it ends by a line feed. -/
theorem lineOf_eq_newlines_iff (nonempty : needle ≠ []) (first : StandsFirst needle t n) :
    lineOf needle t = newlines (t.take n) + 1
      ↔ (IsOneLine needle → BreaksByFeed (t.take n)) := by
  rw [lineOf_eq nonempty first, ← strayBreaks_eq_zero_iff]
  split
  · next single => simp [single]
  · next broken => simp [broken]

end Boundaries

end PhpGate.Text
