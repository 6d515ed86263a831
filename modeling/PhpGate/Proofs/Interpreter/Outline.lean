import PhpGate.Proofs.Interpreter.LintOutput

/-!
Output in which the place of the checked file is left open. A path that is filled in is absolute,
has no white space and has the ending of a source, as temporary files do; such a path breaks no line and
is not lost when white space is taken away, so the first line is the same part of an outline
whatever is filled in.
-/

namespace PhpGate

open Text LintReport

/-- Paths as temporary files have them. -/
structure IsCheckedPath (p : Text) : Prop where
  absolute : p.head? = some '/'
  ending : ".php".toList <:+ p
  unbroken : ∀ c ∈ p, isBlank c = false

namespace IsCheckedPath

variable {p : Text}

instance : Decidable (IsCheckedPath p) :=
  decidable_of_iff (p.head? = some '/' ∧ ".php".toList <:+ p ∧ p.any isBlank = false)
    ⟨fun ⟨absolute, ending, unbroken⟩ =>
      ⟨absolute, ending, by simpa only [List.any_eq_false, Bool.not_eq_true] using unbroken⟩,
    fun ⟨absolute, ending, unbroken⟩ =>
      ⟨absolute, ending, by simpa only [List.any_eq_false, Bool.not_eq_true] using unbroken⟩⟩

theorem exists_cons (fit : IsCheckedPath p) : ∃ r, p = '/' :: r := by
  obtain ⟨absolute, -, -⟩ := fit
  cases p with
  | nil => cases absolute
  | cons c r =>
      cases absolute
      exact ⟨r, rfl⟩

theorem ne_nil (fit : IsCheckedPath p) : p ≠ [] := by
  rintro rfl
  cases fit.absolute

theorem getLast_eq (fit : IsCheckedPath p) : p.getLast? = some 'p' := by
  obtain ⟨w, rfl⟩ := fit.ending
  rw [List.getLast?_append]
  rfl

theorem isLineBreak_eq (fit : IsCheckedPath p) :
    ∀ c ∈ p, isLineBreak c = false := by
  intro c mem
  rw [← Bool.not_eq_true]
  intro ends
  have inside := fit.unbroken c mem
  rw [isBlank_of_isLineBreak ends] at inside
  cases inside

end IsCheckedPath

/-- A text in which places for a path are left open. -/
abbrev Outline := List (Option Char)

namespace Outline

def fill (p : Text) (o : Outline) : Text :=
  o.flatMap fun s => s.elim p ([·])

/-- The outline of a text in which nothing is left open. -/
def ofText (t : Text) : Outline :=
  t.map some

section Fill

variable {p t : Text} {o w : Outline} {c : Char}

@[simp] theorem fill_nil : fill p [] = [] :=
  rfl

@[simp] theorem fill_char : fill p (some c :: o) = c :: fill p o :=
  rfl

@[simp] theorem fill_place : fill p (none :: o) = p ++ fill p o :=
  rfl

@[simp] theorem fill_append : fill p (o ++ w) = fill p o ++ fill p w :=
  List.flatMap_append

@[simp] theorem fill_ofText : fill p (ofText t) = t := by
  induction t with
  | nil => rfl
  | cons c t ih => exact congrArg (c :: ·) ih

theorem fill_reverse : fill p.reverse o.reverse = (fill p o).reverse := by
  induction o with
  | nil => rfl
  | cons s o ih => cases s <;> simp [ih]

theorem fill_eq_nil_iff (nonempty : p ≠ []) : fill p o = [] ↔ o = [] := by
  cases o with
  | nil => simp
  | cons s o => cases s <;> simp [nonempty]

theorem length_fill :
    (fill p o).length = o.count none * p.length + o.countP Option.isSome := by
  induction o with
  | nil => simp
  | cons s o ih =>
      cases s with
      | none =>
          simp [ih, Nat.succ_mul]
          omega
      | some c =>
          simp [ih]
          omega

end Fill

section Start

variable {p : Text} {o : Outline} {test : Char → Bool}

theorem dropWhile_fill (stop : p.head?.any test = false) (nonempty : p ≠ []) :
    (fill p o).dropWhile test = fill p (o.dropWhile (·.any test)) := by
  induction o with
  | nil => rfl
  | cons s o ih =>
      cases s with
      | none =>
          obtain ⟨c, r, rfl⟩ := List.exists_cons_of_ne_nil nonempty
          have fails : test c = false := stop
          simp [fails]
      | some c => cases passes : test c <;> simp [passes, ih]

end Start

theorem none_mem_dropWhile_iff {o : Outline} {test : Char → Bool} :
    none ∈ o.dropWhile (·.any test) ↔ none ∈ o := by
  induction o with
  | nil => rfl
  | cons s o ih =>
      cases s with
      | none => rfl
      | some c => cases passes : test c <;> simp [passes, ih]

/-- White space is taken from the ends of an outline, whatever is filled in. -/
theorem exists_trim (o : Outline) : ∃ r, r <:+: o ∧ (none ∈ r ↔ none ∈ o) ∧
    ∀ p, IsCheckedPath p → trim (fill p o) = fill p r := by
  let start := o.dropWhile (·.any isBlank)
  have suffix : start <:+ o := List.dropWhile_suffix _
  have front : (start.reverse.dropWhile (·.any isBlank)).reverse <+: start :=
    List.reverse_suffix.mp (by rw [List.reverse_reverse]; exact List.dropWhile_suffix _)
  refine ⟨_, front.isInfix.trans suffix.isInfix, ?_, fun p fit => ?_⟩
  · rw [List.mem_reverse, none_mem_dropWhile_iff, List.mem_reverse, none_mem_dropWhile_iff]
  · have first : p.head?.any isBlank = false := by
      rw [fit.absolute]
      rfl
    have last : p.reverse.head?.any isBlank = false := by
      rw [List.head?_reverse, fit.getLast_eq]
      rfl
    have nonempty : p.reverse ≠ [] := fun h => fit.ne_nil (List.reverse_eq_nil_iff.mp h)
    rw [trim, trimStart, dropWhile_fill first fit.ne_nil, trimEnd, ← fill_reverse,
      dropWhile_fill last nonempty, ← fill_reverse, List.reverse_reverse]

theorem head_fill {p : Text} (fit : IsCheckedPath p) (o : Outline) :
    (fill p o).head? = o.head?.map (·.getD '/') := by
  obtain ⟨r, rfl⟩ := fit.exists_cons
  cases o with
  | nil => rfl
  | cons s o => cases s <;> rfl

/-- A first character that is no slash stands in the outline itself. -/
theorem exists_of_head {o : Outline} {c : Char} (first : o.head?.map (·.getD '/') = some c)
    (other : c ≠ '/') : ∃ r, o = some c :: r := by
  cases o with
  | nil => cases first
  | cons s r =>
      cases s with
      | none => exact absurd (Option.some.inj first).symm other
      | some d =>
          obtain rfl : d = c := Option.some.inj first
          exact ⟨r, rfl⟩

/-- A line break in an outline ends a line, together with a line feed behind a carriage return. -/
theorem exists_after_break {c : Char} (ends : isLineBreak c = true) (o : Outline) :
    ∃ r : Outline, r <:+ some c :: o ∧ r.length ≤ o.length ∧ ∀ p, IsCheckedPath p → ∀ current,
      linesAfter current (fill p (some c :: o)) = current.reverse :: linesAfter [] (fill p r) := by
  by_cases pair : c = '\r' ∧ o.head? = some (some '\n')
  · obtain ⟨rfl, feed⟩ := pair
    obtain ⟨r, rfl⟩ := List.head?_eq_some_iff.mp feed
    exact ⟨r, List.suffix_append [some '\r', some '\n'] r, Nat.le_succ _, fun p fit current => rfl⟩
  · refine ⟨o, List.suffix_cons (some c) o, Nat.le_refl _, fun p fit current => ?_⟩
    apply linesAfter_break ends
    rintro rfl feed
    obtain ⟨r, rfl⟩ := exists_of_head ((head_fill fit o).symm.trans feed) (by decide)
    exact pair ⟨rfl, rfl⟩

/-- The lines of an outline, given what stands before it on its first line. -/
theorem exists_linesAfter (current o : Outline) :
    ∃ ls : List Outline, (∀ l ∈ ls, l <:+: current ++ o) ∧
      ∀ p, IsCheckedPath p → linesAfter (fill p current).reverse (fill p o) = ls.map (fill p) := by
  induction hn : o.length using Nat.strongRecOn generalizing current o with
  | ind n ih =>
      subst hn
      cases o with
      | nil =>
          by_cases empty : current = []
          · exact ⟨[], nofun, fun p fit => by simp [empty, linesAfter]⟩
          · refine ⟨[current], by simp, fun p fit => ?_⟩
            simp [linesAfter, fill_eq_nil_iff fit.ne_nil, empty]
      | cons s o =>
          have next (c r : Outline) (shorter : r.length ≤ o.length) :=
            ih _ (Nat.lt_succ_of_le shorter) c r rfl
          cases s with
          | none =>
              obtain ⟨ls, inside, cut⟩ := next (current ++ [none]) o (Nat.le_refl _)
              refine ⟨ls, fun l mem => by simpa using inside l mem, fun p fit => ?_⟩
              rw [← cut p fit, fill_place, linesAfter_append fit.isLineBreak_eq]
              simp
          | some c =>
              cases ends : isLineBreak c with
              | false =>
                  obtain ⟨ls, inside, cut⟩ := next (current ++ [some c]) o (Nat.le_refl _)
                  refine ⟨ls, fun l mem => by simpa using inside l mem, fun p fit => ?_⟩
                  rw [← cut p fit, fill_char, linesAfter_kept ends]
                  simp
              | true =>
                  obtain ⟨r, tail, shorter, after⟩ := exists_after_break ends o
                  obtain ⟨ls, inside, cut⟩ := next [] r shorter
                  refine ⟨current :: ls, fun l mem => ?_, fun p fit => ?_⟩
                  · obtain rfl | later := List.mem_cons.mp mem
                    · exact (List.prefix_append l _).isInfix
                    · have within := tail.trans (List.suffix_append current _)
                      exact (inside l later).trans within.isInfix
                  · rw [after p fit, List.reverse_reverse, List.map_cons, ← cut p fit]
                    rfl

theorem exists_trims (o : Outline) {ls : List Outline} (inside : ∀ l ∈ ls, l <:+: o) :
    ∃ ts : List Outline, (∀ t ∈ ts, t <:+: o) ∧
      ∀ p, IsCheckedPath p → (ls.map (fill p)).map trim = ts.map (fill p) := by
  induction ls with
  | nil => exact ⟨[], nofun, fun _ _ => rfl⟩
  | cons l ls ih =>
      obtain ⟨ts, parts, trims⟩ := ih fun l mem => inside l (List.mem_cons_of_mem _ mem)
      obtain ⟨t, part, -, trimmed⟩ := exists_trim l
      refine ⟨t :: ts, fun u mem => ?_, fun p fit => ?_⟩
      · obtain rfl | later := List.mem_cons.mp mem
        · exact part.trans (inside l List.mem_cons_self)
        · exact parts u later
      · rw [List.map_cons, List.map_cons, trimmed p fit, trims p fit, List.map_cons]

theorem find_nonempty_fill {p : Text} (fit : IsCheckedPath p) (ts : List Outline) :
    (ts.map (fill p)).find? (!·.isEmpty) = (ts.find? (!·.isEmpty)).map (fill p) := by
  induction ts with
  | nil => rfl
  | cons t ts ih =>
      have same : (fill p t).isEmpty = t.isEmpty := by
        rw [Bool.eq_iff_iff, List.isEmpty_iff, List.isEmpty_iff, fill_eq_nil_iff fit.ne_nil]
      rw [List.map_cons, List.find?_cons, List.find?_cons, same, ih]
      cases t.isEmpty <;> rfl

/-- The first line that is not blank is one part of an outline, whatever is filled in. -/
theorem exists_firstLine (o : Outline) : ∃ l, l <:+: o ∧
    ∀ p, IsCheckedPath p → firstLine (fill p o) = fill p l := by
  obtain ⟨ls, inside, cut⟩ := exists_linesAfter [] o
  obtain ⟨ts, parts, trims⟩ := exists_trims o inside
  refine ⟨(ts.find? (!·.isEmpty)).getD [], ?_, fun p fit => ?_⟩
  · cases found : ts.find? (!·.isEmpty) with
    | none => exact List.nil_infix
    | some t => exact parts t (List.mem_of_find?_eq_some found)
  · have cut : lines (fill p o) = ls.map (fill p) := cut p fit
    rw [firstLine, cut, trims p fit, find_nonempty_fill fit]
    cases ts.find? (!·.isEmpty) <;> rfl

end Outline
end PhpGate
