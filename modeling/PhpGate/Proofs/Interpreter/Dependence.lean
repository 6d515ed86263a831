import PhpGate.Proofs.Interpreter.Place

/-!
What a report says of the path of the checked file. Two paths that are filled into the same output
give the same report just when every place left in the first line follows `in`, since only these
places are taken away; else each path is part of its message.
-/

namespace PhpGate

open Text LintReport

namespace Outline

variable {p q : Text} {o : Outline}

/-- The last characters of a filled outline are those of the outline itself if they hold neither end
of a path. -/
theorem suffix_of_fill {lead : Text} (fit : IsCheckedPath p) (start : '/' ∉ lead)
    (stop : 'p' ∉ lead) (suffix : lead <:+ fill p o) : ofText lead <:+ o := by
  induction o with
  | nil =>
      obtain rfl : lead = [] := List.suffix_nil.mp suffix
      exact List.suffix_refl _
  | cons s o ih =>
      have later (within : lead <:+ fill p o) : ofText lead <:+ s :: o :=
        (ih within).trans (List.suffix_cons s o)
      cases s with
      | some c =>
          obtain whole | within := List.suffix_cons_iff.mp suffix
          · have whole : lead = fill p (some c :: o) := whole
            rw [whole] at start ⊢
            exact ⟨[], (eq_ofText_of_fill fit start).symm⟩
          · exact later within
      | none =>
          obtain ⟨u, split⟩ := suffix
          rw [fill_place] at split
          obtain ⟨w, path, rfl⟩ | ⟨w, -, behind⟩ := List.append_eq_append_iff.mp split
          · obtain rfl | ⟨w, c, rfl⟩ := List.eq_nil_or_concat w
            · exact later (List.suffix_refl _)
            · have last := fit.getLast_eq
              rw [path, List.concat_eq_append, ← List.append_assoc, List.getLast?_concat] at last
              cases last
              simp at stop
          · exact later ⟨w, behind.symm⟩

/-- In a filled outline a path follows leads just when the places of the outline do. -/
theorem followsIn_fill_iff (fit : IsCheckedPath p) (only : ShowsOnlyInPlaces p o) :
    FollowsIn p (fill p o) ↔ PlacesFollowIn o := by
  constructor
  · rintro follow a b rfl
    obtain ⟨lead, leads, suffix⟩ := follow (fill p a) (fill p b) (by simp)
    exact ⟨lead, leads, suffix_of_fill fit (leads.not_mem rfl (by decide) (by decide))
      (leads.not_mem rfl (by decide) (by decide)) suffix⟩
  · intro follow u v split
    obtain ⟨a, b, rfl, rfl⟩ := only u v split
    obtain ⟨lead, leads, w, rfl⟩ := follow a b rfl
    exact ⟨lead, leads, fill p w, by simp⟩

/-- Two different paths fill an outline alike just when it leaves no place open. -/
theorem fill_eq_fill_iff (different : p ≠ q) : fill p o = fill q o ↔ none ∉ o := by
  induction o with
  | nil => simp
  | cons s o ih =>
      cases s with
      | some c => simpa using ih
      | none =>
          refine iff_of_false (fun same => different ?_) (by simp)
          have lengths := congrArg List.length same
          rw [length_fill, length_fill, Nat.add_right_cancel_iff] at lengths
          have lengths := Nat.eq_of_mul_eq_mul_left (by simp) lengths
          exact (List.append_inj same lengths).1

/-- What is read from a filled outline: a message with places where it holds the path, and a line
number that does not depend on the path. -/
theorem exists_read (o : Outline) : ∃ (d m : Outline) (line : Option Nat),
    d <:+: o ∧ (none ∉ m ↔ PlacesFollowIn d) ∧
    ∀ p, IsCheckedPath p → ShowsOnlyInPlaces p o →
      dropLabel (firstLine (fill p o)) = fill p d ∧
        read? p (fill p o) = line.map fun n => ⟨fill p m, n⟩ := by
  obtain ⟨l, within, first⟩ := exists_firstLine o
  obtain ⟨x, number⟩ := exists_firstLineNumber l
  obtain ⟨d, suffix, dropped⟩ := exists_dropLabel l
  obtain ⟨r, kept, cuts⟩ := exists_dropPlace d
  obtain ⟨m, -, places, trims⟩ := exists_trim r
  have part : d <:+: o := suffix.isInfix.trans within
  by_cases empty : l = []
  · subst empty
    obtain rfl : d = [] := List.suffix_nil.mp suffix
    refine ⟨[], ofText "Syntax check failed".toList, some 0, List.nil_infix, ?_, ?_⟩
    · simp [PlacesFollowIn, ofText]
    · intro p fit only
      have none : firstLine (fill p o) = [] := first p fit
      exact ⟨by rw [none]; rfl, by rw [read?, none, fill_ofText]; rfl⟩
  · refine ⟨d, m, x.elim (some 0) readDigits?, part, ?_, fun p fit only => ?_⟩
    · rw [← kept, places]
    · have message : trim (dropPlace p (fill p d)) = fill p m := by
        rw [← trims p fit]
        exact congrArg trim (cuts p fit (only.of_part fit.ne_nil part) [])
      refine ⟨by rw [first p fit, dropped p fit], ?_⟩
      have nonempty : fill p l ≠ [] := fun none => empty ((fill_eq_nil_iff fit.ne_nil).mp none)
      rw [read_of_firstLine p (first p fit) nonempty, number p fit, dropped p fit, message]

end Outline

namespace OutputTemplate

/-- The path of the checked file stands in an output only where the template has its holes. -/
def ShowsOnlyInHoles (p : Text) (template : OutputTemplate) : Prop :=
  ∀ u v, template.fill p = u ++ (p ++ v) →
    ∃ front back, template = front ++ .checkedPath :: back ∧ u = OutputTemplate.fill p front

def outline (template : OutputTemplate) : Outline :=
  List.flatMap (fun | .words t => Outline.ofText t | .checkedPath => [none]) template

variable {p q : Text} {template : OutputTemplate}

theorem fill_outline (p : Text) (template : OutputTemplate) :
    template.outline.fill p = template.fill p := by
  induction template with
  | nil => rfl
  | cons part template ih =>
      rw [outline, fill] at ih
      rw [outline, fill, List.flatMap_cons, Outline.fill_append, List.flatMap_cons, ih]
      cases part <;> simp

theorem ShowsOnlyInHoles.outline (only : ShowsOnlyInHoles p template) :
    template.outline.ShowsOnlyInPlaces p := by
  intro u v split
  rw [fill_outline] at split
  obtain ⟨front, back, rfl, rfl⟩ := only u v split
  exact ⟨OutputTemplate.outline front, OutputTemplate.outline back, List.flatMap_append,
    (fill_outline p front).symm⟩

theorem fill_append (front back : OutputTemplate) :
    OutputTemplate.fill p (front ++ back)
      = OutputTemplate.fill p front ++ OutputTemplate.fill p back :=
  List.flatMap_append

theorem showsOnlyInHoles_iff : ShowsOnlyInHoles p template ↔
    ∀ n ∈ List.range ((template.fill p).length + 1), p <+: (template.fill p).drop n →
      ∃ k ∈ List.range template.length, template[k]? = some .checkedPath ∧
        (OutputTemplate.fill p (template.take k)).length = n := by
  constructor
  · rintro only n within ⟨v, here⟩
    rw [List.mem_range] at within
    obtain ⟨front, back, rfl, before⟩ := only ((template.fill p).take n) v
      (by rw [here, List.take_append_drop])
    refine ⟨front.length, by simp, by simp, ?_⟩
    rw [List.take_left, ← before, List.length_take]
    omega
  · intro shown u v split
    have within : u.length ∈ List.range ((template.fill p).length + 1) := by
      rw [List.mem_range, split, List.length_append]
      omega
    obtain ⟨k, -, hole, length⟩ := shown u.length within ⟨v, by rw [split, List.drop_left]⟩
    obtain ⟨within, hole⟩ := List.getElem?_eq_some_iff.mp hole
    have parts : template = template.take k ++ .checkedPath :: template.drop (k + 1) := by
      rw [← hole, List.getElem_cons_drop, List.take_append_drop]
    refine ⟨_, _, parts, ?_⟩
    rw [parts, fill_append] at split
    exact (List.append_inj split length).1.symm

instance : Decidable (ShowsOnlyInHoles p template) :=
  decidable_of_iff _ showsOnlyInHoles_iff.symm

end OutputTemplate

namespace LintReport

variable {p q : Text} {template : OutputTemplate}

/-- Two paths in the same output give the same report just when the line number cannot be read, or
when the path stands in the first line without its label only behind `in`. Else the message holds
the path. -/
theorem read_fill_eq_iff (fit : IsCheckedPath p) (fit' : IsCheckedPath q) (different : p ≠ q)
    (only : template.ShowsOnlyInHoles p) (only' : template.ShowsOnlyInHoles q) :
    (read? p (template.fill p) = read? q (template.fill q) ↔
      (∃ digits, NumbersLine (firstLine (template.fill p)) digits ∧ digitLimit < digits.length) ∨
        FollowsIn p (dropLabel (firstLine (template.fill p)))) ∧
    ∀ report, read? p (template.fill p) = some report →
      ¬ FollowsIn p (dropLabel (firstLine (template.fill p))) → p <:+: report.message := by
  obtain ⟨d, m, line, part, places, reads⟩ := Outline.exists_read template.outline
  have shown := only.outline.of_part fit.ne_nil part
  obtain ⟨dropped, read⟩ := reads p fit only.outline
  obtain ⟨-, read'⟩ := reads q fit' only'.outline
  rw [OutputTemplate.fill_outline] at dropped read read'
  rw [dropped, Outline.followsIn_fill_iff fit shown, ← places, ← read_eq_none_iff, read, read']
  cases line with
  | none => simp
  | some n =>
      refine ⟨?_, ?_⟩
      · simpa using Outline.fill_eq_fill_iff different
      · rintro report found leaks
        obtain rfl := Option.some.inj found
        obtain ⟨a, b, rfl⟩ := List.append_of_mem (Decidable.not_not.mp leaks)
        exact ⟨Outline.fill p a, Outline.fill p b, by simp⟩

theorem followsIn_parse_error :
    let report : OutputTemplate :=
      [.words "PHP Parse error:  x in ".toList, .checkedPath, .words " on line 3".toList]
    read? "/tmp/a.php".toList (report.fill "/tmp/a.php".toList) = some ⟨"x".toList, 3⟩ ∧
      FollowsIn "/tmp/a.php".toList (dropLabel (firstLine (report.fill "/tmp/a.php".toList))) := by
  intro report
  have fit : IsCheckedPath "/tmp/a.php".toList := by decide
  have fit' : IsCheckedPath "/tmp/b.php".toList := by decide
  have read : read? "/tmp/a.php".toList (report.fill "/tmp/a.php".toList)
      = some ⟨"x".toList, 3⟩ := by decide
  have same := (@read_fill_eq_iff _ _ report fit fit' (by decide) (by decide) (by decide)).1.mp
    (by decide)
  refine ⟨read, same.resolve_left fun long => ?_⟩
  rw [← read_eq_none_iff, read] at long
  cases long

/-- With no word `in` in front of it, the path stays in the message. -/
theorem read_fill_ne_errors_parsing :
    let output : OutputTemplate := [.words "Errors parsing ".toList, .checkedPath, .words ['\n']]
    let p := "/tmp/phpcheck_a.php".toList
    let q := "/tmp/phpcheck_b.php".toList
    IsCheckedPath p ∧ IsCheckedPath q ∧ output.ShowsOnlyInHoles p ∧ output.ShowsOnlyInHoles q ∧
      read? p (output.fill p) = some ⟨"Errors parsing /tmp/phpcheck_a.php".toList, 0⟩ ∧
      read? q (output.fill q) = some ⟨"Errors parsing /tmp/phpcheck_b.php".toList, 0⟩ := by
  intro output p q
  have fit : IsCheckedPath p := by decide
  have fit' : IsCheckedPath q := by decide
  exact ⟨fit, fit', by decide, by decide, by decide, by decide⟩

end LintReport
end PhpGate
