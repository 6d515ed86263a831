import PhpGate.Interpreter.Check
import PhpGate.Proofs.Interpreter.Phrase

/-!
The place of the checked file in a report. It is taken away where it stands behind `in` and white
space, and nowhere else, so a report depends on the path exactly when the first line without its
label holds the path at another place.
-/

namespace PhpGate

open Text LintReport

namespace LintReport

/-- White space, `in` and white space. -/
def IsLead (t : Text) : Prop :=
  ∃ gap space, t = gap ++ ("in".toList ++ space) ∧ gap ≠ [] ∧ gap.all isBlank = true ∧
    space ≠ [] ∧ space.all isBlank = true

/-- A path stands in a text only behind white space, `in` and white space. -/
def FollowsIn (p t : Text) : Prop :=
  ∀ u v, t = u ++ (p ++ v) → ∃ lead, IsLead lead ∧ lead <:+ u

section Lead

variable {p t lead : Text}

theorem IsLead.ne_nil (leads : IsLead lead) : lead ≠ [] := by
  obtain ⟨gap, space, rfl, nonempty, -⟩ := leads
  exact List.append_ne_nil_of_left_ne_nil nonempty _

theorem IsLead.of_mem (leads : IsLead lead) {c : Char} (mem : c ∈ lead) :
    isBlank c = true ∨ c = 'i' ∨ c = 'n' := by
  obtain ⟨gap, space, rfl, -, blanks, -, blanks'⟩ := leads
  rw [List.mem_append, List.mem_append] at mem
  obtain mem | mem | mem := mem
  · exact .inl (List.all_eq_true.mp blanks c mem)
  · exact .inr (by simpa using mem)
  · exact .inl (List.all_eq_true.mp blanks' c mem)

theorem IsLead.not_mem (leads : IsLead lead) {c : Char} (inside : isBlank c = false)
    (other : c ≠ 'i') (other' : c ≠ 'n') : c ∉ lead := by
  intro mem
  obtain blank | same | same := leads.of_mem mem
  · rw [inside] at blank
    cases blank
  · exact other same
  · exact other' same

theorem placePattern_gap {before gap r : Text} (nonempty : gap ≠ [])
    (blanks : gap.all isBlank = true) (stop : r.head?.any isBlank = false) :
    placePattern p before (gap ++ r)
      = if "in".toList.isPrefixOf r then
          ((List.range (blankLength (r.drop 2))).reverse.find? fun n =>
            p.isPrefixOf ((r.drop 2).drop (n + 1))).map fun n =>
              let length := gap.length + 2 + (n + 1) + p.length
              length + lineSuffixLength ((gap ++ r).drop length)
        else none := by
  have first : blankLength (gap ++ r) = gap.length := blankLength_append blanks stop
  have positive : gap.length ≠ 0 := by simpa using nonempty
  rw [placePattern, first]
  split
  · contradiction
  · rw [List.drop_left]

/-- The pattern of a place stands wherever the path follows a lead, and goes as far as a phrase for
a line number does. -/
theorem placePattern_lead (leads : IsLead lead) (present : p ≠ [])
    (unbroken : ∀ c ∈ p, isBlank c = false) (before : Text) :
    placePattern p before (lead ++ (p ++ t))
      = some (lead.length + p.length + lineSuffixLength t) := by
  obtain ⟨gap, space, rfl, nonempty, blanks, nonempty', blanks'⟩ := leads
  have stop : (p ++ t).head?.any isBlank = false := by
    obtain ⟨c, p, rfl⟩ := List.exists_cons_of_ne_nil present
    exact unbroken c List.mem_cons_self
  have inner : blankLength (space ++ (p ++ t)) = space.length := blankLength_append blanks' stop
  obtain ⟨k, length⟩ : ∃ k, space.length = k + 1 :=
    Nat.exists_eq_succ_of_ne_zero (by simpa using nonempty')
  have drop : (space ++ (p ++ t)).drop (k + 1) = p ++ t := by rw [← length, List.drop_left]
  have word (r : Text) : "in".toList.isPrefixOf ("in".toList ++ r) = true := by simp
  have behind (r : Text) : ("in".toList ++ r).drop 2 = r := List.drop_left' rfl
  have prefixed : p.isPrefixOf (p ++ t) = true := by simp
  have two : "in".toList.length = 2 := rfl
  have whole : gap.length + 2 + (k + 1) + p.length
      = (gap ++ ("in".toList ++ (space ++ p))).length := by
    simp only [List.length_append, length, two]
    omega
  have rest : (gap ++ ("in".toList ++ (space ++ (p ++ t)))).drop
      (gap.length + 2 + (k + 1) + p.length) = t := by
    have front : gap ++ ("in".toList ++ (space ++ (p ++ t)))
        = gap ++ ("in".toList ++ (space ++ p)) ++ t := by simp only [List.append_assoc]
    rw [whole, front, List.drop_left]
  rw [List.append_assoc, List.append_assoc, placePattern_gap nonempty blanks rfl, if_pos (word _),
    behind, inner, length, List.range_succ, List.reverse_append, List.reverse_singleton,
    List.singleton_append, List.find?_cons, drop, prefixed, Option.map_some]
  simp only [rest, Option.some.injEq, Nat.add_right_cancel_iff, List.length_append, length, two]
  omega

theorem placePattern_nonblank {before : Text} {c : Char} (inside : isBlank c = false) :
    placePattern p before (c :: t) = none := by
  rw [placePattern, blankLength, List.takeWhile_cons_of_neg (Bool.eq_false_iff.mp inside)]
  rfl

/-- Where the pattern of a place stands, the path follows a lead. -/
theorem exists_of_placePattern {before : Text} {n : Nat}
    (found : placePattern p before t = some n) : ∃ lead r, IsLead lead ∧ t = lead ++ (p ++ r) := by
  have split : t.takeWhile isBlank ++ t.dropWhile isBlank = t := List.takeWhile_append_dropWhile
  have blanks : (t.takeWhile isBlank).all isBlank = true := List.all_takeWhile
  have stop := any_head_dropWhile isBlank t
  revert found split blanks stop
  generalize t.takeWhile isBlank = gap
  generalize t.dropWhile isBlank = rest
  rintro found rfl blanks stop
  cases gap with
  | nil =>
      cases rest with
      | nil => cases found
      | cons c rest =>
          rw [List.nil_append, placePattern_nonblank stop] at found
          cases found
  | cons c gap =>
      rw [placePattern_gap (List.cons_ne_nil c gap) blanks stop, Option.ite_none_right_eq_some,
        Option.map_eq_some_iff, List.isPrefixOf_iff_prefix] at found
      obtain ⟨⟨r, rfl⟩, m, first, -⟩ := found
      have behind : ("in".toList ++ r).drop 2 = r := List.drop_left' rfl
      rw [behind] at first
      have within := List.mem_of_find?_eq_some first
      have here := List.find?_some first
      rw [List.mem_reverse, List.mem_range] at within
      rw [List.isPrefixOf_iff_prefix] at here
      obtain ⟨v, here⟩ := here
      have space : r.take (m + 1) = (r.takeWhile isBlank).take (m + 1) := by
        rw [← List.take_append_of_le_length within, List.takeWhile_append_dropWhile]
      refine ⟨c :: gap ++ ("in".toList ++ r.take (m + 1)), v, ⟨c :: gap, _, rfl,
        List.cons_ne_nil c gap, blanks, ?_, ?_⟩, ?_⟩
      · rintro none
        rw [space, List.take_eq_nil_iff] at none
        rw [blankLength, none.resolve_left (Nat.succ_ne_zero m)] at within
        cases within
      · rw [space, List.all_eq_true]
        exact fun d mem => List.all_eq_true.mp List.all_takeWhile d (List.mem_of_mem_take mem)
      · rw [List.append_assoc, List.append_assoc, here, List.take_append_drop]

end Lead
end LintReport

namespace Outline

variable {p : Text} {o r : Outline}

/-- A path stands in a filled outline only where it was filled in. -/
def ShowsOnlyInPlaces (p : Text) (o : Outline) : Prop :=
  ∀ u v, fill p o = u ++ (p ++ v) → ∃ a b, o = a ++ none :: b ∧ u = fill p a

/-- Every place of an outline stands behind white space, `in` and white space. -/
def PlacesFollowIn (o : Outline) : Prop :=
  ∀ a b, o = a ++ none :: b → ∃ lead, IsLead lead ∧ ofText lead <:+ a

theorem ShowsOnlyInPlaces.of_part (only : ShowsOnlyInPlaces p o) (nonempty : p ≠ [])
    (part : r <:+: o) : ShowsOnlyInPlaces p r := by
  obtain ⟨x, z, rfl⟩ := part
  intro u v split
  have whole : fill p (x ++ r ++ z) = (fill p x ++ u) ++ (p ++ (v ++ fill p z)) := by
    rw [fill_append, fill_append, split]
    simp only [List.append_assoc]
  obtain ⟨a, b, place, front⟩ := only _ _ whole
  have positive := List.length_pos_iff.mpr nonempty
  -- the place does not begin before the part, as the outline in front of it would be too short
  obtain ⟨y, rfl, rest⟩ : ∃ y, a = x ++ y ∧ r ++ z = y ++ none :: b := by
    rw [List.append_assoc] at place
    obtain ⟨y, behind, rest⟩ | ⟨y, rfl, rest⟩ := List.append_eq_append_iff.mp place
    · exact ⟨y, behind, rest⟩
    · have lengths := congrArg List.length front
      simp only [fill_append, List.length_append] at lengths
      have empty : fill p y = [] := List.eq_nil_of_length_eq_zero (by omega)
      obtain rfl := (fill_eq_nil_iff nonempty).mp empty
      exact ⟨[], by simp, by simpa using rest.symm⟩
  rw [fill_append, List.append_cancel_left_eq] at front
  subst front
  -- nor does it begin behind the part, where the path would not fit any more
  obtain ⟨w, rfl, -⟩ | ⟨w, rfl, behind⟩ := List.append_eq_append_iff.mp rest
  · have lengths := congrArg List.length split
    simp only [fill_append, List.length_append] at lengths
    omega
  · cases w with
    | nil =>
        have lengths := congrArg List.length split
        simp only [List.append_nil, List.length_append] at lengths
        omega
    | cons s w =>
        obtain rfl : none = s := (List.cons.inj behind).1
        exact ⟨y, w, rfl, rfl⟩

/-- What is filled without a slash is the outline itself. -/
theorem eq_ofText_of_fill (fit : IsCheckedPath p) (slash : '/' ∉ fill p o) :
    o = ofText (fill p o) := by
  induction o with
  | nil => rfl
  | cons s o ih =>
      cases s with
      | none =>
          obtain ⟨r, rfl⟩ := fit.exists_cons
          exact absurd List.mem_cons_self slash
      | some c =>
          rw [fill_char, List.mem_cons, not_or] at slash
          exact congrArg (some c :: ·) (ih slash.2)

/-- The pattern of a place stands in a filled outline just where a place follows a lead. -/
theorem exists_lead (fit : IsCheckedPath p) (only : ShowsOnlyInPlaces p o) {before : Text} {n : Nat}
    (found : placePattern p before (fill p o) = some n) :
    ∃ lead r, IsLead lead ∧ o = ofText lead ++ none :: r := by
  obtain ⟨lead, v, leads, split⟩ := exists_of_placePattern found
  obtain ⟨a, b, rfl, rfl⟩ := only lead v split
  have slash : '/' ∉ fill p a := leads.not_mem rfl (by decide) (by decide)
  exact ⟨fill p a, b, leads, by rw [← eq_ofText_of_fill fit slash]⟩

theorem PlacesFollowIn.cons (follow : PlacesFollowIn o) (c : Char) :
    PlacesFollowIn (some c :: o) := by
  intro a b split
  cases a with
  | nil => cases split
  | cons s a =>
      obtain ⟨-, split⟩ := List.cons.inj split
      obtain ⟨lead, leads, suffix⟩ := follow a b split
      exact ⟨lead, leads, suffix.trans (List.suffix_cons s a)⟩

/-- A character at which no lead begins does not matter. -/
theorem placesFollowIn_cons_iff {c : Char}
    (apart : ¬ ∃ lead r, IsLead lead ∧ some c :: o = ofText lead ++ none :: r) :
    PlacesFollowIn (some c :: o) ↔ PlacesFollowIn o := by
  refine ⟨fun follow a b split => ?_, fun follow => follow.cons c⟩
  obtain ⟨lead, leads, suffix⟩ := follow (some c :: a) b (by rw [split, List.cons_append])
  obtain whole | suffix := List.suffix_cons_iff.mp suffix
  · exact absurd ⟨lead, b, leads, by rw [whole, split, List.cons_append]⟩ apart
  · exact ⟨lead, leads, suffix⟩

/-- No lead begins in front of a place or a digit and goes on behind it. -/
theorem suffix_of_lead {lead : Text} {x y : Outline} (leads : IsLead lead)
    (last : x.getLast?.all (·.all isDecimalDigit) = true) (suffix : ofText lead <:+ x ++ y) :
    ofText lead <:+ y := by
  obtain within | ⟨z, whole⟩ := List.suffix_or_suffix_of_suffix suffix (List.suffix_append x y)
  · exact within
  · obtain rfl | ⟨w, s, rfl⟩ := List.eq_nil_or_concat z
    · exact ⟨[], whole.symm⟩
    · exfalso
      obtain ⟨u, split⟩ := suffix
      rw [← whole, ← List.append_assoc, List.append_cancel_right_eq] at split
      have mem : s ∈ ofText lead := by rw [← whole]; simp
      obtain ⟨c, here, rfl⟩ := List.mem_map.mp mem
      have digit : isDecimalDigit c = true := by
        rw [← split] at last
        simpa using last
      have inside := isBlank_of_isWord (isWord_of_isDecimalDigit digit)
      exact leads.not_mem inside (by rintro rfl; cases digit) (by rintro rfl; cases digit) here

theorem exists_of_ofText_append {t : Text} {a b : Outline}
    (same : ofText t ++ r = a ++ none :: b) : ∃ z, a = ofText t ++ z ∧ r = z ++ none :: b := by
  obtain ⟨z, rfl, rest⟩ | ⟨z, behind, rest⟩ := List.append_eq_append_iff.mp same
  · exact ⟨z, rfl, rest⟩
  · cases z with
    | nil => exact ⟨[], by simpa using behind.symm, rest.symm⟩
    | cons s z =>
        obtain ⟨rfl, -⟩ := List.cons.inj rest
        have mem : none ∈ ofText t := by rw [behind]; simp
        simp [ofText] at mem

/-- A place behind a lead does not matter, nor the phrase for a line number behind it. -/
theorem placesFollowIn_lead_iff {lead t : Text} (leads : IsLead lead)
    (last : t.getLast?.all isDecimalDigit = true) :
    PlacesFollowIn (ofText lead ++ none :: (ofText t ++ r)) ↔ PlacesFollowIn r := by
  constructor
  · rintro follow a b rfl
    have last' : (ofText lead ++ none :: ofText t).getLast?.all (·.all isDecimalDigit) = true := by
      rw [List.getLast?_append, List.getLast?_cons, ofText, ofText, List.getLast?_map]
      cases final : t.getLast? with
      | none => rfl
      | some c =>
          rw [final] at last
          exact last
    obtain ⟨lead', leads', suffix⟩ := follow (ofText lead ++ none :: ofText t ++ a) b (by simp)
    exact ⟨lead', leads', suffix_of_lead leads' last' suffix⟩
  · intro follow a b split
    obtain ⟨z, rfl, rest⟩ := exists_of_ofText_append split
    cases z with
    | nil => exact ⟨lead, leads, by simp⟩
    | cons s z =>
        obtain ⟨rfl, behind⟩ := List.cons.inj rest
        obtain ⟨a, rfl, rfl⟩ := exists_of_ofText_append behind
        obtain ⟨lead', leads', suffix⟩ := follow a b rfl
        refine ⟨lead', leads', suffix.trans ?_⟩
        exact ⟨ofText lead ++ none :: ofText t, by simp⟩

theorem not_placesFollowIn_place : ¬ PlacesFollowIn (none :: o) := by
  intro follow
  obtain ⟨lead, leads, suffix⟩ := follow [] o rfl
  rw [List.suffix_nil, ofText, List.map_eq_nil_iff] at suffix
  exact leads.ne_nil suffix

/-- The places that follow a lead are taken out of an outline, whatever is filled in. -/
theorem exists_dropPlace (o : Outline) : ∃ r, (none ∉ r ↔ PlacesFollowIn o) ∧
    ∀ p, IsCheckedPath p → ShowsOnlyInPlaces p o → ∀ before,
      (cutAfter (placePattern p) before 0 (fill p o)).flatMap (Piece.substitute fun _ => [])
        = fill p r := by
  induction hn : o.length using Nat.strongRecOn generalizing o with
  | ind n ih =>
      subst hn
      by_cases start : ∃ lead r, IsLead lead ∧ o = ofText lead ++ none :: r
      · obtain ⟨lead, r, leads, rfl⟩ := start
        obtain ⟨t, r, rfl, digit, length⟩ := exists_lineSuffix r
        obtain ⟨s, kept, cuts⟩ := ih r.length (by simp; omega) r rfl
        refine ⟨s, kept.trans (placesFollowIn_lead_iff leads digit).symm,
          fun p fit only before => ?_⟩
        have only : ShowsOnlyInPlaces p r := only.of_part fit.ne_nil
          ⟨ofText lead ++ none :: ofText t, [], by simp⟩
        have split : fill p (ofText lead ++ none :: (ofText t ++ r))
            = (lead ++ (p ++ t)) ++ fill p r := by simp
        have found : placePattern p before ((lead ++ (p ++ t)) ++ fill p r)
            = some (lead ++ (p ++ t)).length := by
          have suffix := length p fit
          rw [fill_append, fill_ofText] at suffix
          simp only [List.append_assoc, placePattern_lead leads fit.ne_nil fit.unbroken, suffix,
            List.length_append, Nat.add_assoc]
        rw [split, cutAfter_hit (by simp [leads.ne_nil]) found, List.flatMap_cons, cuts p fit only]
        rfl
      · cases o with
        | nil => exact ⟨[], by simp [PlacesFollowIn], fun p fit only before => rfl⟩
        | cons s o =>
            obtain ⟨r, kept, cuts⟩ := ih o.length (Nat.lt_succ_self _) o rfl
            cases s with
            | none =>
                refine ⟨none :: r, by simp [not_placesFollowIn_place],
                  fun p fit only before => ?_⟩
                have only : ShowsOnlyInPlaces p o := only.of_part fit.ne_nil
                  (List.suffix_cons none o).isInfix
                have none (u : Text) (c : Char) (v : Text) (split : p = u ++ c :: v) :
                    placePattern p (u.reverse ++ before) (c :: (v ++ fill p o)) = none :=
                  placePattern_nonblank (fit.unbroken c (by rw [split]; simp))
                rw [fill_place, cutAfter_kept none, List.flatMap_append, flatMap_substitute_kept,
                  cuts p fit only, fill_place]
            | some c =>
                refine ⟨some c :: r, ?_, fun p fit only before => ?_⟩
                · rw [placesFollowIn_cons_iff start, ← kept]
                  simp
                · have none : placePattern p before (fill p (some c :: o)) = none :=
                    Option.eq_none_iff_forall_ne_some.mpr fun n found =>
                      start (exists_lead fit only found)
                  have only : ShowsOnlyInPlaces p o := only.of_part fit.ne_nil
                    (List.suffix_cons (some c) o).isInfix
                  rw [fill_char] at none
                  rw [fill_char, cutAfter, none, List.flatMap_cons, cuts p fit only, fill_char]
                  rfl

end Outline
end PhpGate
