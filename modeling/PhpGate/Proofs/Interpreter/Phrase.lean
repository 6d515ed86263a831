import PhpGate.Proofs.Interpreter.Outline

/-!
Labels and line numbers in an output whose place for the checked file is left open. A path is no
part of a word or a number, as it begins with a slash, and does not end like a word of a line
number; so the label, the line number and the phrase that gives a line are the same characters of an outline
whatever is filled in.
-/

namespace PhpGate.Outline

open Text LintReport

/-- An outline is cut where its characters stop to pass a test. -/
theorem exists_split (test : Char → Bool) (o : Outline) : ∃ t r, o = ofText t ++ r ∧
    t.all test = true ∧ r.head?.any (·.any test) = false := by
  induction o with
  | nil => exact ⟨[], [], rfl, rfl, rfl⟩
  | cons s o ih =>
      cases s with
      | none => exact ⟨[], none :: o, rfl, rfl, rfl⟩
      | some c =>
          cases passes : test c with
          | false => exact ⟨[], some c :: o, rfl, rfl, passes⟩
          | true =>
              obtain ⟨t, r, rfl, all, stop⟩ := ih
              exact ⟨c :: t, r, rfl, by rw [List.all_cons, passes, all, Bool.and_self], stop⟩

theorem any_head_fill {p : Text} (fit : IsCheckedPath p) {test : Char → Bool} {o : Outline}
    (slash : test '/' = false) (stop : o.head?.any (·.any test) = false) :
    (fill p o).head?.any test = false := by
  rw [head_fill fit]
  cases o with
  | nil => rfl
  | cons s o =>
      cases s with
      | none => exact slash
      | some c => exact stop

/-- A step takes away the same characters from the start of an outline, or fails on it, whatever is
filled in. -/
def Skips (f : Text → Option Text) : Prop :=
  ∀ o : Outline, (∀ p, IsCheckedPath p → f (fill p o) = none) ∨
    ∃ t r, o = ofText t ++ r ∧ ∀ p, IsCheckedPath p → f (fill p o) = some (fill p r)

theorem Skips.bind {f g : Text → Option Text} (hf : Skips f) (hg : Skips g) :
    Skips fun t => (f t).bind g := by
  intro o
  dsimp only
  obtain fails | ⟨t, r, rfl, skips⟩ := hf o
  · exact .inl fun p fit => by rw [fails p fit, Option.bind_none]
  · obtain fails | ⟨u, r, rfl, further⟩ := hg r
    · exact .inl fun p fit => by rw [skips p fit, Option.bind_some, fails p fit]
    · refine .inr ⟨t ++ u, r, by simp [ofText], fun p fit => ?_⟩
      rw [skips p fit, Option.bind_some, further p fit]

theorem skips_afterBlanks : Skips afterBlanks? := by
  intro o
  obtain ⟨t, r, rfl, blanks, stop⟩ := exists_split isBlank o
  have length (p : Text) (fit : IsCheckedPath p) :
      blankLength (fill p (ofText t ++ r)) = t.length := by
    rw [fill_append, fill_ofText]
    exact blankLength_append blanks (any_head_fill fit rfl stop)
  cases t with
  | nil => exact .inl fun p fit => by rw [afterBlanks?, length p fit]; rfl
  | cons c t =>
      refine .inr ⟨c :: t, r, rfl, fun p fit => ?_⟩
      rw [afterBlanks?, length p fit, fill_append, fill_ofText, List.length_cons]
      exact congrArg some (List.drop_left' rfl)

/-- Whether a text begins with a word, its characters being compared in some way. -/
def opens (same : Char → Char → Bool) : (word t : Text) → Bool
  | [], _ => true
  | _ :: _, [] => false
  | w :: ws, c :: cs => same c w && opens same ws cs

section Word

variable {same : Char → Char → Bool} {w t : Text}

theorem beginsWith_eq_opens : beginsWith w t = opens (fun c w => foldCase c == w) w t := by
  induction w generalizing t with
  | nil => rfl
  | cons c w ih =>
      cases t with
      | nil => rfl
      | cons d t => rw [beginsWith, opens, ih]

theorem isPrefixOf_eq_opens : w.isPrefixOf t = opens (fun c w => w == c) w t := by
  induction w generalizing t with
  | nil => rfl
  | cons c w ih =>
      cases t with
      | nil => rfl
      | cons d t => rw [List.isPrefixOf_cons_cons, opens, ih]

/-- A path is no part of a word, since it begins with a slash. -/
theorem reads_opens (slash : ∀ c ∈ w, same '/' c = false) (o : Outline) :
    (∀ p, IsCheckedPath p → opens same w (fill p o) = false) ∨
      ∃ t r, o = ofText t ++ r ∧ t.length = w.length ∧
        ∀ p, IsCheckedPath p → opens same w (fill p o) = true := by
  induction w generalizing o with
  | nil => exact .inr ⟨[], o, rfl, rfl, fun p fit => rfl⟩
  | cons c w ih =>
      cases o with
      | nil => exact .inl fun p fit => rfl
      | cons s o =>
          cases s with
          | none =>
              refine .inl fun p fit => ?_
              obtain ⟨r, rfl⟩ := fit.exists_cons
              rw [fill_place, List.cons_append, opens, slash c List.mem_cons_self, Bool.false_and]
          | some d =>
              cases first : same d c with
              | false => exact .inl fun p fit => by rw [fill_char, opens, first, Bool.false_and]
              | true =>
                  obtain fails | ⟨t, r, rfl, length, passes⟩ :=
                    ih (fun e mem => slash e (List.mem_cons_of_mem c mem)) o
                  · exact .inl fun p fit => by
                      rw [fill_char, opens, fails p fit, Bool.and_false]
                  · refine .inr ⟨d :: t, r, rfl, congrArg Nat.succ length, fun p fit => ?_⟩
                    rw [fill_char, opens, first, passes p fit, Bool.and_self]

/-- A step over a word and the white space behind it. -/
theorem skips_word (same : Char → Char → Bool) (slash : ∀ c ∈ w, same '/' c = false) :
    Skips fun t => if opens same w t then afterBlanks? (t.drop w.length) else none := by
  intro o
  dsimp only
  obtain fails | ⟨t, r, rfl, length, passes⟩ := reads_opens slash o
  · exact .inl fun p fit => by rw [fails p fit, if_neg Bool.false_ne_true]
  · have rest (p : Text) : (fill p (ofText t ++ r)).drop w.length = fill p r := by
      rw [fill_append, fill_ofText, ← length, List.drop_left]
    obtain fails | ⟨u, r, rfl, further⟩ := skips_afterBlanks r
    · exact .inl fun p fit => by rw [passes p fit, if_pos rfl, rest, fails p fit]
    · refine .inr ⟨t ++ u, r, by simp [ofText], fun p fit => ?_⟩
      rw [passes p fit, if_pos rfl, rest, further p fit]

end Word

theorem skips_afterWord (w : Text) (slash : '/' ∉ w) : Skips (afterWord? w) := by
  have skips := skips_word (fun c w => foldCase c == w) (w := w) fun c mem =>
    beq_eq_false_iff_ne.mpr fun same => slash (by rw [← same] at mem; exact mem)
  simp only [← beginsWith_eq_opens] at skips
  exact skips

/-- Skips a word as it stands, and the white space behind it. -/
def afterPlainWord? (w t : Text) : Option Text :=
  if w.isPrefixOf t then afterBlanks? (t.drop w.length) else none

theorem skips_afterPlainWord (w : Text) (slash : '/' ∉ w) : Skips (afterPlainWord? w) := by
  have skips := skips_word (fun c w => w == c) (w := w) fun c mem =>
    beq_eq_false_iff_ne.mpr fun same => slash (by rw [← same]; exact mem)
  simp only [← isPrefixOf_eq_opens] at skips
  exact skips

/-- The digits at the start of an outline. -/
theorem exists_digits (o : Outline) : ∃ t r, o = ofText t ++ r ∧ t.all isDecimalDigit = true ∧
    ∀ p, IsCheckedPath p → (fill p o).takeWhile isDecimalDigit = t := by
  obtain ⟨t, r, rfl, digits, stop⟩ := exists_split isDecimalDigit o
  refine ⟨t, r, rfl, digits, fun p fit => ?_⟩
  rw [fill_append, fill_ofText]
  exact takeWhile_append_stop digits (any_head_fill fit rfl stop)

/-- What stands behind `on line` and the white space around it, in lower case. -/
def afterLinePhrase? (t : Text) : Option Text :=
  ((afterBlanks? t).bind (afterPlainWord? "on".toList)).bind (afterPlainWord? "line".toList)

theorem skips_afterLinePhrase : Skips afterLinePhrase? :=
  (skips_afterBlanks.bind (skips_afterPlainWord _ (by decide))).bind
    (skips_afterPlainWord _ (by decide))

theorem lineSuffixLength_eq (t : Text) : lineSuffixLength t
    = ((afterLinePhrase? t).bind fun rest =>
        if (rest.takeWhile isDecimalDigit).length = 0 then none
        else some (t.length - rest.length + (rest.takeWhile isDecimalDigit).length)).getD 0 := by
  simp only [afterLinePhrase?, Option.bind_assoc, afterPlainWord?, bind_ite_none]
  rfl

/-- The phrase that gives a line number behind a path has the same extent whatever is filled in. -/
theorem exists_lineSuffix (o : Outline) : ∃ t r, o = ofText t ++ r ∧
    t.getLast?.all isDecimalDigit = true ∧
    ∀ p, IsCheckedPath p → lineSuffixLength (fill p o) = t.length := by
  obtain fails | ⟨t, r, rfl, skips⟩ := skips_afterLinePhrase o
  · exact ⟨[], o, rfl, rfl, fun p fit => by rw [lineSuffixLength_eq, fails p fit]; rfl⟩
  · obtain ⟨d, r, rfl, digits, run⟩ := exists_digits r
    by_cases none : d = []
    · refine ⟨[], _, rfl, rfl, fun p fit => ?_⟩
      rw [lineSuffixLength_eq, skips p fit, Option.bind_some, run p fit, none]
      rfl
    · refine ⟨t ++ d, r, by simp [ofText], ?_, fun p fit => ?_⟩
      · rw [List.getLast?_append, List.getLast?_eq_some_getLast none]
        exact List.all_eq_true.mp digits _ (List.getLast_mem none)
      · rw [lineSuffixLength_eq, skips p fit, Option.bind_some, run p fit]
        have positive : d.length ≠ 0 := by simpa using none
        simp [positive]

theorem skips_afterLineWords : Skips afterLineWords? :=
  (skips_afterWord _ (by decide)).bind (skips_afterWord _ (by decide))

theorem exists_onLineDigits (o : Outline) :
    ∃ x, ∀ p, IsCheckedPath p → onLineDigits? (fill p o) = x := by
  obtain fails | ⟨t, r, rfl, skips⟩ := skips_afterLineWords o
  · exact ⟨none, fun p fit => by rw [onLineDigits_eq, fails p fit]; rfl⟩
  · obtain ⟨d, r, rfl, -, run⟩ := exists_digits r
    exact ⟨_, fun p fit => by rw [onLineDigits_eq, skips p fit, Option.bind_some, run p fit]⟩

theorem afterBlanks_eq_none {c : Char} {t : Text} (inside : isBlank c = false) :
    afterBlanks? (c :: t) = none := by
  rw [afterBlanks?, blankLength, List.takeWhile_cons_of_neg (Bool.eq_false_iff.mp inside)]
  rfl

/-- No line number begins inside a path: it has no white space, and does not end like `on`. -/
theorem onLineDigits_within {p y x t : Text} (fit : IsCheckedPath p) (split : p = x ++ y)
    (nonempty : y ≠ []) : onLineDigits? (y ++ t) = none := by
  have last : y.getLast? = some 'p' := by
    have last := fit.getLast_eq
    rwa [split, List.getLast?_append, List.getLast?_eq_some_getLast nonempty, Option.some_or,
      ← List.getLast?_eq_some_getLast nonempty] at last
  have unbroken : ∀ c ∈ y, isBlank c = false := fun c mem =>
    fit.unbroken c (split ▸ List.mem_append_right x mem)
  have skipped : afterWord? "on".toList (y ++ t) = none := by
    match y with
    | [] => exact absurd rfl nonempty
    | [c] =>
        obtain rfl : c = 'p' := by simpa using last
        rfl
    | [c, d] =>
        obtain rfl : d = 'p' := by simpa using last
        have other : beginsWith "on".toList (c :: 'p' :: t) = false := by
          simp [beginsWith, foldCase]
        exact if_neg (Bool.eq_false_iff.mp other)
    | c :: d :: e :: w =>
        have stop : afterBlanks? (e :: (w ++ t)) = none :=
          afterBlanks_eq_none (unbroken e (by simp))
        rw [afterWord?]
        split
        · exact stop
        · rfl
  rw [onLineDigits_eq, afterLineWords?, skipped]
  rfl

theorem firstLineNumber_append {p t : Text} (fit : IsCheckedPath p) :
    firstLineNumber? (p ++ t) = firstLineNumber? t := by
  have behind (x y : Text) (split : p = x ++ y) :
      firstLineNumber? (y ++ t) = firstLineNumber? t := by
    induction y generalizing x with
    | nil => rfl
    | cons c y ih =>
        have none := onLineDigits_within (t := t) fit split (List.cons_ne_nil c y)
        rw [List.cons_append] at none ⊢
        rw [firstLineNumber?, none]
        exact ih (x ++ [c]) (by rw [split, List.append_assoc]; rfl)
  exact behind [] p rfl

/-- The line number is the same whatever is filled in. -/
theorem exists_firstLineNumber (o : Outline) :
    ∃ x, ∀ p, IsCheckedPath p → firstLineNumber? (fill p o) = x := by
  induction o with
  | nil => exact ⟨none, fun p fit => rfl⟩
  | cons s o ih =>
      obtain ⟨x, behind⟩ := ih
      cases s with
      | none => exact ⟨x, fun p fit => by rw [fill_place, firstLineNumber_append fit, behind p fit]⟩
      | some c =>
          obtain ⟨y, here⟩ := exists_onLineDigits (some c :: o)
          refine ⟨y.or x, fun p fit => ?_⟩
          have here := here p fit
          rw [fill_char] at here ⊢
          rw [firstLineNumber?, here, behind p fit]
          cases y <;> rfl

/-- A label is words alone, so the same one is dropped whatever is filled in. -/
theorem exists_dropLabel (o : Outline) : ∃ r, r <:+ o ∧
    ∀ p, IsCheckedPath p → dropLabel (fill p o) = fill p r := by
  obtain ⟨t, r, rfl, label, stop⟩ := exists_split isLabelChar o
  have parts (p : Text) (fit : IsCheckedPath p) : dropLabel (fill p (ofText t ++ r))
      = if ((ofText t ++ r).head?.map (·.getD '/')).any Char.isAlpha
            && r.head?.map (·.getD '/') == some ':'
          then (afterBlanks? ((fill p r).drop 1)).getD (fill p (ofText t ++ r))
          else fill p (ofText t ++ r) := by
    have taken : (fill p (ofText t ++ r)).takeWhile isLabelChar = t := by
      rw [fill_append, fill_ofText]
      exact takeWhile_append_stop label (any_head_fill fit rfl stop)
    rw [dropLabel, taken, ← List.drop_drop, head_fill fit, ← head_fill fit r]
    simp
  cases labelled : ((ofText t ++ r).head?.map (·.getD '/')).any Char.isAlpha
      && r.head?.map (·.getD '/') == some ':' with
  | false => exact ⟨_, List.suffix_refl _, fun p fit => by rw [parts p fit, labelled]; rfl⟩
  | true =>
      have colon := beq_iff_eq.mp (Bool.and_eq_true_iff.mp labelled).2
      obtain ⟨r, rfl⟩ := exists_of_head colon (by decide)
      obtain fails | ⟨gap, r, rfl, skips⟩ := skips_afterBlanks r
      · refine ⟨_, List.suffix_refl _, fun p fit => ?_⟩
        rw [parts p fit, labelled, fill_char, List.drop_one, List.tail_cons, fails p fit]
        rfl
      · refine ⟨r, ?_, fun p fit => ?_⟩
        · exact ⟨ofText t ++ some ':' :: ofText gap, by simp⟩
        · rw [parts p fit, labelled, fill_char, List.drop_one, List.tail_cons, skips p fit]
          rfl

end PhpGate.Outline
