import PhpGate.Text.Basic

/-!
Texts with the same lines. The first breaks its lines by line feeds alone; in the second a carriage
return may stand in front of any of them. A cut that falls between two characters of the first falls
between two of the second, and never inside a pair.
-/

namespace PhpGate.Text

inductive SameLines : Text → Text → Prop
  | nil : SameLines [] []
  | char {c : Char} {a b : Text} (visible : c ≠ '\r') (rest : SameLines a b) :
      SameLines (c :: a) (c :: b)
  | pair {a b : Text} (rest : SameLines a b) : SameLines ('\n' :: a) ('\r' :: '\n' :: b)

/-- A carriage return in front of every line feed. -/
def pairBreaks (t : Text) : Text :=
  t.flatMap fun c => if c = '\n' then ['\r', '\n'] else [c]

/-- No line feed and no carriage return stands in the text. -/
abbrev Unbroken (t : Text) : Prop :=
  t.all (fun c => c != '\n' && c != '\r') = true

variable {a b w v : Text} {n m k l : Nat}

theorem unbroken_iff : Unbroken a ↔ '\n' ∉ a ∧ '\r' ∉ a := by
  simp only [Unbroken, List.all_eq_true, Bool.and_eq_true, bne_iff_ne]
  constructor
  · intro h
    exact ⟨fun mem => (h _ mem).1 rfl, fun mem => (h _ mem).2 rfl⟩
  · rintro ⟨feed, ret⟩ c mem
    exact ⟨fun same => feed (same ▸ mem), fun same => ret (same ▸ mem)⟩

theorem sameLines_pairBreaks (unpaired : '\r' ∉ a) : SameLines a (pairBreaks a) := by
  induction a with
  | nil => exact .nil
  | cons c a ih =>
      rw [List.mem_cons, not_or] at unpaired
      have rest := ih unpaired.2
      rw [pairBreaks, List.flatMap_cons, ← pairBreaks]
      split
      · next feed =>
          subst feed
          exact .pair rest
      · exact .char (Ne.symm unpaired.1) rest

namespace SameLines

theorem refl (unpaired : '\r' ∉ a) : SameLines a a := by
  induction a with
  | nil => exact .nil
  | cons c a ih =>
      rw [List.mem_cons, not_or] at unpaired
      exact .char (Ne.symm unpaired.1) (ih unpaired.2)

theorem unpaired (h : SameLines a b) : '\r' ∉ a := by
  induction h with
  | nil => exact List.not_mem_nil
  | char visible _ ih => simp [visible.symm, ih]
  | pair _ ih => simp [ih]

theorem append (h : SameLines a b) (h' : SameLines w v) : SameLines (a ++ w) (b ++ v) := by
  induction h with
  | nil => exact h'
  | char visible _ ih => exact .char visible ih
  | pair _ ih => exact .pair ih

theorem newlines_eq (h : SameLines a b) : a.newlines = b.newlines := by
  induction h with
  | nil => rfl
  | char _ _ ih => rw [newlines, newlines, List.count_cons, List.count_cons, ← newlines, ih, newlines]
  | pair _ ih =>
      rw [newlines, newlines, List.count_cons, List.count_cons, List.count_cons, ← newlines, ih,
        newlines]
      rfl

theorem keepNewlines_eq (h : SameLines a b) : keepNewlines a = keepNewlines b := by
  rw [keepNewlines, keepNewlines, h.newlines_eq]

theorem eq_nil_iff (h : SameLines a b) : a = [] ↔ b = [] := by
  cases h <;> simp

theorem getLast_eq (h : SameLines a b) : a.getLast? = b.getLast? := by
  induction h with
  | nil => rfl
  | char _ _ ih => rw [List.getLast?_cons, List.getLast?_cons, ih]
  | pair _ ih => rw [List.getLast?_cons, List.getLast?_cons, List.getLast?_cons, ih]; rfl

theorem any_head_eq (h : SameLines a b) {p : Char → Bool} (breaks : p '\n' = p '\r') :
    a.head?.any p = b.head?.any p := by
  cases h with
  | nil => rfl
  | char => rfl
  | pair => exact breaks

theorem head_eq_iff (h : SameLines a b) {c : Char} (visible : c ≠ '\n' ∧ c ≠ '\r') :
    a.head? = some c ↔ b.head? = some c := by
  cases h with
  | nil => rfl
  | char => rfl
  | pair => simp [visible.1.symm, visible.2.symm]

theorem head_cases (h : SameLines a b) : a.head? = b.head? ∨
    a.head? = some '\n' ∧ b.head? = some '\r' := by
  cases h with
  | nil => exact .inl rfl
  | char => exact .inl rfl
  | pair => exact .inr ⟨rfl, rfl⟩

theorem takeWhile (h : SameLines a b) {p : Char → Bool} (breaks : p '\n' = p '\r') :
    SameLines (a.takeWhile p) (b.takeWhile p) := by
  induction h with
  | nil => exact .nil
  | char visible _ ih =>
      rw [List.takeWhile_cons, List.takeWhile_cons]
      split
      · exact .char visible ih
      · exact .nil
  | pair _ ih =>
      simp only [List.takeWhile_cons, ← breaks]
      split
      · exact .pair ih
      · exact .nil

theorem takeWhile_eq (h : SameLines a b) {p : Char → Bool}
    (breaks : p '\n' = false ∧ p '\r' = false) : a.takeWhile p = b.takeWhile p := by
  induction h with
  | nil => rfl
  | char _ _ ih => rw [List.takeWhile_cons, List.takeWhile_cons, ih]
  | pair => simp [breaks.1, breaks.2]

theorem dropWhile (h : SameLines a b) {p : Char → Bool} (breaks : p '\n' = p '\r') :
    SameLines (a.dropWhile p) (b.dropWhile p) := by
  induction h with
  | nil => exact .nil
  | char visible rest ih =>
      rw [List.dropWhile_cons, List.dropWhile_cons]
      split
      · exact ih
      · exact rest.char visible
  | pair rest ih =>
      simp only [List.dropWhile_cons, ← breaks]
      split
      · exact ih
      · exact rest.pair

theorem take_eq (h : SameLines a b) (unbroken : Unbroken (a.take n) ∨ Unbroken (b.take n)) :
    a.take n = b.take n := by
  induction h generalizing n with
  | nil => rfl
  | char _ _ ih =>
      cases n with
      | zero => rfl
      | succ n =>
          simp only [List.take_succ_cons, Unbroken, List.all_cons, Bool.and_eq_true] at unbroken
          rw [List.take_succ_cons, List.take_succ_cons, ih (unbroken.imp And.right And.right)]
  | pair =>
      cases n with
      | zero => rfl
      | succ n => simp [Unbroken] at unbroken

theorem eq_of_unbroken (h : SameLines a b) (unbroken : '\n' ∉ a) : a = b := by
  induction h with
  | nil => rfl
  | char _ _ ih =>
      rw [List.mem_cons, not_or] at unbroken
      rw [ih unbroken.2]
  | pair => exact absurd List.mem_cons_self unbroken

/-- A test of the first characters that no line break passes. -/
theorem take_iff (h : SameLines a b) {P : Text → Prop} (unbroken : ∀ w, P w → Unbroken w) :
    P (a.take n) ↔ P (b.take n) := by
  constructor
  · intro passes
    rwa [← h.take_eq (.inl (unbroken _ passes))]
  · intro passes
    rwa [h.take_eq (.inr (unbroken _ passes))]

/-- The front of the first text has a front of the second with the same lines. -/
theorem exists_of_append {x y : Text} (h : SameLines (x ++ y) b) :
    ∃ x' y', b = x' ++ y' ∧ SameLines x x' ∧ SameLines y y' := by
  induction x generalizing b with
  | nil => exact ⟨[], b, rfl, .nil, h⟩
  | cons c x ih =>
      rw [List.cons_append] at h
      cases h with
      | char visible rest =>
          obtain ⟨x', y', rfl, front, back⟩ := ih rest
          exact ⟨c :: x', y', rfl, .char visible front, back⟩
      | pair rest =>
          obtain ⟨x', y', rfl, front, back⟩ := ih rest
          exact ⟨'\r' :: '\n' :: x', y', rfl, .pair front, back⟩

theorem eq_filter (h : SameLines a b) : a = b.filter (· != '\r') := by
  induction h with
  | nil => rfl
  | char visible _ ih => rw [List.filter_cons, if_pos (bne_iff_ne.mpr visible), ← ih]
  | pair _ ih => rw [List.filter_cons_of_neg (by decide), List.filter_cons_of_pos (by decide), ← ih]

/-- A test of an end of the text that no line break passes. -/
theorem suffix_iff (h : SameLines a b) {P : Text → Prop} (unbroken : ∀ w, P w → Unbroken w) :
    (∃ w, w <:+ a ∧ P w) ↔ ∃ w, w <:+ b ∧ P w := by
  constructor
  · rintro ⟨w, ⟨x, rfl⟩, passes⟩
    obtain ⟨x', w', rfl, -, same⟩ := h.exists_of_append
    obtain rfl := same.eq_of_unbroken (unbroken_iff.mp (unbroken w passes)).1
    exact ⟨w, ⟨x', rfl⟩, passes⟩
  · rintro ⟨w, ⟨y, rfl⟩, passes⟩
    have kept : w.filter (· != '\r') = w := by
      rw [List.filter_eq_self]
      intro c mem
      rw [bne_iff_ne]
      rintro rfl
      exact (unbroken_iff.mp (unbroken w passes)).2 mem
    rw [h.eq_filter, List.filter_append, kept]
    exact ⟨w, ⟨_, rfl⟩, passes⟩

end SameLines

/-- The first `n` characters of one text have the same lines as the first `m` of the other, and so
have the rests. -/
structure SameCut (a b : Text) (n m : Nat) : Prop where
  front : SameLines (a.take n) (b.take m)
  back : SameLines (a.drop n) (b.drop m)

namespace SameCut

theorem zero (h : SameLines a b) : SameCut a b 0 0 :=
  ⟨.nil, h⟩

theorem char {c : Char} (visible : c ≠ '\r') (h : SameCut a b n m) :
    SameCut (c :: a) (c :: b) (n + 1) (m + 1) :=
  ⟨.char visible h.front, h.back⟩

theorem pair (h : SameCut a b n m) : SameCut ('\n' :: a) ('\r' :: '\n' :: b) (n + 1) (m + 2) :=
  ⟨.pair h.front, h.back⟩

theorem add (h : SameCut a b n m) (h' : SameCut (a.drop n) (b.drop m) k l) :
    SameCut a b (n + k) (m + l) := by
  constructor
  · rw [List.take_add, List.take_add]
    exact h.front.append h'.front
  · rw [← List.drop_drop, ← List.drop_drop]
    exact h'.back

theorem eq_zero_iff (h : SameCut a b n m) (le : n ≤ a.length) (le' : m ≤ b.length) :
    n = 0 ↔ m = 0 := by
  have empty := h.front.eq_nil_iff
  rw [← List.length_eq_zero_iff, ← List.length_eq_zero_iff, List.length_take, List.length_take,
    Nat.min_eq_left le, Nat.min_eq_left le'] at empty
  exact empty

theorem one {c : Char} (h : SameLines a b) (head : a.head? = some c) (unfed : c ≠ '\n') :
    SameCut a b 1 1 := by
  cases h with
  | nil => cases head
  | char visible rest => exact (zero rest).char visible
  | pair =>
      cases head
      exact absurd rfl unfed

theorem takeWhile (h : SameLines a b) {p : Char → Bool} (breaks : p '\n' = p '\r') :
    SameCut a b (a.takeWhile p).length (b.takeWhile p).length := by
  have front (t : Text) : t.take (t.takeWhile p).length = t.takeWhile p :=
    (List.prefix_iff_eq_take.mp (List.takeWhile_prefix p)).symm
  have back (t : Text) : t.drop (t.takeWhile p).length = t.dropWhile p := by
    have behind := @List.drop_left _ (t.takeWhile p) (t.dropWhile p)
    rwa [List.takeWhile_append_dropWhile] at behind
  constructor
  · rw [front, front]
    exact h.takeWhile breaks
  · rw [back, back]
    exact h.dropWhile breaks

theorem of_take (h : SameLines a b) (unbroken : Unbroken (a.take n)) : SameCut a b n n := by
  induction h generalizing n with
  | nil => exact ⟨by simpa using .nil, by simpa using .nil⟩
  | char visible rest ih =>
      cases n with
      | zero => exact zero (rest.char visible)
      | succ n =>
          simp only [List.take_succ_cons, Unbroken, List.all_cons, Bool.and_eq_true] at unbroken
          exact (ih unbroken.2).char visible
  | pair rest =>
      cases n with
      | zero => exact zero rest.pair
      | succ n => simp [Unbroken] at unbroken

end SameCut

theorem eq_none_of_rel {α β : Type} {r : α → β → Prop} {p : Option β} (h : Option.Rel r none p) :
    p = none := by
  cases h
  rfl

theorem exists_of_rel_some {α β : Type} {r : α → β → Prop} {x : α} {p : Option β}
    (h : Option.Rel r (some x) p) : ∃ y, r x y ∧ p = some y := by
  cases h with
  | some related => exact ⟨_, related, rfl⟩

/-- Two patterns match neither, or both up to the same place. -/
abbrev SameMatch (a b : Text) : Option Nat → Option Nat → Prop :=
  Option.Rel (SameCut a b)

variable {o o' : Option Nat}

namespace SameMatch

theorem after (cut : SameCut a b n m) (h : SameMatch (a.drop n) (b.drop m) o o') :
    SameMatch a b (o.map (n + ·)) (o'.map (m + ·)) := by
  cases h with
  | none => exact .none
  | some h => exact .some (cut.add h)

theorem char {c : Char} (visible : c ≠ '\r') (h : SameMatch a b o o') :
    SameMatch (c :: a) (c :: b) (o.map (· + 1)) (o'.map (· + 1)) := by
  cases h with
  | none => exact .none
  | some h => exact .some (h.char visible)

theorem pair (h : SameMatch a b o o') :
    SameMatch ('\n' :: a) ('\r' :: '\n' :: b) (o.map (· + 1)) ((o'.map (· + 1)).map (· + 1)) := by
  cases h with
  | none => exact .none
  | some h => exact .some h.pair

theorem getD (h : SameMatch a b o o') (same : SameLines a b) :
    SameCut a b (o.getD 0) (o'.getD 0) := by
  cases h with
  | none => exact .zero same
  | some h => exact h

theorem filter {p : Nat → Bool} {q : Nat → Bool} (same : ∀ n m, SameCut a b n m → p n = q m)
    (h : SameMatch a b o o') : SameMatch a b (o.filter p) (o'.filter q) := by
  cases h with
  | none => exact .none
  | @some n m h =>
      rw [Option.filter_some, Option.filter_some, ← same n m h]
      split
      · exact .some h
      · exact .none

end SameMatch

end PhpGate.Text
