import PhpGate.Text.Pieces

/-!
Cutting a text step by step: a match that stands at the start is one piece, and a stretch in which
no match starts is kept character by character. A run of characters ends where one of them fails.
-/

namespace PhpGate.Text

variable {pattern : Pattern} {before w r : Text}

theorem cutAfter_eq_drop (before : Text) (skip : Nat) (t : Text) :
    cutAfter pattern before skip t
      = cutAfter pattern ((t.take skip).reverse ++ before) 0 (t.drop skip) := by
  induction t generalizing before skip with
  | nil => cases skip <;> simp [cutAfter]
  | cons c t ih =>
      cases skip with
      | zero => rfl
      | succ skip => simpa [cutAfter] using ih (c :: before) skip

theorem cutAfter_skip (before w r : Text) :
    cutAfter pattern before w.length (w ++ r) = cutAfter pattern (w.reverse ++ before) 0 r := by
  rw [cutAfter_eq_drop, List.take_left, List.drop_left]

theorem cutAfter_hit (nonempty : w ≠ []) (found : pattern before (w ++ r) = some w.length) :
    cutAfter pattern before 0 (w ++ r) = .hit w :: cutAfter pattern (w.reverse ++ before) 0 r := by
  obtain ⟨c, v, rfl⟩ := List.exists_cons_of_ne_nil nonempty
  simp only [List.cons_append, List.length_cons] at found
  simp only [List.cons_append, cutAfter, found, List.take_left, cutAfter_skip]
  simp

theorem cutAfter_whole (nonempty : w ≠ [])
    (found : pattern before w = some w.length) : cutAfter pattern before 0 w = [.hit w] := by
  have hit := cutAfter_hit (r := []) nonempty (by rwa [List.append_nil])
  rwa [List.append_nil] at hit

theorem cutAfter_kept
    (none : ∀ u c v, w = u ++ c :: v → pattern (u.reverse ++ before) (c :: (v ++ r)) = none) :
    cutAfter pattern before 0 (w ++ r)
      = w.map .kept ++ cutAfter pattern (w.reverse ++ before) 0 r := by
  induction w generalizing before with
  | nil => rfl
  | cons c w ih =>
      have here : pattern before (c :: (w ++ r)) = Option.none := none [] c w rfl
      have later := ih fun u d v split => by
        simpa using none (c :: u) d v (by rw [split, List.cons_append])
      simp only [List.cons_append, cutAfter, here, later, List.map_cons, List.reverse_cons,
        List.append_assoc, List.nil_append]

theorem flatMap_substitute_kept (f : Text → Text) (w : Text) :
    (w.map Piece.kept).flatMap (Piece.substitute f) = w := by
  induction w with
  | nil => rfl
  | cons c w ih => rw [List.map_cons, List.flatMap_cons, ih, Piece.substitute, List.singleton_append]

theorem flatMap_source_kept (w : Text) : (w.map Piece.kept).flatMap Piece.source = w :=
  flatMap_substitute_kept id w

/-- A place in the text of a list lies within one of its members. -/
theorem exists_of_flatMap_eq {α : Type} {f : α → Text} {ls : List α} {s : Text}
    (h : ls.flatMap f = w ++ s) (nonempty : s ≠ []) :
    ∃ front l back u v, ls = front ++ l :: back ∧ f l = u ++ v ∧ v ≠ [] ∧
      w = front.flatMap f ++ u ∧ s = v ++ back.flatMap f := by
  induction ls generalizing w with
  | nil => simp_all
  | cons l ls ih =>
      have behind {w' : Text} (h : ls.flatMap f = w' ++ s) : ∃ front l' back u v,
          l :: ls = front ++ l' :: back ∧ f l' = u ++ v ∧ v ≠ [] ∧
            f l ++ w' = front.flatMap f ++ u ∧ s = v ++ back.flatMap f := by
        obtain ⟨front, l', back, u, v, rfl, text, rest, rfl, behind⟩ := ih h
        exact ⟨l :: front, l', back, u, v, rfl, text, rest, by simp, behind⟩
      rw [List.flatMap_cons, List.append_eq_append_iff] at h
      obtain ⟨w', rfl, h⟩ | ⟨v, text, rfl⟩ := h
      · exact behind h
      · by_cases rest : v = []
        · subst rest
          rw [List.append_nil] at text
          simpa [text] using @behind [] rfl
        · exact ⟨[], l, ls, w, v, rfl, text, rest, rfl, rfl⟩

/-- Pieces at the start of a cut text are the pieces of its start, and the others those of the
rest. -/
theorem exists_of_cutAfter_eq {t : Text} {front back : List Piece}
    (h : cutAfter pattern before 0 t = front ++ back) :
    ∃ v, t = front.flatMap Piece.source ++ v ∧
      back = cutAfter pattern ((front.flatMap Piece.source).reverse ++ before) 0 v := by
  induction front generalizing before t with
  | nil => exact ⟨t, rfl, h.symm⟩
  | cons piece front ih =>
      cases t with
      | nil => cases h
      | cons c r =>
          rw [cutAfter] at h
          split at h
          · rename_i n found
            rw [List.cons_append, List.cons.injEq, cutAfter_eq_drop] at h
            obtain ⟨rfl, h⟩ := h
            obtain ⟨v, split, rfl⟩ := ih h
            refine ⟨v, ?_, by simp [Piece.source]⟩
            simp [Piece.source, ← split]
          · rw [List.cons_append, List.cons.injEq] at h
            obtain ⟨rfl, h⟩ := h
            obtain ⟨v, rfl, rfl⟩ := ih h
            exact ⟨v, rfl, by simp [Piece.source]⟩

/-- A match that is cut out was found by the pattern at the place where it stands. -/
theorem exists_of_cutAfter_eq_hit {t : Text} {front back : List Piece}
    (h : cutAfter pattern before 0 t = front ++ .hit w :: back) :
    w ≠ [] ∧ ∃ v n, t = front.flatMap Piece.source ++ (w ++ v) ∧ w = (w ++ v).take n ∧
      pattern ((front.flatMap Piece.source).reverse ++ before) (w ++ v) = some n := by
  obtain ⟨s, rfl, here⟩ := exists_of_cutAfter_eq h
  cases s with
  | nil => cases here
  | cons c r =>
      rw [cutAfter] at here
      split at here
      · rename_i n found
        cases here
        refine ⟨List.cons_ne_nil _ _, r.drop n, n + 1, ?_, ?_, ?_⟩ <;>
          simp only [List.cons_append, List.take_append_drop, List.take_succ_cons, found]
      · cases here

/-- The pieces of a text make it up. -/
theorem flatMap_source_cut (pattern : Pattern) (t : Text) :
    (cut pattern t).flatMap Piece.source = t := by
  obtain ⟨v, whole, rest⟩ := exists_of_cutAfter_eq (List.append_nil (cut pattern t)).symm
  cases v with
  | nil => exact (whole.trans (List.append_nil _)).symm
  | cons c r =>
      rw [cutAfter] at rest
      split at rest <;> cases rest

theorem exists_of_cutAfter_eq_cons_kept {t : Text} {c : Char} {ps : List Piece}
    (h : cutAfter pattern before 0 t = .kept c :: ps) :
    ∃ v, t = c :: v ∧ cutAfter pattern (c :: before) 0 v = ps := by
  obtain ⟨v, rfl, rest⟩ :=
    exists_of_cutAfter_eq (show cutAfter pattern before 0 t = [.kept c] ++ ps from h)
  exact ⟨v, rfl, rest.symm⟩

theorem exists_of_cutAfter_eq_cons_hit {t : Text} {ps : List Piece}
    (h : cutAfter pattern before 0 t = .hit w :: ps) :
    ∃ v n, t = w ++ v ∧ w = (w ++ v).take n ∧ pattern before (w ++ v) = some n ∧
      cutAfter pattern (w.reverse ++ before) 0 v = ps := by
  obtain ⟨v, rfl, rest⟩ :=
    exists_of_cutAfter_eq (show cutAfter pattern before 0 t = [.hit w] ++ ps from h)
  obtain ⟨-, v', n, split, taken, found⟩ :=
    exists_of_cutAfter_eq_hit (show cutAfter pattern before 0 (_ ++ v) = [] ++ .hit w :: ps from h)
  simp only [List.flatMap_cons, List.flatMap_nil, Piece.source, List.append_nil, List.nil_append,
    List.append_cancel_left_eq, List.reverse_nil] at split rest found ⊢
  subst split
  exact ⟨v, n, rfl, taken, found, rest.symm⟩

/-- The last character of the first pieces of a text is kept, or a match ends with it. -/
theorem last_of_cut {v : Text} {c : Char} {pieces : List Piece}
    (cuts : pieces <+: cut pattern (pieces.flatMap Piece.source ++ v))
    (last : (pieces.flatMap Piece.source).getLast? = some c) :
    (∃ init, pieces = init ++ [.kept c]) ∨ ∃ init w n, pieces = init ++ [.hit w] ∧
      w.getLast? = some c ∧ w = (w ++ v).take n ∧
      pattern ((init.flatMap Piece.source).reverse ++ []) (w ++ v) = some n := by
  obtain rfl | ⟨init, piece, rfl⟩ := List.eq_nil_or_concat pieces
  · cases last
  · rw [List.concat_eq_append, List.flatMap_append, List.flatMap_singleton,
      List.getLast?_append] at last
    cases piece with
    | kept e =>
        cases last
        exact .inl ⟨init, List.concat_eq_append⟩
    | hit w =>
        obtain ⟨back, whole⟩ := cuts
        rw [List.concat_eq_append, List.append_assoc] at whole
        obtain ⟨nonempty, v', n, split, taken, found⟩ := exists_of_cutAfter_eq_hit whole.symm
        rw [List.flatMap_append, List.flatMap_singleton, Piece.source, List.append_assoc] at split
        obtain rfl := List.append_cancel_left (List.append_cancel_left split)
        refine .inr ⟨init, w, n, List.concat_eq_append, ?_, taken, found⟩
        rwa [Piece.source, List.getLast?_eq_some_getLast nonempty, Option.some_or,
          ← List.getLast?_eq_some_getLast nonempty] at last

theorem exists_of_mem_cutAfter {t : Text} (mem : .hit w ∈ cutAfter pattern before 0 t) :
    ∃ u s n, t = u ++ s ∧ pattern (u.reverse ++ before) s = some n ∧ w = s.take n := by
  obtain ⟨front, back, split⟩ := List.append_of_mem mem
  obtain ⟨-, v, n, rfl, taken, found⟩ := exists_of_cutAfter_eq_hit split
  exact ⟨_, _, n, rfl, found, taken⟩

/-- Where no match runs over the end of a first part, that part and the rest are cut apart. -/
theorem cutAfter_append {u v : Text} (clear : ∀ x y n, u = x ++ y → y ≠ [] →
      pattern (x.reverse ++ before) (y ++ v) = some n → n ≤ y.length) :
    ∃ front, cutAfter pattern before 0 (u ++ v)
        = front ++ cutAfter pattern (u.reverse ++ before) 0 v ∧
      front.flatMap Piece.source = u := by
  induction hn : u.length using Nat.strongRecOn generalizing u before with
  | ind m ih =>
      subst hn
      -- The part behind what is cut off first is clear as well.
      have further (w u' : Text) (split : u = w ++ u') (nonempty : w ≠ []) :
          ∃ front, cutAfter pattern (w.reverse ++ before) 0 (u' ++ v)
              = front ++ cutAfter pattern (u.reverse ++ before) 0 v ∧
            front.flatMap Piece.source = u' := by
        have shorter : u'.length < u.length := by
          rw [split, List.length_append]
          have := List.length_pos_iff.mpr nonempty
          omega
        have clear' (x y : Text) (n : Nat) (split' : u' = x ++ y) (rest : y ≠ [])
            (found : pattern (x.reverse ++ (w.reverse ++ before)) (y ++ v) = some n) :
            n ≤ y.length :=
          clear (w ++ x) y n (by rw [split, split', List.append_assoc]) rest (by simpa using found)
        obtain ⟨front, cut, source⟩ := ih _ shorter clear' rfl
        exact ⟨front, by rw [cut, split]; simp, source⟩
      cases u with
      | nil => exact ⟨[], rfl, rfl⟩
      | cons c u =>
          have fits := fun n => clear [] (c :: u) n rfl (List.cons_ne_nil c u)
          rw [List.cons_append, cutAfter]
          split
          · rename_i n found
            have le : n ≤ u.length := Nat.le_of_succ_le_succ (fits _ found)
            obtain ⟨front, cut, source⟩ :=
              further (c :: u.take n) (u.drop n) (by simp) (List.cons_ne_nil _ _)
            refine ⟨.hit (c :: u.take n) :: front, ?_, by simp [Piece.source, source]⟩
            rw [cutAfter_eq_drop, List.take_append_of_le_length le, List.drop_append_of_le_length le,
              List.cons_append, ← cut]
            simp
          · obtain ⟨front, cut, source⟩ := further [c] u rfl (List.cons_ne_nil _ _)
            refine ⟨.kept c :: front, ?_, by simp [Piece.source, source]⟩
            rw [List.cons_append, ← cut]
            rfl

theorem hit_mem_of_mem_hitsFrom {pieces : List Piece} {offset n : Nat}
    (mem : (n, w) ∈ hitsFrom offset pieces) : .hit w ∈ pieces := by
  induction pieces generalizing offset with
  | nil => cases mem
  | cons piece pieces ih =>
      cases piece with
      | kept c => exact List.mem_cons_of_mem _ (ih mem)
      | hit t =>
          obtain here | later := List.mem_cons.mp mem
          · cases here
            exact List.mem_cons_self
          · exact List.mem_cons_of_mem _ (ih later)

theorem exists_mem_hitsFrom {pieces : List Piece} (mem : .hit w ∈ pieces) (offset : Nat) :
    ∃ n, (n, w) ∈ hitsFrom offset pieces := by
  induction pieces generalizing offset with
  | nil => cases mem
  | cons piece pieces ih =>
      obtain rfl | later := List.mem_cons.mp mem
      · exact ⟨offset, List.mem_cons_self⟩
      · cases piece with
        | kept c => exact ih later _
        | hit t =>
            obtain ⟨n, listed⟩ := ih later (offset + t.length)
            exact ⟨n, List.mem_cons_of_mem _ listed⟩

/-- A run of characters does not go on behind a text if it cannot begin there. -/
theorem takeWhile_append {p : Char → Bool} (stop : r.head?.any p = false) :
    (w ++ r).takeWhile p = w.takeWhile p := by
  induction w with
  | nil =>
      cases r with
      | nil => rfl
      | cons c r =>
          have fails : p c = false := stop
          simp [fails]
  | cons d w ih => cases passes : p d <;> simp [passes, ih]

theorem takeWhile_append_stop {p : Char → Bool} {w r : Text} (all : w.all p = true)
    (stop : r.head?.any p = false) : (w ++ r).takeWhile p = w := by
  rw [List.takeWhile_append_of_pos (List.all_eq_true.mp all)]
  cases r with
  | nil => simp
  | cons c r => rw [List.takeWhile_cons_of_neg (by simpa using stop), List.append_nil]

theorem takeWhile_append_drop (p : Char → Bool) (t : Text) :
    t.takeWhile p ++ t.drop (t.takeWhile p).length = t :=
  List.prefix_iff_eq_append.mp (List.takeWhile_prefix p)

theorem trimStart_eq_drop (t : Text) : trimStart t = t.drop (blankLength t) := by
  have whole : t.takeWhile isBlank ++ trimStart t = t := List.takeWhile_append_dropWhile
  exact List.append_cancel_left (whole.trans (takeWhile_append_drop isBlank t).symm)

theorem any_head_dropWhile (p : Char → Bool) (t : Text) : (t.dropWhile p).head?.any p = false := by
  induction t with
  | nil => rfl
  | cons c t ih =>
      cases hc : p c with
      | true => simpa [hc] using ih
      | false => simp [hc]

theorem dropWhile_eq_nil_of_all {p : Char → Bool} (all : w.all p = true) : w.dropWhile p = [] := by
  induction w with
  | nil => rfl
  | cons c w ih =>
      simp only [List.all_cons, Bool.and_eq_true] at all
      simp [all.1, ih all.2]

theorem trimEnd_append_blank (blank : r.all isBlank = true) : trimEnd (w ++ r) = trimEnd w := by
  have dropped : r.reverse.dropWhile isBlank = [] :=
    dropWhile_eq_nil_of_all (by rwa [List.all_reverse])
  rw [trimEnd, List.reverse_append, List.dropWhile_append, dropped]
  rfl

theorem trim_append_blank (blank : r.all isBlank = true) : trim (w ++ r) = trim w := by
  rw [trim, trim, trimStart, trimStart, List.dropWhile_append]
  split
  · rename_i none
    rw [List.isEmpty_iff.mp none, dropWhile_eq_nil_of_all blank]
  · exact trimEnd_append_blank blank

theorem blankLength_append {gap r : Text} (blank : gap.all isBlank = true)
    (ends : r.head?.any isBlank = false) : blankLength (gap ++ r) = gap.length := by
  rw [blankLength, takeWhile_append_stop blank ends]

theorem trim_of_ends {t : Text} (start : t.head?.any isBlank = false)
    (stop : t.getLast?.any isBlank = false) : trim t = t := by
  have kept {u : Text} (h : u.head?.any isBlank = false) : u.dropWhile isBlank = u := by
    cases u with
    | nil => rfl
    | cons c u => rw [List.dropWhile_cons_of_neg (by simpa using h)]
  rw [← List.head?_reverse] at stop
  rw [trim, trimStart, trimEnd, kept start, kept stop, List.reverse_reverse]

end PhpGate.Text
