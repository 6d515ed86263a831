import PhpGate.Json.Basic

/-!
Members under different keys. A key has one value, setting a key keeps the keys different, and the
members have one order by key however they stood before, since the order of texts by code points is
a total order.
-/

namespace PhpGate

namespace Text

theorem before_cons (c d : Char) (t u : Text) :
    before (c :: t) (d :: u) = true ↔ c.toNat < d.toNat ∨ (c = d ∧ before t u = true) := by
  simp [before]

theorem before_total (t u : Text) : (before t u || before u t) = true := by
  rw [Bool.or_eq_true]
  induction t generalizing u with
  | nil => exact .inl rfl
  | cons c t ih =>
      cases u with
      | nil => exact .inr rfl
      | cons d u =>
          rw [before_cons, before_cons]
          obtain less | same | greater := Nat.lt_trichotomy c.toNat d.toNat
          · exact .inl (.inl less)
          · obtain rfl := Char.toNat_inj.mp same
            exact (ih u).imp (fun h => .inr ⟨rfl, h⟩) (fun h => .inr ⟨rfl, h⟩)
          · exact .inr (.inl greater)

theorem before_trans (t u v : Text) (h : before t u = true) (h' : before u v = true) :
    before t v = true := by
  induction t generalizing u v with
  | nil => rfl
  | cons c t ih =>
      cases u with
      | nil => cases h
      | cons d u =>
          cases v with
          | nil => cases h'
          | cons e v =>
              rw [before_cons] at h h' ⊢
              obtain less | ⟨rfl, rest⟩ := h
              · obtain less' | ⟨rfl, -⟩ := h'
                · exact .inl (Nat.lt_trans less less')
                · exact .inl less
              · exact h'.imp id fun h' => ⟨h'.1, ih u v rest h'.2⟩

theorem before_antisymm {t u : Text} (h : before t u = true) (h' : before u t = true) : t = u := by
  induction t generalizing u with
  | nil =>
      cases u with
      | nil => rfl
      | cons d u => cases h'
  | cons c t ih =>
      cases u with
      | nil => cases h
      | cons d u =>
          rw [before_cons] at h h'
          obtain less | ⟨rfl, rest⟩ := h
          · obtain greater | ⟨rfl, -⟩ := h'
            · exact absurd greater (Nat.lt_asymm less)
            · exact absurd less (Nat.lt_irrefl _)
          · obtain greater | ⟨-, rest'⟩ := h'
            · exact absurd greater (Nat.lt_irrefl _)
            · rw [ih rest rest']

end Text

section Members

variable {α : Type} {ms ns : List (Text × α)} {k : Text} {x y : α}

/-- Under one of several different keys there is one member. -/
theorem eq_of_mem_members (unique : (ms.map Prod.fst).Nodup) (hx : (k, x) ∈ ms) (hy : (k, y) ∈ ms) :
    x = y := by
  induction ms with
  | nil => cases hx
  | cons m ms ih =>
      rw [List.map_cons, List.nodup_cons] at unique
      obtain rfl | hx := List.mem_cons.mp hx
      · obtain same | hy := List.mem_cons.mp hy
        · exact (Prod.mk.inj same).2.symm
        · exact absurd (List.mem_map_of_mem hy : k ∈ _) unique.1
      · obtain same | hy := List.mem_cons.mp hy
        · rw [← same] at unique
          exact absurd (List.mem_map_of_mem hx : k ∈ _) unique.1
        · exact ih unique.2 hx hy

theorem lookup_of_mem (unique : (ms.map Prod.fst).Nodup) (mem : (k, x) ∈ ms) :
    ms.lookup k = some x := by
  induction ms with
  | nil => cases mem
  | cons m ms ih =>
      rw [List.map_cons, List.nodup_cons] at unique
      obtain rfl | mem := List.mem_cons.mp mem
      · rw [List.lookup_cons_self]
      · have other : k ≠ m.1 := fun same => unique.1 (same ▸ List.mem_map_of_mem mem)
        rw [List.lookup_cons, beq_eq_false_iff_ne.mpr other]
        exact ih unique.2 mem

theorem insertKey_of_not_mem (fresh : k ∉ ms.map Prod.fst) : insertKey k x ms = ms ++ [(k, x)] := by
  induction ms with
  | nil => rfl
  | cons m ms ih =>
      rw [List.map_cons, List.mem_cons, not_or] at fresh
      rw [insertKey, if_neg (Ne.symm fresh.1), ih fresh.2]
      rfl

theorem keys_insertKey_of_mem (mem : k ∈ ms.map Prod.fst) :
    (insertKey k x ms).map Prod.fst = ms.map Prod.fst := by
  induction ms with
  | nil => cases mem
  | cons m ms ih =>
      rw [insertKey]
      split
      · rfl
      · next other =>
          rw [List.map_cons, List.mem_cons] at mem
          rw [List.map_cons, List.map_cons, ih (mem.resolve_left (Ne.symm other))]

theorem nodup_keys_insertKey (unique : (ms.map Prod.fst).Nodup) :
    ((insertKey k x ms).map Prod.fst).Nodup := by
  by_cases mem : k ∈ ms.map Prod.fst
  · rwa [keys_insertKey_of_mem mem]
  · rw [insertKey_of_not_mem mem, List.map_append, List.nodup_append]
    refine ⟨unique, List.pairwise_singleton _ _, fun l stands l' last same => ?_⟩
    rw [same, List.mem_singleton.mp last] at stands
    exact mem stands

theorem sortKeys_perm (ms : List (Text × α)) : (sortKeys ms).Perm ms :=
  List.mergeSort_perm ms _

/-- Members with different keys have one order. -/
theorem sortKeys_eq_of_perm (unique : (ms.map Prod.fst).Nodup) (h : ms.Perm ns) :
    sortKeys ms = sortKeys ns := by
  have trans (a b c : Text × α) := Text.before_trans a.1 b.1 c.1
  have total (a b : Text × α) := Text.before_total a.1 b.1
  refine List.Perm.eq_of_pairwise ?_ (List.pairwise_mergeSort trans total ms)
    (List.pairwise_mergeSort trans total ns) ((sortKeys_perm ms).trans (h.trans (sortKeys_perm ns).symm))
  rintro ⟨k, x⟩ ⟨l, y⟩ hx hy before after
  obtain rfl : k = l := Text.before_antisymm before after
  have hx := (sortKeys_perm ms).mem_iff.mp hx
  have hy := h.mem_iff.mpr ((sortKeys_perm ns).mem_iff.mp hy)
  rw [eq_of_mem_members unique hx hy]

theorem nodup_keys_sortKeys (unique : (ms.map Prod.fst).Nodup) :
    ((sortKeys ms).map Prod.fst).Nodup :=
  ((sortKeys_perm ms).map Prod.fst).nodup_iff.mpr unique

end Members
end PhpGate
