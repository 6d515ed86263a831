import Mathlib.Data.List.Nodup
import PhpGate.Json.Writing
import PhpGate.Proofs.Json.Members

/-!
Values that differ only in the order of members. Sorting the members of every object decides it:
two values without floating-point numbers and without repeated keys are the same value exactly
when they are equal once sorted.
-/

namespace PhpGate.Json

/-- No floating-point number stands in the value, and no object has a key twice. -/
inductive IsPlain : Json → Prop
  | null : IsPlain .null
  | bool (b : Bool) : IsPlain (.bool b)
  | int (n : Int) : IsPlain (.int n)
  | string (t : Text) : IsPlain (.string t)
  | array {items : List Json} (each : ∀ x ∈ items, IsPlain x) : IsPlain (.array items)
  | object {members : List (Text × Json)} (unique : (members.map Prod.fst).Nodup)
      (each : ∀ k x, (k, x) ∈ members → IsPlain x) : IsPlain (.object members)

/-- Two values are the same when objects count as maps: arrays agree item by item, objects have the
same keys and under each key the same value. -/
inductive Same : Json → Json → Prop
  | refl (j : Json) : Same j j
  | array {xs ys : List Json} (length : xs.length = ys.length)
      (each : ∀ i, (h : i < xs.length) → (h' : i < ys.length) → Same xs[i] ys[i]) :
      Same (.array xs) (.array ys)
  | object {ms ns : List (Text × Json)} (keys : ∀ k, k ∈ ms.map Prod.fst ↔ k ∈ ns.map Prod.fst)
      (each : ∀ k x y, (k, x) ∈ ms → (k, y) ∈ ns → Same x y) :
      Same (.object ms) (.object ns)

theorem sorted_sortedItems (items : List Json) : sorted.sortedItems items = items.map sorted := by
  induction items with
  | nil => rfl
  | cons x xs ih => rw [sorted.sortedItems, ih, List.map_cons]

theorem sorted_sortedMembers (members : List (Text × Json)) :
    sorted.sortedMembers members = members.map fun m => (m.1, m.2.sorted) := by
  induction members with
  | nil => rfl
  | cons m ms ih => rw [sorted.sortedMembers, ih, List.map_cons]

theorem sorted_array (items : List Json) : (array items).sorted = array (items.map sorted) := by
  rw [sorted, sorted_sortedItems]

theorem sorted_object (members : List (Text × Json)) :
    (object members).sorted = object (sortKeys (members.map fun m => (m.1, m.2.sorted))) := by
  rw [sorted, sorted_sortedMembers]

section Members

variable {ms ns : List (Text × Json)} {k : Text} {x z : Json}

theorem mem_sortedMembers_iff :
    (k, z) ∈ ms.map (fun m => (m.1, m.2.sorted)) ↔ ∃ x, (k, x) ∈ ms ∧ x.sorted = z := by
  constructor
  · intro mem
    obtain ⟨⟨l, x⟩, stands, same⟩ := List.mem_map.mp mem
    cases same
    exact ⟨x, stands, rfl⟩
  · rintro ⟨x, mem, rfl⟩
    exact List.mem_map.mpr ⟨(k, x), mem, rfl⟩

theorem keys_sortedMembers :
    (ms.map fun m => (m.1, m.2.sorted)).map Prod.fst = ms.map Prod.fst := by
  rw [List.map_map]
  rfl

theorem exists_of_mem_keys (mem : k ∈ ms.map Prod.fst) : ∃ x, (k, x) ∈ ms := by
  obtain ⟨⟨l, x⟩, stands, rfl⟩ := List.mem_map.mp mem
  exact ⟨x, stands⟩

theorem mem_keys (mem : (k, x) ∈ ms) : k ∈ ms.map Prod.fst :=
  List.mem_map.mpr ⟨(k, x), mem, rfl⟩

end Members

theorem IsPlain.sorted {j : Json} (plain : j.IsPlain) : j.sorted.IsPlain := by
  induction plain with
  | null => exact .null
  | bool b => exact .bool b
  | int n => exact .int n
  | string t => exact .string t
  | @array items each ih =>
      rw [sorted_array]
      refine .array fun y mem => ?_
      obtain ⟨x, stands, rfl⟩ := List.mem_map.mp mem
      exact ih x stands
  | @object members unique each ih =>
      rw [sorted_object]
      rw [← keys_sortedMembers] at unique
      refine .object (nodup_keys_sortKeys unique) fun k z mem => ?_
      obtain ⟨x, stands, rfl⟩ := mem_sortedMembers_iff.mp ((sortKeys_perm _).mem_iff.mp mem)
      exact ih k x stands

theorem sorted_eq_of_same {j k : Json} (same : Same j k) (plain : j.IsPlain) (plain' : k.IsPlain) :
    j.sorted = k.sorted := by
  induction same with
  | refl j => rfl
  | @array xs ys length each ih =>
      obtain - | - | - | - | plain := plain
      obtain - | - | - | - | plain' := plain'
      rw [sorted_array, sorted_array]
      congr 1
      refine List.ext_getElem (by simp only [List.length_map, length]) fun i h h' => ?_
      rw [List.length_map] at h h'
      rw [List.getElem_map, List.getElem_map]
      exact ih i h h' (plain _ (List.getElem_mem h)) (plain' _ (List.getElem_mem h'))
  | @object ms ns keys each ih =>
      obtain - | - | - | - | - | ⟨unique, plain⟩ := plain
      obtain - | - | - | - | - | ⟨unique', plain'⟩ := plain'
      rw [← keys_sortedMembers] at unique unique'
      rw [sorted_object, sorted_object]
      congr 1
      apply sortKeys_eq_of_perm unique
      rw [List.perm_ext_iff_of_nodup (unique.of_map _) (unique'.of_map _)]
      rintro ⟨k, z⟩
      rw [mem_sortedMembers_iff, mem_sortedMembers_iff]
      constructor
      · rintro ⟨x, mem, rfl⟩
        obtain ⟨y, mem'⟩ := exists_of_mem_keys ((keys k).mp (mem_keys mem))
        exact ⟨y, mem', (ih k x y mem mem' (plain k x mem) (plain' k y mem')).symm⟩
      · rintro ⟨y, mem', rfl⟩
        obtain ⟨x, mem⟩ := exists_of_mem_keys ((keys k).mpr (mem_keys mem'))
        exact ⟨x, mem, ih k x y mem mem' (plain k x mem) (plain' k y mem')⟩

theorem same_of_sorted_eq {j k : Json} (plain : j.IsPlain) (plain' : k.IsPlain)
    (h : j.sorted = k.sorted) : Same j k := by
  induction plain generalizing k with
  | null | bool | int | string =>
      cases plain' with
      | array => rw [sorted_array] at h; cases h
      | object => rw [sorted_object] at h; cases h
      | _ => cases h <;> exact .refl _
  | @array xs each ih =>
      cases plain' with
      | @array ys each' =>
          rw [sorted_array, sorted_array, array.injEq] at h
          refine .array (by simpa using congrArg List.length h) fun i hx hy => ?_
          refine ih _ (List.getElem_mem hx) (each' _ (List.getElem_mem hy)) ?_
          have at_i := List.getElem_of_eq h (by rwa [List.length_map])
          rwa [List.getElem_map, List.getElem_map] at at_i
      | object => rw [sorted_array, sorted_object] at h; cases h
      | _ => rw [sorted_array] at h; cases h
  | @object ms unique each ih =>
      cases plain' with
      | @object ns unique' each' =>
          rw [sorted_object, sorted_object, object.injEq] at h
          have perm := (sortKeys_perm (ms.map fun m => (m.1, m.2.sorted))).symm
          rw [h] at perm
          replace perm := perm.trans (sortKeys_perm _)
          refine .object (fun k => ?_) fun k x y mem mem' => ih k x mem (each' k y mem') ?_
          · rw [← keys_sortedMembers, (perm.map Prod.fst).mem_iff, keys_sortedMembers]
          · have stands := perm.mem_iff.mp (mem_sortedMembers_iff.mpr ⟨x, mem, rfl⟩)
            have stands' := mem_sortedMembers_iff.mpr ⟨y, mem', rfl⟩
            rw [← keys_sortedMembers] at unique'
            exact eq_of_mem_members unique' stands stands'
      | array => rw [sorted_array, sorted_object] at h; cases h
      | _ => rw [sorted_object] at h; cases h

theorem sorted_eq_iff_same {j k : Json} (plain : j.IsPlain) (plain' : k.IsPlain) :
    j.sorted = k.sorted ↔ Same j k :=
  ⟨same_of_sorted_eq plain plain', fun same => sorted_eq_of_same same plain plain'⟩

/-- Sorting moves members only. -/
theorem same_sorted {j : Json} (plain : j.IsPlain) : Same j.sorted j := by
  induction plain with
  | null | bool | int | string => exact .refl _
  | @array items each ih =>
      rw [sorted_array]
      refine .array (List.length_map Json.sorted) fun i h h' => ?_
      rw [List.getElem_map]
      exact ih _ (List.getElem_mem h')
  | @object members unique each ih =>
      rw [sorted_object]
      have perm := sortKeys_perm (members.map fun m => (m.1, m.2.sorted))
      refine .object (fun k => ?_) fun k z x mem mem' => ?_
      · rw [(perm.map Prod.fst).mem_iff, keys_sortedMembers]
      · have stands := mem_sortedMembers_iff.mpr ⟨x, mem', rfl⟩
        rw [← keys_sortedMembers] at unique
        rw [eq_of_mem_members unique (perm.mem_iff.mp mem) stands]
        exact ih k x mem'

end PhpGate.Json
