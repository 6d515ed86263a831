import PhpGate.Proofs.Validation.ContentHash

/-!
The entries of an index. There is one for each path among the results, in increasing order of paths.
Results that are told apart by their paths have one order, so an index keeps nothing of the order in
which they came.
-/

namespace PhpGate

open Text (before)

section Members

variable {α : Type} {ms ns : List (Text × α)} {k l : Text} {x : α}

theorem lookup_member : ((k, x) :: ms).lookup l = if l = k then some x else ms.lookup l := by
  rw [List.lookup_cons]
  by_cases same : l = k
  · rw [if_pos same, beq_iff_eq.mpr same]
  · rw [if_neg same, beq_eq_false_iff_ne.mpr same]

theorem lookup_eq_none_of_not_mem (absent : k ∉ ms.map Prod.fst) : ms.lookup k = none := by
  induction ms with
  | nil => rfl
  | cons m ms ih =>
      rw [List.map_cons, List.mem_cons, not_or] at absent
      rw [lookup_member, if_neg absent.1, ih absent.2]

theorem lookup_eq_of_perm (unique : (ms.map Prod.fst).Nodup) (perm : ms.Perm ns) :
    ns.lookup k = ms.lookup k := by
  have keys := perm.map Prod.fst
  by_cases mem : k ∈ ms.map Prod.fst
  · obtain ⟨m, stands, rfl⟩ := List.mem_map.mp mem
    rw [lookup_of_mem unique stands,
      lookup_of_mem (keys.nodup_iff.mp unique) (perm.mem_iff.mp stands)]
  · have absent : k ∉ ns.map Prod.fst := fun mem' => mem (keys.mem_iff.mpr mem')
    rw [lookup_eq_none_of_not_mem mem, lookup_eq_none_of_not_mem absent]

theorem lookup_insertKey :
    (insertKey k x ms).lookup l = if l = k then some x else ms.lookup l := by
  induction ms with
  | nil => exact lookup_member
  | cons m ms ih =>
      rw [insertKey]
      by_cases here : m.1 = k
      · rw [if_pos here, lookup_member, lookup_member, here]
        split <;> rfl
      · rw [if_neg here, lookup_member, lookup_member, ih]
        by_cases first : l = m.1
        · rw [if_pos first, if_neg fun same => here (first.symm.trans same), if_pos first]
        · rw [if_neg first, if_neg first]

theorem mem_keys_insertKey_iff :
    l ∈ (insertKey k x ms).map Prod.fst ↔ l ∈ ms.map Prod.fst ∨ l = k := by
  by_cases mem : k ∈ ms.map Prod.fst
  · rw [keys_insertKey_of_mem mem]
    exact ⟨.inl, fun h => h.elim id fun same => same ▸ mem⟩
  · rw [insertKey_of_not_mem mem, List.map_append, List.mem_append]
    exact or_congr_right List.mem_singleton

/-- A key that none of the others comes after is put at the end, or stands there. -/
theorem increasing_keys_insertKey
    (increasing : (ms.map Prod.fst).Pairwise fun k l => before k l = true ∧ k ≠ l)
    (last : ∀ l ∈ ms.map Prod.fst, before l k = true) :
    ((insertKey k x ms).map Prod.fst).Pairwise fun k l => before k l = true ∧ k ≠ l := by
  by_cases mem : k ∈ ms.map Prod.fst
  · rwa [keys_insertKey_of_mem mem]
  · rw [insertKey_of_not_mem mem, List.map_append, List.pairwise_append]
    refine ⟨increasing, List.pairwise_singleton _ _, fun l stands k' here => ?_⟩
    obtain rfl := List.mem_singleton.mp here
    exact ⟨last l stands, fun same => mem (same ▸ stands)⟩

end Members

namespace Index

variable {results others : List ValidationResult}

theorem sorted_perm (results : List ValidationResult) : (sorted results).Perm results :=
  List.mergeSort_perm results _

theorem pairwise_sorted (results : List ValidationResult) :
    (sorted results).Pairwise fun r s => before r.path s.path = true :=
  List.pairwise_mergeSort (fun r s t => Text.before_trans r.path s.path t.path)
    (fun r s => Text.before_total r.path s.path) results

/-- Results of which only equal ones share a path have one order. -/
theorem sorted_eq_of_perm (perm : results.Perm others)
    (same : ∀ r ∈ results, ∀ s ∈ results, r.path = s.path → r = s) :
    sorted results = sorted others := by
  refine List.Perm.eq_of_pairwise ?_ (pairwise_sorted results) (pairwise_sorted others)
    ((sorted_perm results).trans (perm.trans (sorted_perm others).symm))
  intro r s hr hs before after
  have hr := (sorted_perm results).mem_iff.mp hr
  have hs := perm.mem_iff.mpr ((sorted_perm others).mem_iff.mp hs)
  exact same r hr s hs (Text.before_antisymm before after)

/-- The entries of results: the last result of each path, where the first one stands. -/
def entriesOf (results : List ValidationResult) : List (Text × ValidationResult) :=
  results.foldl (fun entries r => insertKey r.path r entries) []

theorem files_ofResults (builtAt : Text) (results : List ValidationResult) :
    (ofResults builtAt results).files = entriesOf (sorted results) :=
  rfl

section Insertion

variable {entries : List (Text × ValidationResult)} {k : Text}

theorem mem_keys_foldl_insertKey_iff :
    k ∈ (results.foldl (fun entries r => insertKey r.path r entries) entries).map Prod.fst ↔
      k ∈ entries.map Prod.fst ∨ k ∈ results.map (·.path) := by
  induction results generalizing entries with
  | nil => simp
  | cons r results ih =>
      rw [List.foldl_cons, ih, mem_keys_insertKey_iff, List.map_cons, List.mem_cons, or_assoc]

theorem foldl_insertKey_of_nodup
    (fresh : (entries.map Prod.fst ++ results.map (·.path)).Nodup) :
    results.foldl (fun entries r => insertKey r.path r entries) entries
      = entries ++ results.map fun r => (r.path, r) := by
  induction results generalizing entries with
  | nil => exact (List.append_nil entries).symm
  | cons r results ih =>
      have moved : entries.map Prod.fst ++ (r :: results).map (·.path)
          = (entries ++ [(r.path, r)]).map Prod.fst ++ results.map (·.path) := by simp
      have absent : r.path ∉ entries.map Prod.fst := fun mem =>
        (List.nodup_append.mp fresh).2.2 _ mem _ List.mem_cons_self rfl
      rw [moved] at fresh
      rw [List.foldl_cons, insertKey_of_not_mem absent, ih fresh, List.append_assoc]
      rfl

theorem increasing_keys_foldl_insertKey
    (inOrder : results.Pairwise fun r s => before r.path s.path = true)
    (increasing : (entries.map Prod.fst).Pairwise fun k l => before k l = true ∧ k ≠ l)
    (earlier : ∀ k ∈ entries.map Prod.fst, ∀ r ∈ results, before k r.path = true) :
    ((results.foldl (fun entries r => insertKey r.path r entries) entries).map
      Prod.fst).Pairwise fun k l => before k l = true ∧ k ≠ l := by
  induction results generalizing entries with
  | nil => exact increasing
  | cons r results ih =>
      obtain ⟨first, inOrder⟩ := List.pairwise_cons.mp inOrder
      apply ih inOrder
      · exact increasing_keys_insertKey increasing fun l mem => earlier l mem r List.mem_cons_self
      · intro k mem s later
        obtain mem | rfl := mem_keys_insertKey_iff.mp mem
        · exact earlier k mem s (List.mem_cons_of_mem r later)
        · exact first s later

end Insertion

theorem mem_keys_entriesOf_iff {k : Text} :
    k ∈ (entriesOf results).map Prod.fst ↔ k ∈ results.map (·.path) := by
  rw [entriesOf, mem_keys_foldl_insertKey_iff]
  exact or_iff_right List.not_mem_nil

theorem nodup_keys_entriesOf : ((entriesOf results).map Prod.fst).Nodup :=
  nodup_keys_foldl (fun _ _ unique => nodup_keys_insertKey unique) results List.nodup_nil

/-- Results with different paths are all entries. -/
theorem entriesOf_of_nodup (unique : (results.map (·.path)).Nodup) :
    entriesOf results = results.map fun r => (r.path, r) :=
  foldl_insertKey_of_nodup unique

theorem increasing_keys_entriesOf
    (inOrder : results.Pairwise fun r s => before r.path s.path = true) :
    ((entriesOf results).map Prod.fst).Pairwise fun k l => before k l = true ∧ k ≠ l :=
  increasing_keys_foldl_insertKey inOrder List.Pairwise.nil nofun

section Payload

variable {index : Index}

/-- The entries that a payload shows. -/
def shownEntries (index : Index) : List (Text × Json) :=
  index.files.map fun m => (m.1, entry m.2)

theorem field_files : index.payload.field? "files".toList = some (.object index.shownEntries) :=
  rfl

theorem keys_shownEntries : index.shownEntries.map Prod.fst = index.files.map Prod.fst :=
  List.map_map

end Payload

/-- The payload of results is that of the same results in any other order, if only equal ones share
a path, and shows their entries in increasing order of paths. -/
theorem payload_eq_of_perm (builtAt : Text) (perm : results.Perm others)
    (same : ∀ r ∈ results, ∀ s ∈ results, r.path = s.path → r = s) :
    (ofResults builtAt results).payload = (ofResults builtAt others).payload ∧
      ∃ entries, (ofResults builtAt results).payload.field? "files".toList
          = some (.object entries) ∧
        (entries.map Prod.fst).Pairwise fun k l => before k l = true ∧ k ≠ l := by
  constructor
  · rw [ofResults, ofResults, sorted_eq_of_perm perm same]
  · refine ⟨_, field_files, ?_⟩
    rw [keys_shownEntries, files_ofResults]
    exact increasing_keys_entriesOf (pairwise_sorted results)

/-- A file that was found twice, and one before it. -/
theorem payload_eq_of_perm_repeated :
    let valid : ValidationResult := ⟨"b.php".toList, "2".toList, .valid, none, none, none⟩
    let invalid : ValidationResult :=
      ⟨"a.php".toList, "1".toList, .invalid, some "TAG".toList, some "?".toList, some 1⟩
    let results := [valid, invalid, valid]
    let others := [valid, valid, invalid]
    results.Perm others ∧ (∀ r ∈ results, ∀ s ∈ results, r.path = s.path → r = s) ∧
      (ofResults [] results).payload = (ofResults [] others).payload ∧
      ∃ entries, (ofResults [] results).payload.field? "files".toList = some (.object entries) ∧
        (entries.map Prod.fst).Pairwise fun k l => before k l = true ∧ k ≠ l := by
  intro valid invalid results others
  have perm : results.Perm others := List.Perm.cons valid (List.Perm.swap valid invalid [])
  have same : ∀ r ∈ results, ∀ s ∈ results, r.path = s.path → r = s := by decide
  exact ⟨perm, same, payload_eq_of_perm [] perm same⟩

end Index
end PhpGate
