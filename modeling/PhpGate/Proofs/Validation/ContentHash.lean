import PhpGate.Proofs.Json.Reading
import PhpGate.Proofs.Validation.Writing

/-!
What the digest of an index tells of it. The digested text decides the members of an object up to
their order, the build time and the digest aside, and the text of an index file is read back as the
payload with the digest that belongs to it.
-/

namespace PhpGate

open Json (IsPlain Same)

namespace Index

/-- The members of an object other than its build time and its digest. -/
def content (members : List (Text × Json)) : List (Text × Json) :=
  members.filter fun m => m.1 ≠ "index_built_at".toList ∧ m.1 ≠ "content_hash".toList

section Content

variable {p q : List (Text × Json)}

theorem hashedText_eq_canonical (p : List (Text × Json)) :
    hashedText p = (Json.object (content p)).canonical :=
  rfl

theorem mem_content_iff {k : Text} {x : Json} : (k, x) ∈ content p ↔
    (k, x) ∈ p ∧ k ≠ "index_built_at".toList ∧ k ≠ "content_hash".toList := by
  rw [content, List.mem_filter, decide_eq_true_iff]

theorem mem_keys_content_iff {k : Text} : k ∈ (content p).map Prod.fst ↔
    k ∈ p.map Prod.fst ∧ k ≠ "index_built_at".toList ∧ k ≠ "content_hash".toList := by
  constructor
  · intro mem
    obtain ⟨x, mem⟩ := Json.exists_of_mem_keys mem
    obtain ⟨mem, kept⟩ := mem_content_iff.mp mem
    exact ⟨Json.mem_keys mem, kept⟩
  · rintro ⟨mem, kept⟩
    obtain ⟨x, mem⟩ := Json.exists_of_mem_keys mem
    exact Json.mem_keys (mem_content_iff.mpr ⟨mem, kept⟩)

theorem isPlain_content (plain : (Json.object p).IsPlain) : (Json.object (content p)).IsPlain := by
  obtain - | - | - | - | - | ⟨unique, each⟩ := plain
  refine .object ?_ fun k x mem => each k x (mem_content_iff.mp mem).1
  exact unique.sublist (List.filter_sublist.map Prod.fst)

theorem same_content (same : Same (.object p) (.object q)) :
    Same (.object (content p)) (.object (content q)) := by
  cases same with
  | refl => exact .refl _
  | object keys each =>
      refine .object (fun k => ?_) fun k x y mem mem' =>
        each k x y (mem_content_iff.mp mem).1 (mem_content_iff.mp mem').1
      rw [mem_keys_content_iff, mem_keys_content_iff, keys k]

theorem hashedText_eq_of_same (plain : (Json.object p).IsPlain) (plain' : (Json.object q).IsPlain)
    (same : Same (.object p) (.object q)) : hashedText p = hashedText q := by
  rw [hashedText_eq_canonical, hashedText_eq_canonical]
  exact (Json.canonical_eq_iff (isPlain_content plain) (isPlain_content plain')).mpr
    (same_content same)

end Content

/-- The digested texts of two objects are equal exactly when the objects are the same value apart
from the build time and the digest. -/
theorem hashedText_eq_iff {p q : List (Text × Json)} (plain : (Json.object p).IsPlain)
    (plain' : (Json.object q).IsPlain) :
    hashedText p = hashedText q ↔ Same (.object (content p)) (.object (content q)) := by
  rw [hashedText_eq_canonical, hashedText_eq_canonical]
  exact Json.canonical_eq_iff (isPlain_content plain) (isPlain_content plain')

/-- Neither the order of members nor a digest changes the digested text. -/
theorem hashedText_reordered :
    let p := [("files".toList, Json.array [.int (-1), .bool true]), ("kinds".toList, .null)]
    let q := [("content_hash".toList, Json.string "0".toList), ("kinds".toList, .null),
      ("files".toList, .array [.int (-1), .bool true])]
    (Json.object p).IsPlain ∧ (Json.object q).IsPlain
      ∧ (hashedText p = hashedText q ↔ Same (.object (content p)) (.object (content q)))
      ∧ hashedText p = hashedText q := by
  intro p q
  have files : (Json.array [.int (-1), .bool true]).IsPlain := by
    refine .array fun x mem => ?_
    obtain rfl | rfl : x = .int (-1) ∨ x = .bool true := by simpa using mem
    · exact .int _
    · exact .bool _
  have unique : (p.map Prod.fst).Nodup := by decide
  have plain : (Json.object p).IsPlain := by
    refine .object unique fun k x mem => ?_
    obtain ⟨-, rfl⟩ | ⟨-, rfl⟩ := by simpa [p] using mem
    · exact files
    · exact .null
  have plain' : (Json.object q).IsPlain := by
    have unique : ["content_hash".toList, "kinds".toList, "files".toList].Nodup := by decide
    refine .object unique fun k x mem => ?_
    obtain ⟨-, rfl⟩ | ⟨-, rfl⟩ | ⟨-, rfl⟩ := by simpa [q] using mem
    · exact .string _
    · exact .null
    · exact files
  have decides := hashedText_eq_iff plain plain'
  refine ⟨plain, plain', decides, decides.mpr ?_⟩
  have kept : content p = p := rfl
  have kept' : content q = p.reverse := rfl
  rw [kept, kept']
  refine .object (fun k => by rw [List.map_reverse, List.mem_reverse]) fun k x y mem mem' => ?_
  rw [eq_of_mem_members unique mem (List.mem_reverse.mp mem')]
  exact .refl y

section Payload

variable (builtAt : Text) (results : List ValidationResult)

theorem nodup_keys_foldl {α β : Type} {step : List (Text × α) → β → List (Text × α)}
    (keeps : ∀ ms b, (ms.map Prod.fst).Nodup → ((step ms b).map Prod.fst).Nodup) (bs : List β)
    {ms : List (Text × α)} (unique : (ms.map Prod.fst).Nodup) :
    ((bs.foldl step ms).map Prod.fst).Nodup := by
  induction bs generalizing ms with
  | nil => exact unique
  | cons b bs ih => exact ih (keeps ms b unique)

theorem nodup_keys_files : ((ofResults builtAt results).files.map Prod.fst).Nodup :=
  nodup_keys_foldl (fun _ _ unique => nodup_keys_insertKey unique) _ List.nodup_nil

theorem nodup_keys_kinds : ((ofResults builtAt results).kinds.map Prod.fst).Nodup :=
  nodup_keys_sortKeys
    (nodup_keys_foldl (fun _ _ unique => nodup_keys_insertKey unique) _ List.nodup_nil)

theorem isPlain_elim {α : Type} {f : α → Json} (plain : ∀ x, (f x).IsPlain) (o : Option α) :
    (o.elim .null f).IsPlain := by
  cases o with
  | none => exact .null
  | some x => exact plain x

theorem isPlain_entry (r : ValidationResult) : (entry r).IsPlain := by
  have unique : (["status".toList, "kind".toList, "message".toList, "line".toList,
    "fingerprint".toList] : List Text).Nodup := by decide
  refine .object unique fun k x mem => ?_
  simp only [List.mem_cons, Prod.mk.injEq, List.not_mem_nil, or_false] at mem
  obtain ⟨-, rfl⟩ | ⟨-, rfl⟩ | ⟨-, rfl⟩ | ⟨-, rfl⟩ | ⟨-, rfl⟩ := mem
  · exact .string _
  · exact isPlain_elim .string _
  · exact isPlain_elim .string _
  · exact isPlain_elim .int _
  · exact .string _

/-- A value for each key makes an object without repeated keys. -/
theorem isPlain_object_map {α : Type} {ms : List (Text × α)} {f : Text × α → Json}
    (unique : (ms.map Prod.fst).Nodup) (plain : ∀ m ∈ ms, (f m).IsPlain) :
    (Json.object (ms.map fun m => (m.1, f m))).IsPlain := by
  refine .object ?_ fun k x mem => ?_
  · rwa [List.map_map]
  · obtain ⟨m, stands, same⟩ := List.mem_map.mp mem
    cases same
    exact plain m stands

theorem isPlain_payload : (ofResults builtAt results).payload.IsPlain := by
  have unique : ([builtAtKey, "total_files".toList, "total_valid".toList, "total_invalid".toList,
    "kinds".toList, "files".toList, hashKey] : List Text).Nodup := by decide
  refine .object unique fun k x mem => ?_
  simp only [body, List.cons_append, List.nil_append, List.mem_cons, Prod.mk.injEq,
    List.not_mem_nil, or_false] at mem
  obtain ⟨-, rfl⟩ | ⟨-, rfl⟩ | ⟨-, rfl⟩ | ⟨-, rfl⟩ | ⟨-, rfl⟩ | ⟨-, rfl⟩ | ⟨-, rfl⟩ := mem
  · exact .string _
  · exact .int _
  · exact .int _
  · exact .int _
  · exact isPlain_object_map (nodup_keys_kinds builtAt results) fun _ _ => .int _
  · exact isPlain_object_map (nodup_keys_files builtAt results) fun m _ => isPlain_entry m.2
  · exact .string _

end Payload

theorem hashedText_concat_hash (p : List (Text × Json)) (x : Json) :
    hashedText (p ++ [(hashKey, x)]) = hashedText p := by
  have dropped : content [(hashKey, x)] = [] := rfl
  have kept : content (p ++ [(hashKey, x)]) = content p := by
    rw [content, List.filter_append, ← content, ← content, dropped, List.append_nil]
  rw [hashedText_eq_canonical, hashedText_eq_canonical, kept]

/-- The text of the index file is read back as the payload, and the digest of what is read is the
one that stands in it. -/
theorem read_text_ofResults (builtAt : Text) (results : List ValidationResult) :
    let index := ofResults builtAt results
    ∃ members, Json.read? index.text = some (.object members)
      ∧ Same (.object members) index.payload
      ∧ members.lookup "content_hash".toList = some (.string (contentHash members)) := by
  intro index
  let written := index.body ++ [(hashKey, .string (contentHash index.body))]
  have plain : (Json.object written).IsPlain := isPlain_payload builtAt results
  have sorted := Json.sorted_object written
  have plain' := plain.sorted
  have same := Json.same_sorted plain
  have read := Json.read_document plain
  rw [sorted] at plain' same read
  refine ⟨_, read, same, ?_⟩
  -- the digest was taken before it was put in, and before the members were put in order
  have digest : contentHash (sortKeys (written.map fun m => (m.1, m.2.sorted)))
      = contentHash index.body := by
    rw [contentHash, contentHash, hashedText_eq_of_same plain' plain same, hashedText_concat_hash]
  rw [digest]
  obtain - | - | - | - | - | ⟨unique, -⟩ := plain'
  apply lookup_of_mem unique
  rw [(sortKeys_perm _).mem_iff, Json.mem_sortedMembers_iff]
  exact ⟨_, List.mem_append_right _ List.mem_cons_self, rfl⟩

/-- Where nothing is in the way the index is written, and the file that is left is read back as the
payload with the digest that belongs to it. -/
theorem read_written_ofResults (builtAt : Text) (results : List ValidationResult) (files : Store)
    (directory : Path)
    (plain : ∀ k, home? files directory = some k → IsPlainAt files (k ++ [stagingName]))
    (free : ¬ IsObstructed files directory) :
    let index := ofResults builtAt results
    ∃ k after data text members, home? files directory = some k
      ∧ index.write files directory = (.ok (place directory), after)
      ∧ after.stored? (k ++ [fileName]) = some (.file data) ∧ data.content = Text.encode text
      ∧ Json.read? text = some (.object members) ∧ Same (.object members) index.payload
      ∧ members.lookup "content_hash".toList = some (.string (contentHash members)) := by
  intro index
  obtain ⟨error, after, outcome, -, obstructed⟩ | ⟨k, after, home, outcome, written⟩ :=
    writeUnder_cases {} index files directory plain
  · exact absurd (obstructed rfl) free
  · obtain ⟨data, stands, content⟩ := written.whole
    obtain ⟨members, read, same, digest⟩ := read_text_ofResults builtAt results
    exact ⟨k, after, data, index.text, members, home, outcome, stands, content, read, same, digest⟩

/-- The index of a rejected file, written over an older one. -/
theorem read_written_archive :
    let results : List ValidationResult :=
      [{ path := "a\"é.php".toList, fingerprint := "0".toList, status := .invalid,
         kind := some "X".toList, line := some 3 }]
    let directory := Path.of "out".toList
    (∀ k, home? archive directory = some k → IsPlainAt archive (k ++ [stagingName])) ∧
      ¬ IsObstructed archive directory ∧
      ∃ k after data text members, home? archive directory = some k
        ∧ (ofResults [] results).write archive directory = (.ok (place directory), after)
        ∧ after.stored? (k ++ [fileName]) = some (.file data) ∧ data.content = Text.encode text
        ∧ Json.read? text = some (.object members)
        ∧ Same (.object members) (ofResults [] results).payload
        ∧ members.lookup "content_hash".toList = some (.string (contentHash members)) :=
  ⟨fun _ => isPlainAt_archive, not_isObstructed_archive,
    read_written_ofResults _ _ _ _ (fun _ => isPlainAt_archive) not_isObstructed_archive⟩

end Index
end PhpGate
