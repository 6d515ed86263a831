import PhpGate.Files.Store
import PhpGate.Proofs.Outcome

/-!
Where a path leads. A walk that ends at a location is a derivation in `Leads`, which has one rule for
each thing that can stand under a part of the path. What stands at a location is said by its entry,
and a path to something below a directory leads through that directory.
-/

namespace PhpGate

open Text

namespace Store

variable {s : Store} {l m : Location} {p : Path} {content : Bytes}

theorem entry_eq_none_iff : s.stored? l = none ↔ s.node? l = none :=
  Option.map_eq_none_iff

theorem entry_eq_directory_iff : s.stored? l = some .directory ↔ s.node? l = some .directory := by
  rw [stored?]
  cases s.node? l with
  | none => simp
  | some n => cases n <;> simp

theorem entry_eq_file_iff {data : FileData} :
    s.stored? l = some (.file data) ↔ ∃ id, s.node? l = some (.file id) ∧ s.data id = data := by
  rw [stored?]
  cases s.node? l with
  | none => simp
  | some n => cases n <;> simp

theorem link_eq_some_iff {target : Path} :
    s.link? l = some target ↔ s.node? l = some (.link target) := by
  rw [link?]
  cases s.node? l with
  | none => simp
  | some n => cases n <;> simp

theorem link_eq_none_iff : s.link? l = none ↔ ∀ target, s.node? l ≠ some (.link target) := by
  rw [Option.eq_none_iff_forall_ne_some]
  exact forall_congr' fun target => not_congr link_eq_some_iff

theorem link_of_directory (directory : s.node? l = some .directory) : s.link? l = none := by
  rw [link?, directory]

theorem below_root (stands : s.node? l ≠ some .directory) : l ≠ [] := by
  rintro rfl
  exact stands rfl

theorem below_root_of_absent (absent : s.node? l = none) : l ≠ [] := by
  rintro rfl
  cases absent

section Walk

variable {follow : Bool} {n : Nat} {parts : List Text} {name : Text}

/-- A walk along some parts, through so many links at most, ends at a location. -/
inductive Leads (s : Store) (follow : Bool) : Nat → Location → List Text → Location → Prop
  | here {n : Nat} {l : Location} : Leads s follow n l [] l
  | part {n : Nat} {l m : Location} {part : Text} {rest : List Text}
      (directory : s.node? l = some .directory) (short : (encode part).length ≤ longestName)
      (plain : s.link? (l.step part) = none) (later : Leads s follow n (l.step part) rest m) :
      Leads s follow n l (part :: rest) m
  | link {n : Nat} {l m : Location} {part : Text} {rest : List Text} {target : Path}
      (directory : s.node? l = some .directory) (short : (encode part).length ≤ longestName)
      (stands : s.link? (l.step part) = some target) (follows : follow = true ∨ rest ≠ [])
      (later : Leads s follow n (if target.isAbsolute then [] else l) (target.parts ++ rest) m) :
      Leads s follow (n + 1) l (part :: rest) m
  | last {n : Nat} {l : Location} {part : Text} {target : Path}
      (directory : s.node? l = some .directory) (short : (encode part).length ≤ longestName)
      (stands : s.link? (l.step part) = some target) (stays : follow = false) :
      Leads s follow n l [part] (l.step part)

/-- A walk goes on from a directory only, and by a name that is short enough. -/
theorem walkBy_cons_eq_ok_iff {jump : Location → List Text → Except FileFault Location}
    {part : Text} {rest : List Text} :
    s.walkBy jump follow l (part :: rest) = .ok m ↔
      s.node? l = some .directory ∧ (encode part).length ≤ longestName ∧
        match s.link? (l.step part) with
        | none => s.walkBy jump follow (l.step part) rest = .ok m
        | some target =>
            if follow || !rest.isEmpty then
              jump (if target.isAbsolute then [] else l) (target.parts ++ rest) = .ok m
            else l.step part = m := by
  rw [walkBy]
  cases s.node? l with
  | none => simp
  | some node =>
      cases node with
      | file | link => simp
      | directory =>
          by_cases long : (encode part).length > longestName
          · simp [long, Nat.not_le_of_lt long]
          · simp only [long, if_false, Nat.le_of_not_lt long, true_and]
            cases s.link? (l.step part) with
            | none => rfl
            | some target => cases follow || !rest.isEmpty <;> simp

theorem walk_eq_walkBy (s : Store) (follow : Bool) (n : Nat) :
    ∃ jump, s.walk follow n = s.walkBy jump follow ∧
      ∀ l parts m, jump l parts = .ok m ↔ ∃ k, n = k + 1 ∧ s.walk follow k l parts = .ok m := by
  cases n with
  | zero => exact ⟨_, rfl, by simp⟩
  | succ k => exact ⟨_, rfl, by simp⟩

theorem leads_of_walk (walked : s.walk follow n l parts = .ok m) : s.Leads follow n l parts m := by
  induction n using Nat.strongRecOn generalizing l parts m with
  | ind n ih =>
    obtain ⟨jump, same, jumped⟩ := s.walk_eq_walkBy follow n
    rw [same] at walked
    -- between two links the walk is by the parts themselves
    induction parts generalizing l with
    | nil =>
        cases walked
        exact .here
    | cons part rest next =>
        obtain ⟨directory, short, later⟩ := walkBy_cons_eq_ok_iff.mp walked
        cases stands : s.link? (l.step part) with
        | none =>
            rw [stands] at later
            exact .part directory short stands (next later)
        | some target =>
            simp only [stands] at later
            split at later
            · rename_i follows
              obtain ⟨k, rfl, later⟩ := (jumped _ _ _).mp later
              refine .link directory short stands ?_ (ih k (Nat.lt_succ_self k) later)
              simpa using follows
            · rename_i stays
              simp only [Bool.or_eq_true, not_or, Bool.not_eq_true, Bool.not_eq_false',
                List.isEmpty_iff] at stays
              obtain ⟨rfl, rfl⟩ := stays
              subst later
              exact .last directory short stands rfl

theorem Leads.walk (leads : s.Leads follow n l parts m) : s.walk follow n l parts = .ok m := by
  induction leads with
  | @here n l =>
      obtain ⟨jump, same, -⟩ := s.walk_eq_walkBy follow n
      rw [same]
      rfl
  | @part n l m part rest directory short plain _ ih =>
      obtain ⟨jump, same, -⟩ := s.walk_eq_walkBy follow n
      rw [same] at ih ⊢
      exact walkBy_cons_eq_ok_iff.mpr ⟨directory, short, by rw [plain]; exact ih⟩
  | @link n l m part rest target directory short stands follows _ ih =>
      have goes : (follow || !rest.isEmpty) = true := by simpa using follows
      refine walkBy_cons_eq_ok_iff.mpr ⟨directory, short, ?_⟩
      simp only [stands, goes, if_true]
      exact ih
  | @last n l part target directory short stands stays =>
      obtain ⟨jump, same, -⟩ := s.walk_eq_walkBy follow n
      rw [same]
      refine walkBy_cons_eq_ok_iff.mpr ⟨directory, short, ?_⟩
      simp [stands, stays]

theorem walk_eq_ok_iff : s.walk follow n l parts = .ok m ↔ s.Leads follow n l parts m :=
  ⟨leads_of_walk, Leads.walk⟩

namespace Leads

/-- A path to an entry leads through the directory that the entry stands in. -/
theorem exists_directory (leads : s.Leads false n l (parts ++ [name]) m) :
    (encode name).length ≤ longestName ∧ ∃ k, s.Leads true n l parts k ∧
      s.node? k = some .directory ∧ k.step name = m := by
  generalize whole : parts ++ [name] = all at leads
  induction leads generalizing parts with
  | here => simp at whole
  | @part n l m part rest directory short plain later ih =>
      cases parts with
      | nil =>
          cases whole
          cases later
          exact ⟨short, l, .here, directory, rfl⟩
      | cons first parts =>
          cases whole
          obtain ⟨fits, k, above, stands, reached⟩ := ih rfl
          exact ⟨fits, k, .part directory short plain above, stands, reached⟩
  | @link n l m part rest target directory short stands follows later ih =>
      cases parts with
      | nil =>
          cases whole
          simp at follows
      | cons first parts =>
          cases whole
          obtain ⟨fits, k, above, inside, reached⟩ := ih (List.append_assoc ..)
          exact ⟨fits, k, .link directory short stands (.inl rfl) above, inside, reached⟩
  | @last n l part target directory short stands _ =>
      cases parts with
      | nil =>
          cases whole
          exact ⟨short, l, .here, directory, rfl⟩
      | cons first parts => simp at whole

theorem concat (leads : s.Leads true n l parts m) (directory : s.node? m = some .directory)
    (short : (encode name).length ≤ longestName) :
    s.Leads false n l (parts ++ [name]) (m.step name) := by
  induction leads with
  | @here n l =>
      cases stands : s.link? (l.step name) with
      | none => exact .part directory short stands .here
      | some target => exact .last directory short stands rfl
  | part inside fits plain _ ih => exact .part inside fits plain (ih directory)
  | @link n l m part rest target inside fits stands _ _ ih =>
      have longer : rest ++ [name] ≠ [] := by simp
      rw [List.append_assoc] at ih
      exact .link inside fits stands (.inr longer) (ih directory)
  | last _ _ _ stays => cases stays

/-- A walk that does not end at a link goes the same way whether links at its end are followed or
not. -/
theorem followed (leads : s.Leads false n l parts m) (plain : s.link? m = none) :
    s.Leads true n l parts m := by
  induction leads with
  | here => exact .here
  | part directory short between _ ih => exact .part directory short between (ih plain)
  | link directory short stands _ _ ih =>
      exact .link directory short stands (.inl rfl) (ih plain)
  | last _ _ stands _ =>
      rw [plain] at stands
      cases stands

/-- Where a walk leads, something is named, be it a link. -/
theorem exists_entry (leads : s.Leads true n l parts m) : ∃ k, s.Leads false n l parts k := by
  induction leads with
  | here => exact ⟨_, .here⟩
  | part directory short plain _ ih =>
      obtain ⟨k, entry⟩ := ih
      exact ⟨k, .part directory short plain entry⟩
  | @link n l m part rest target directory short stands _ _ ih =>
      by_cases last : rest = []
      · subst last
        exact ⟨_, .last directory short stands rfl⟩
      · obtain ⟨k, entry⟩ := ih
        exact ⟨k, .link directory short stands (.inr last) entry⟩
  | last _ _ _ stays => cases stays

end Leads

/-- A path leads to a location when it can be a path of a file and the parts of it can be walked. -/
theorem locateBy_eq_ok_iff : s.locateBy follow p = .ok l ↔
    p.hasNull = false ∧ (encode p.text).length ≤ longestPath ∧
      s.Leads follow mostLinks (s.start p) p.parts l := by
  rw [locateBy, ← walk_eq_ok_iff]
  cases p.hasNull with
  | true => simp
  | false =>
      by_cases long : (encode p.text).length > longestPath
      · simp [long, Nat.not_le_of_lt long]
      · simp [long, Nat.le_of_not_lt long, mapError_eq_ok_iff]

theorem locate_of_locateEntry (located : s.locateEntry p = .ok l) (plain : s.link? l = none) :
    s.locate p = .ok l := by
  obtain ⟨possible, short, leads⟩ := locateBy_eq_ok_iff.mp located
  exact locateBy_eq_ok_iff.mpr ⟨possible, short, leads.followed plain⟩

theorem exists_locateEntry (located : s.locate p = .ok l) : ∃ k, s.locateEntry p = .ok k := by
  obtain ⟨possible, short, leads⟩ := locateBy_eq_ok_iff.mp located
  obtain ⟨k, entry⟩ := leads.exists_entry
  exact ⟨k, locateBy_eq_ok_iff.mpr ⟨possible, short, entry⟩⟩

end Walk

theorem find_eq_ok_iff {e : Entry} :
    s.find p = .ok e ↔ ∃ l, s.locate p = .ok l ∧ s.stored? l = some e := by
  rw [find, bind_eq_ok_iff]
  refine exists_congr fun l => and_congr_right fun _ => ?_
  cases s.stored? l <;> simp

theorem locateBy_error {follow : Bool} {e : FileError} (failed : s.locateBy follow p = .error e) :
    e = .embeddedNull ∨ ∃ f, e = .fault f p.text none := by
  rw [locateBy] at failed
  split at failed
  · cases failed
    exact .inl rfl
  · refine .inr ?_
    split at failed
    · cases failed
      exact ⟨_, rfl⟩
    · cases walked : s.walk follow mostLinks (s.start p) p.parts with
      | error f =>
          rw [walked] at failed
          cases failed
          exact ⟨f, rfl⟩
      | ok l =>
          rw [walked] at failed
          cases failed

theorem find_error {e : FileError} (failed : s.find p = .error e) :
    e = .embeddedNull ∨ ∃ f, e = .fault f p.text none := by
  rw [find] at failed
  cases located : s.locate p with
  | error e' =>
      rw [located] at failed
      cases failed
      exact locateBy_error located
  | ok l =>
      simp only [located, bind, Except.bind] at failed
      split at failed
      · cases failed
      · cases failed
        exact .inr ⟨_, rfl⟩

theorem findIfAny_of_find {e : Entry} (found : s.find p = .ok e) : s.find? p = .ok (some e) := by
  rw [find?, found]

/-- Only a name that is too long keeps a path from being looked at. -/
theorem findIfAny_error {e : FileError} (failed : s.find? p = .error e) :
    e = .fault .nameTooLong p.text none := by
  rw [find?] at failed
  split at failed
  · cases failed
  · rename_i refused
    obtain same | ⟨f, same⟩ := find_error refused
    · cases same
    · cases same
      cases failed
      rfl
  · cases failed

theorem read_eq_ok_iff : s.read p = .ok content ↔
    ∃ data, s.find p = .ok (.file data) ∧ data.readable = true ∧ data.content = content := by
  rw [read, bind_eq_ok_iff]
  constructor
  · rintro ⟨e, found, isFile⟩
    cases e with
    | directory | link => cases isFile
    | file data =>
        simp only at isFile
        split at isFile
        · rename_i readable
          exact ⟨data, found, readable, Except.ok.inj isFile⟩
        · cases isFile
  · rintro ⟨data, found, readable, rfl⟩
    exact ⟨_, found, by simp [readable]⟩

end Store
end PhpGate
