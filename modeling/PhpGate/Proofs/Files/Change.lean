import PhpGate.Files.Change
import PhpGate.Proofs.Files.Store

/-!
What the changes of a store leave alone. Each of them touches one entry or the data of one file, and
a path leads where it has led as long as no directory or link on its way is taken away and no new
link is put there.
-/

namespace PhpGate

open Text

namespace Store

variable {s s' s'' : Store} {l m : Location} {n : Node} {p : Path} {content : Bytes} {id : Nat}
  {data : FileData}

section Lookup

variable {κ α : Type} [BEq κ] [LawfulBEq κ] {k k' : κ}

theorem lookup_filter_ne (different : k' ≠ k) (entries : List (κ × α)) :
    (entries.filter (·.1 != k)).lookup k' = entries.lookup k' := by
  induction entries with
  | nil => rfl
  | cons entry entries ih =>
      obtain ⟨key, x⟩ := entry
      by_cases here : key = k
      · have other : (k' == key) = false := beq_false_of_ne (here ▸ different)
        simp [here, ih, List.lookup_cons, here ▸ other]
      · simp [here, ih, List.lookup_cons]

theorem lookup_filter_self (entries : List (κ × α)) :
    (entries.filter (·.1 != k)).lookup k = none := by
  rw [List.lookup_eq_none_iff]
  intro entry mem
  have other : entry.1 ≠ k := by simpa using (List.mem_filter.mp mem).2
  exact bne_iff_ne.mpr other.symm

theorem lookup_put_self (entries : List (κ × α)) (x : α) :
    (entries.filter (·.1 != k) ++ [(k, x)]).lookup k = some x := by
  rw [List.lookup_append, lookup_filter_self]
  simp

theorem lookup_put_ne (different : k' ≠ k) (entries : List (κ × α)) (x : α) :
    (entries.filter (·.1 != k) ++ [(k, x)]).lookup k' = entries.lookup k' := by
  have other : (k' == k) = false := beq_false_of_ne different
  rw [List.lookup_append, lookup_filter_ne different, List.lookup_cons, other]
  simp

end Lookup

theorem node_eq_lookup (below : l ≠ []) : s.node? l = s.nodes.lookup l := by
  simp [node?, below]

theorem node_setNode_self (below : l ≠ []) : (s.setNode l n).node? l = some n := by
  rw [node_eq_lookup below]
  exact lookup_put_self _ _

theorem node_setNode_ne (different : m ≠ l) : (s.setNode l n).node? m = s.node? m := by
  by_cases root : m = []
  · rw [root]
    rfl
  · rw [node_eq_lookup root, node_eq_lookup root]
    exact lookup_put_ne different _ _

theorem node_removeNode_self (below : l ≠ []) : (s.removeNode l).node? l = none := by
  rw [node_eq_lookup below]
  exact lookup_filter_self _

theorem node_removeNode_ne (different : m ≠ l) : (s.removeNode l).node? m = s.node? m := by
  by_cases root : m = []
  · rw [root]
    rfl
  · rw [node_eq_lookup root, node_eq_lookup root]
    exact lookup_filter_ne different _

@[simp] theorem node_setData : (s.setData id data).node? l = s.node? l := rfl

@[simp] theorem data_setNode : (s.setNode l n).data id = s.data id := rfl

@[simp] theorem data_removeNode : (s.removeNode l).data id = s.data id := rfl

theorem data_setData_self : (s.setData id data).data id = data := by
  rw [Store.data, setData, lookup_put_self]
  rfl

theorem data_setData_ne {id' : Nat} (different : id' ≠ id) :
    (s.setData id data).data id' = s.data id' := by
  rw [Store.data, setData, lookup_put_ne different]
  rfl

section Entries

theorem entry_congr (node : s'.node? l = s.node? l)
    (same : ∀ id, s.node? l = some (.file id) → s'.data id = s.data id) :
    s'.stored? l = s.stored? l := by
  rw [stored?, stored?, node]
  cases stands : s.node? l with
  | none => rfl
  | some n =>
      cases n with
      | directory | link => rfl
      | file id => simp [same id stands]

theorem entry_setNode_self (below : l ≠ []) :
    (s.setNode l (.file id)).stored? l = some (.file (s.data id)) :=
  entry_eq_file_iff.mpr ⟨id, node_setNode_self below, rfl⟩

theorem entry_setNode_ne (different : m ≠ l) : (s.setNode l n).stored? m = s.stored? m :=
  entry_congr (node_setNode_ne different) fun _ _ => rfl

theorem entry_removeNode_ne (different : m ≠ l) : (s.removeNode l).stored? m = s.stored? m :=
  entry_congr (node_removeNode_ne different) fun _ _ => rfl

theorem entry_setData_self (stands : s.node? l = some (.file id)) :
    (s.setData id data).stored? l = some (.file data) :=
  entry_eq_file_iff.mpr ⟨id, stands, data_setData_self⟩

/-- What is written to a file does not change an entry that is not of this file. -/
theorem entry_setData_ne (other : s.node? l ≠ some (.file id)) :
    (s.setData id data).stored? l = s.stored? l := by
  refine entry_congr rfl fun id' stands => data_setData_ne ?_
  rintro rfl
  exact other stands

theorem mem_nodes_of_file (stands : s.node? l = some (.file id)) : (l, .file id) ∈ s.nodes := by
  have below : l ≠ [] := below_root (by rw [stands]; exact nofun)
  rw [node_eq_lookup below] at stands
  obtain ⟨front, back, split, -⟩ := List.lookup_eq_some_iff.mp stands
  rw [split]
  simp

theorem mem_usedIds (stands : s.node? l = some (.file id)) : id ∈ s.usedIds :=
  List.mem_append_right _ (List.mem_filterMap.mpr ⟨_, mem_nodes_of_file stands, rfl⟩)

theorem lt_freshId (used : id ∈ s.usedIds) : id < s.freshId := by
  have bounded : ∀ ids : List Nat, id ∈ ids → id ≤ ids.foldr max 0 := by
    intro ids mem
    induction ids with
    | nil => cases mem
    | cons first ids ih =>
        obtain rfl | mem := List.mem_cons.mp mem
        · exact Nat.le_max_left _ _
        · exact Nat.le_trans (ih mem) (Nat.le_max_right _ _)
  exact Nat.lt_succ_of_le (bounded _ used)

theorem ne_freshId (stands : s.node? l = some (.file id)) : id ≠ s.freshId :=
  Nat.ne_of_lt (lt_freshId (mem_usedIds stands))

theorem node_addFile_self (below : l ≠ []) :
    (s.addFile l content).node? l = some (.file s.freshId) :=
  node_setNode_self below

/-- A file that has been added has no other name. -/
theorem eq_of_node_addFile (below : l ≠ [])
    (stands : (s.addFile l content).node? l = some (.file id))
    (stands' : (s.addFile l content).node? m = some (.file id)) : m = l := by
  rw [node_addFile_self below] at stands
  cases stands
  refine Decidable.byContradiction fun other => ?_
  exact ne_freshId ((node_setNode_ne other).symm.trans stands') rfl

theorem entry_addFile_self (below : l ≠ []) :
    (s.addFile l content).stored? l = some (.file { content }) :=
  entry_setData_self (node_setNode_self below)

theorem entry_addFile_ne (different : m ≠ l) : (s.addFile l content).stored? m = s.stored? m := by
  refine entry_congr (node_setNode_ne different) fun id stands => ?_
  exact data_setData_ne (ne_freshId stands)

end Entries

/-- The directories and links of a store are those of another one, in which there may be more
directories, and relative paths start there where they did. -/
structure KeepsWays (s s' : Store) : Prop where
  start : s'.workingDirectory = s.workingDirectory
  directory : ∀ l, s.node? l = some .directory → s'.node? l = some .directory
  link : ∀ l, s'.link? l = s.link? l

namespace KeepsWays

theorem refl (s : Store) : KeepsWays s s := ⟨rfl, fun _ => id, fun _ => rfl⟩

theorem trans (first : KeepsWays s s') (second : KeepsWays s' s'') : KeepsWays s s'' :=
  ⟨second.start.trans first.start, fun l stands => second.directory l (first.directory l stands),
    fun l => (second.link l).trans (first.link l)⟩

theorem leads (keeps : KeepsWays s s') {follow : Bool} {links : Nat} {parts : List Text}
    (leads : s.Leads follow links l parts m) : s'.Leads follow links l parts m := by
  induction leads with
  | here => exact .here
  | part directory short plain _ ih =>
      exact .part (keeps.directory _ directory) short ((keeps.link _).trans plain) ih
  | link directory short stands follows _ ih =>
      exact .link (keeps.directory _ directory) short ((keeps.link _).trans stands) follows ih
  | last directory short stands stays =>
      exact .last (keeps.directory _ directory) short ((keeps.link _).trans stands) stays

theorem locateBy (keeps : KeepsWays s s') {follow : Bool} (found : s.locateBy follow p = .ok l) :
    s'.locateBy follow p = .ok l := by
  rw [locateBy_eq_ok_iff] at found ⊢
  obtain ⟨possible, short, leads⟩ := found
  have same : s'.start p = s.start p := by rw [Store.start, Store.start, keeps.start]
  exact ⟨possible, short, same ▸ keeps.leads leads⟩

theorem of_setNode (solid : s.node? l ≠ some .directory) (plain : s.link? l = none)
    (plain' : (s.setNode l n).link? l = none) : KeepsWays s (s.setNode l n) := by
  refine ⟨rfl, fun m directory => ?_, fun m => ?_⟩
  · by_cases same : m = l
    · exact absurd (same ▸ directory) solid
    · rw [node_setNode_ne same, directory]
  · by_cases same : m = l
    · rw [same, plain, plain']
    · rw [link?, node_setNode_ne same, link?]

theorem of_setData : KeepsWays s (s.setData id data) :=
  ⟨rfl, fun _ stands => stands, fun _ => rfl⟩

theorem of_addFile (absent : s.node? l = none) : KeepsWays s (s.addFile l content) := by
  refine (of_setNode ?_ ?_ ?_).trans .of_setData
  · rw [absent]
    exact nofun
  · rw [link?, absent]
  · rw [link?, node_setNode_self (below_root_of_absent absent)]

end KeepsWays

section Operations

theorem write_of_absent (located : s.locate p = .ok l) (absent : s.node? l = none) :
    s.write p content = .ok (s.addFile l content) := by
  simp [write, located, absent, bind, Except.bind]

theorem write_of_file (located : s.locate p = .ok l) (stands : s.node? l = some (.file id))
    (writable : (s.data id).writable = true) :
    s.write p content = .ok (s.setData id { s.data id with content }) := by
  simp [write, located, stands, writable, bind, Except.bind]

/-- A write makes a file, or changes the data of one that may be written. -/
theorem write_cases (written : s.write p content = .ok s') :
    ∃ l, s.locate p = .ok l ∧ (s.node? l = none ∧ s' = s.addFile l content ∨
      ∃ id, s.node? l = some (.file id) ∧ (s.data id).writable = true ∧
        s' = s.setData id { s.data id with content }) := by
  obtain ⟨l, located, done⟩ := bind_eq_ok_iff.mp written
  refine ⟨l, located, ?_⟩
  cases stands : s.node? l with
  | none =>
      rw [stands] at done
      cases done
      exact .inl ⟨rfl, rfl⟩
  | some n =>
      rw [stands] at done
      cases n with
      | directory | link => cases done
      | file id =>
          simp only at done
          split at done
          · rename_i writable
            cases done
            exact .inr ⟨id, rfl, writable, rfl⟩
          · cases done

theorem create_eq_ok_iff : s.create p = .ok s' ↔
    ∃ l, s.locateEntry p = .ok l ∧ s.node? l = none ∧ s.addFile l [] = s' := by
  rw [create, bind_eq_ok_iff]
  refine exists_congr fun l => and_congr_right fun _ => ?_
  cases s.node? l <;> simp

theorem remove_of_file (located : s.locateEntry p = .ok l) (stands : s.node? l = some (.file id)) :
    s.remove p = .ok (s.removeNode l) := by
  simp [remove, located, stands]

/-- What a removal leaves: the store without a file or a link, or the same store if none is found. -/
theorem remove_cases (s : Store) (p : Path) :
    (∃ l, s.locateEntry p = .ok l ∧ s.node? l ≠ none ∧ s.node? l ≠ some .directory ∧
        s.remove p = .ok (s.removeNode l)) ∨
      (s.remove p).toOption.getD s = s ∧
        ∀ l, s.locateEntry p = .ok l → s.node? l = none ∨ s.node? l = some .directory := by
  rw [remove]
  cases located : s.locateEntry p with
  | error e =>
      refine .inr ⟨?_, fun l found => by cases found⟩
      cases e with
      | denied | embeddedNull => rfl
      | fault f => cases f <;> rfl
  | ok l =>
      dsimp only
      cases stands : s.node? l with
      | none => exact .inr ⟨rfl, fun m found => .inl (by cases found; exact stands)⟩
      | some n =>
          cases n with
          | directory => exact .inr ⟨rfl, fun m found => .inr (by cases found; exact stands)⟩
          | file | link => exact .inl ⟨l, rfl, by simp [stands], by simp [stands], rfl⟩

/-- A file that is moved to another place takes it over, unless a directory stands there or both are
names of one file. -/
theorem replace_of_file {target : Path} (located : s.locateEntry p = .ok l)
    (located' : s.locateEntry target = .ok m) (stands : s.node? l = some (.file id))
    (solid : s.node? m ≠ some .directory) (other : s.node? m ≠ some (.file id)) :
    s.replace p target = .ok ((s.removeNode l).setNode m (.file id)) := by
  simp only [replace, located, located', mapError_ok, bind, Except.bind, stands]
  cases there : s.node? m with
  | none => rfl
  | some n =>
      cases n with
      | directory => exact absurd there solid
      | link => rfl
      | file j =>
          have different : id ≠ j := by
            rintro rfl
            exact other there
          simp [Node.isSameFile, different]

/-- Nothing is moved over a directory. -/
theorem replace_onto_directory {target : Path} (located : s.locateEntry p = .ok l)
    (located' : s.locateEntry target = .ok m) (stands : s.node? l = some (.file id))
    (solid : s.node? m = some .directory) :
    s.replace p target = .error (.fault .isDirectory p.text (some target.text)) := by
  simp only [replace, located, located', mapError_ok, bind, Except.bind, stands, solid]

end Operations

end Store
end PhpGate
