import PhpGate.Proofs.Files.Directories
import PhpGate.Validation.Index

/-!
The writing of the index file. When it succeeds the file is whole and nothing is left beside it. When
it fails the file that was there before is untouched, and the staging file is removed if that is
possible. The staging place must be a place of its own: what is written to a link there, or to a file
that has another name, is written elsewhere.
-/

namespace PhpGate

open Text

namespace Index

variable {i : Interference} {files made staged : Store} {directory : Path} {k l : Location}
  {content : Bytes} {e : FileError} {name : Text}

def stagingName : Text := fileName ++ ".tmp".toList

/-- The files once the directory of the index is made, as far as it can be. -/
def prepared (files : Store) (directory : Path) : Store :=
  (files.makeDirectories directory directory.parts.length).2

/-- The location of the directory of the index, if it can be made. -/
def home? (files : Store) (directory : Path) : Option Location :=
  (prepared files directory).locate directory |>.toOption.filter fun k =>
    (prepared files directory).node? k = some .directory

/-- What stands at a location stands only there: it is no link, and no file with another name. -/
structure IsPlainAt (files : Store) (l : Location) : Prop where
  plain : files.link? l = none
  single : ∀ m id, files.node? l = some (.file id) → files.node? m = some (.file id) → m = l

theorem isPlainAt_of_nodes (plain : files.link? l = none)
    (single : ∀ entry ∈ files.nodes, files.node? l = some entry.2 → entry.1 = l) :
    IsPlainAt files l :=
  ⟨plain, fun _ _ stands stands' => single _ (Store.mem_nodes_of_file stands') stands⟩

/-- Why an index cannot be written into a directory though nothing interferes. -/
inductive IsObstructed (files : Store) (directory : Path) : Prop where
  | homeless (absent : home? files directory = none)
  | place {k : Location} (home : home? files directory = some k)
      (stands : (prepared files directory).node? (k ++ [fileName]) = some .directory)
  | staging {k : Location} (home : home? files directory = some k)
      (stands : (prepared files directory).node? (k ++ [stagingName]) = some .directory)
  | locked {k : Location} {data : FileData} (home : home? files directory = some k)
      (stands : files.stored? (k ++ [stagingName]) = some (.file data))
      (locked : data.writable = false)
  | long (long : Store.longestPath < (encode (stagingPlace directory).text).length)

theorem home_eq_some_iff : home? files directory = some k ↔
    (prepared files directory).locate directory = .ok k ∧
      (prepared files directory).node? k = some .directory := by
  rw [home?, Option.filter_eq_some_iff, toOption_eq_some_iff, decide_eq_true_iff]

theorem home_eq_none (absent : (prepared files directory).find directory ≠ .ok .directory) :
    home? files directory = none := by
  rw [Option.eq_none_iff_forall_ne_some]
  intro k home
  exact absent (Store.find_eq_directory_iff.mpr ⟨k, home_eq_some_iff.mp home⟩)

/-- The path of the staging file goes on from that of the index. -/
theorem length_text_place_le (directory : Path) :
    (encode (place directory).text).length ≤ (encode (stagingPlace directory).text).length := by
  obtain ⟨lead, -, joined⟩ := directory.text_join_name
  rw [place, stagingPlace, joined, joined, ← List.append_assoc]
  exact length_encode_le_append _ _

theorem place_ne_staging (k : Location) : k ++ [fileName] ≠ k ++ [stagingName] := by
  intro same
  exact absurd (List.append_cancel_left same) (by decide)

/-- The store around the staging file `l`: only that file may differ from before, and it stands only
there. -/
structure IsStaged (made staged : Store) (l : Location) : Prop where
  keeps : made.KeepsWays staged
  kept : ∀ m, m ≠ l → staged.stored? m = made.stored? m
  plain : IsPlainAt staged l

theorem IsStaged.refl (plain : IsPlainAt made l) : IsStaged made made l :=
  ⟨.refl made, fun _ _ => rfl, plain⟩

/-- A directory elsewhere was there before. -/
theorem IsStaged.node_of_directory (isStaged : IsStaged made staged l) (other : m ≠ l)
    (solid : staged.node? m = some .directory) : made.node? m = some .directory := by
  rw [← Store.entry_eq_directory_iff, ← isStaged.kept m other, Store.entry_eq_directory_iff]
  exact solid

section Staging

variable (plain : IsPlainAt made l)
  (located : ∀ m, made.locate (stagingPlace directory) = .ok m → m = l)
include plain located

/-- A write to the staging file changes nothing else. -/
theorem isStaged_write {written : Store}
    (wrote : made.write (stagingPlace directory) content = .ok written) :
    IsStaged made written l ∧
      ∃ data, written.stored? l = some (.file data) ∧ data.content = content := by
  obtain ⟨m, found, ⟨absent, rfl⟩ | ⟨id, stands, -, rfl⟩⟩ := Store.write_cases wrote
  · obtain rfl := located m found
    have below := Store.below_root_of_absent absent
    have new : (made.addFile m content).node? m = some (.file made.freshId) :=
      Store.node_addFile_self below
    refine ⟨⟨.of_addFile absent, fun _ => Store.entry_addFile_ne, ?_, ?_⟩,
      _, Store.entry_addFile_self below, rfl⟩
    · rw [Store.link?, new]
    · exact fun m id => Store.eq_of_node_addFile below
  · obtain rfl := located m found
    refine ⟨⟨.of_setData, fun m' other => Store.entry_setData_ne fun stands' => ?_,
      plain.plain, plain.single⟩, _, Store.entry_setData_self stands, rfl⟩
    exact other (plain.single m' id stands stands')

theorem isStaged_stage (i : Interference) (content : Bytes) :
    IsStaged made (stage i made (stagingPlace directory) content).2 l ∧
    ((stage i made (stagingPlace directory) content).1 = .ok () →
      (encode (stagingPlace directory).text).length ≤ Store.longestPath ∧
      ∃ data, (stage i made (stagingPlace directory) content).2.stored? l = some (.file data) ∧
        data.content = content) := by
  rw [stage]
  cases i.write with
  | none =>
      dsimp only
      cases wrote : made.write (stagingPlace directory) content with
      | error e => exact ⟨.refl plain, nofun⟩
      | ok written =>
          obtain ⟨staged, whole⟩ := isStaged_write plain located wrote
          obtain ⟨m, found, -⟩ := Store.write_cases wrote
          exact ⟨staged, fun _ => ⟨(Store.locateBy_eq_ok_iff.mp found).2.1, whole⟩⟩
  | some cut =>
      obtain ⟨n, e⟩ := cut
      dsimp only
      cases wrote : made.write (stagingPlace directory) (content.take n) with
      | error e => exact ⟨.refl plain, nofun⟩
      | ok written => exact ⟨(isStaged_write plain located wrote).1, nofun⟩

end Staging

/-- Where the system does not interfere, staging fails only if the write does. -/
theorem error_of_stage {e : FileError}
    (failed : stage {} made (stagingPlace directory) content = (.error e, staged)) :
    made.write (stagingPlace directory) content = .error e := by
  rw [stage] at failed
  dsimp only at failed
  cases wrote : made.write (stagingPlace directory) content with
  | ok written =>
      rw [wrote] at failed
      cases failed
  | error error =>
      rw [wrote] at failed
      cases failed
      rfl

/-- Discarding the staging file changes nothing else, and it is gone unless it may not be removed or
its path leads nowhere. -/
theorem discard_spec (i : Interference) (e : FileError)
    (located : ∀ m, staged.locateEntry (stagingPlace directory) = .ok m → m = l) :
    ∃ error after, discard i staged (stagingPlace directory) e = (.error error, after) ∧
      after.workingDirectory = staged.workingDirectory ∧
      (∀ m, m ≠ l → after.stored? m = staged.stored? m) ∧
      (i.removal = none → staged.locateEntry (stagingPlace directory) = .ok l →
        ∀ data, after.stored? l ≠ some (.file data)) := by
  rw [discard]
  cases i.removal with
  | some refusal => exact ⟨refusal, staged, rfl, rfl, fun _ _ => rfl, nofun⟩
  | none =>
      obtain ⟨m, found, -, solid, removed⟩ | ⟨same, nothing⟩ :=
        staged.remove_cases (stagingPlace directory)
      · obtain rfl := located m found
        refine ⟨e, staged.removeNode m, by rw [Option.elim, removed], rfl,
          fun m' => Store.entry_removeNode_ne, fun _ _ data stands => ?_⟩
        have gone := Store.node_removeNode_self (s := staged) (Store.below_root solid)
        rw [Store.entry_eq_none_iff.mpr gone] at stands
        cases stands
      · have left : ∀ data, staged.locateEntry (stagingPlace directory) = .ok l →
            staged.stored? l ≠ some (.file data) := by
          intro data found stands
          obtain ⟨id, stands, -⟩ := Store.entry_eq_file_iff.mp stands
          obtain absent | directory := nothing l found
          · rw [stands] at absent
            cases absent
          · rw [stands] at directory
            cases directory
        cases outcome : staged.remove (stagingPlace directory) with
        | error error =>
            exact ⟨error, staged, by rw [Option.elim], rfl, fun _ _ => rfl,
              fun _ found data => left data found⟩
        | ok after =>
            rw [outcome] at same
            obtain rfl : after = staged := same
            exact ⟨e, after, by rw [Option.elim], rfl, fun _ _ => rfl,
              fun _ found data => left data found⟩

theorem prepared_adds (files : Store) (directory : Path) :
    files.AddsDirectories (prepared files directory) :=
  (files.makeDirectories_spec directory directory.parts.length).1

/-- A place that no directory has been made at is as plain as before. -/
theorem IsPlainAt.prepared (plain : IsPlainAt files l) : IsPlainAt (prepared files directory) l := by
  have adds := prepared_adds files directory
  have before : ∀ {m id}, (Index.prepared files directory).node? m = some (.file id) →
      files.node? m = some (.file id) := by
    intro m id stands
    obtain same | ⟨-, made⟩ := adds.kept m
    · rw [← same, stands]
    · rw [made] at stands
      cases stands
  refine ⟨(adds.keepsWays.link l).trans plain.plain, fun m id stands stands' => ?_⟩
  exact plain.single m id (before stands) (before stands')

section Home

variable (home : home? files directory = some k)
include home

theorem locateEntry_home (clean : name.contains (Char.ofNat 0) = false)
    (fits : (encode name).length ≤ Store.longestName) (other : name ≠ "..".toList ∧ name ≠ ['.'])
    (keeps : (prepared files directory).KeepsWays made)
    (short : (encode (directory.join [name]).text).length ≤ Store.longestPath) :
    made.locateEntry (directory.join [name]) = .ok (k ++ [name]) := by
  obtain ⟨located, solid⟩ := home_eq_some_iff.mp home
  refine Store.locateEntry_join_iff.mpr ⟨clean, fits, short, k, keeps.locateBy located,
    keeps.directory k solid, ?_⟩
  rw [Location.step, if_neg other.1, if_neg other.2]

theorem locateEntry_staging (keeps : (prepared files directory).KeepsWays made)
    (short : (encode (stagingPlace directory).text).length ≤ Store.longestPath) :
    made.locateEntry (stagingPlace directory) = .ok (k ++ [stagingName]) :=
  locateEntry_home home (by decide) (by decide) (by decide) keeps short

theorem eq_of_locateEntry_staging (keeps : (prepared files directory).KeepsWays made) (m : Location)
    (found : made.locateEntry (stagingPlace directory) = .ok m) : m = k ++ [stagingName] := by
  have short := (Store.locateBy_eq_ok_iff.mp found).2.1
  exact Except.ok.inj (found.symm.trans (locateEntry_staging home keeps short))

theorem eq_of_locate_staging (plain : IsPlainAt (prepared files directory) (k ++ [stagingName]))
    (m : Location) (found : (prepared files directory).locate (stagingPlace directory) = .ok m) :
    m = k ++ [stagingName] := by
  obtain ⟨m', entry⟩ := Store.exists_locateEntry found
  obtain rfl := eq_of_locateEntry_staging home (.refl _) m' entry
  exact Except.ok.inj (found.symm.trans (Store.locate_of_locateEntry entry plain.plain))

/-- The staging file can be written unless it is a directory or locked, or its path is too long. -/
theorem isObstructed_of_write (plain : IsPlainAt (prepared files directory) (k ++ [stagingName]))
    (failed : (prepared files directory).write (stagingPlace directory) content = .error e) :
    IsObstructed files directory := by
  by_cases long : Store.longestPath < (encode (stagingPlace directory).text).length
  · exact .long long
  · have entry := locateEntry_staging home (.refl _) (Nat.le_of_not_lt long)
    have found := Store.locate_of_locateEntry entry plain.plain
    cases stands : (prepared files directory).node? (k ++ [stagingName]) with
    | none =>
        rw [Store.write_of_absent found stands] at failed
        cases failed
    | some n =>
        cases n with
        | directory => exact .staging home stands
        | link target => exact absurd stands (Store.link_eq_none_iff.mp plain.plain target)
        | file id =>
            cases writable : ((prepared files directory).data id).writable with
            | true =>
                rw [Store.write_of_file found stands writable] at failed
                cases failed
            | false =>
                have isFile := Store.entry_eq_file_iff.mpr ⟨id, stands, rfl⟩
                obtain same | ⟨-, made⟩ := (prepared_adds files directory).isKeptAt
                  (k ++ [stagingName])
                · exact .locked home (same ▸ isFile) writable
                · rw [stands] at made
                  cases made

/-- A whole staging file is moved unless a directory stands at the place of the index. -/
theorem replace_staged (isStaged : IsStaged (prepared files directory) staged (k ++ [stagingName]))
    (short : (encode (stagingPlace directory).text).length ≤ Store.longestPath) {data : FileData}
    (stands : staged.stored? (k ++ [stagingName]) = some (.file data)) :
    (prepared files directory).node? (k ++ [fileName]) = some .directory ∧
        (∃ e, staged.replace (stagingPlace directory) (place directory) = .error e) ∨
      ∃ done, staged.replace (stagingPlace directory) (place directory) = .ok done ∧
        done.workingDirectory = staged.workingDirectory ∧
        done.stored? (k ++ [fileName]) = some (.file data) ∧
        done.stored? (k ++ [stagingName]) = none ∧
        ∀ m, m ≠ k ++ [fileName] → m ≠ k ++ [stagingName] → done.stored? m = staged.stored? m := by
  have source := locateEntry_staging home isStaged.keeps short
  have target : staged.locateEntry (place directory) = .ok (k ++ [fileName]) :=
    locateEntry_home home (by decide) (by decide) (by decide) isStaged.keeps
      (Nat.le_trans (length_text_place_le directory) short)
  have apart := place_ne_staging k
  obtain ⟨id, node, rfl⟩ := Store.entry_eq_file_iff.mp stands
  by_cases solid : staged.node? (k ++ [fileName]) = some .directory
  · exact .inl ⟨isStaged.node_of_directory apart solid, _,
      Store.replace_onto_directory source target node solid⟩
  · have other : staged.node? (k ++ [fileName]) ≠ some (.file id) :=
      fun named => apart (isStaged.plain.single _ id node named)
    refine .inr ⟨_, Store.replace_of_file source target node solid other, rfl, ?_, ?_, ?_⟩
    · exact Store.entry_setNode_self (Store.below_root solid)
    · rw [Store.entry_setNode_ne apart.symm, Store.entry_eq_none_iff]
      exact Store.node_removeNode_self (by simp)
    · intro m unplaced unstaged
      rw [Store.entry_setNode_ne unplaced, Store.entry_removeNode_ne unstaged]

end Home

/-- What is left when the index could not be written: anything but the staging file is as before, and
the staging file is gone if it could be removed. -/
structure IsUntouched (i : Interference) (files after : Store) (directory : Path) : Prop where
  start : after.workingDirectory = files.workingDirectory
  kept : ∀ l, (∀ k, home? files directory = some k → l ≠ k ++ [stagingName]) → files.IsKeptAt after l
  unstaged : i.removal = none →
    (encode (stagingPlace directory).text).length ≤ Store.longestPath →
      ∀ k data, home? files directory = some k → after.stored? (k ++ [stagingName]) ≠ some (.file data)

/-- The index file is whole, the staging file is gone and anything else is as before. -/
structure IsWritten (files after : Store) (directory : Path) (content : Bytes) (k : Location) :
    Prop where
  start : after.workingDirectory = files.workingDirectory
  whole : ∃ data, after.stored? (k ++ [fileName]) = some (.file data) ∧ data.content = content
  unstaged : after.stored? (k ++ [stagingName]) = none
  kept : ∀ l, l ≠ k ++ [fileName] → l ≠ k ++ [stagingName] → files.IsKeptAt after l

/-- What is as it was beside the staging file is as it was before the directories were made. -/
theorem IsStaged.isKeptAt {after : Store} (isStaged : IsStaged (prepared files directory) staged k)
    (other : l ≠ k) (same : after.stored? l = staged.stored? l) : files.IsKeptAt after l := by
  have same := same.trans (isStaged.kept l other)
  obtain before | ⟨absent, made⟩ := (prepared_adds files directory).isKeptAt l
  · exact .inl (same.trans before)
  · rw [Store.entry_eq_directory_iff.mpr made] at same
    exact .inr ⟨absent, Store.entry_eq_directory_iff.mp same⟩

/-- What has been staged is discarded without a trace. -/
theorem IsStaged.discard (isStaged : IsStaged (prepared files directory) staged (k ++ [stagingName]))
    (home : home? files directory = some k) (i : Interference) (e : FileError) :
    ∃ error after, discard i staged (stagingPlace directory) e = (.error error, after) ∧
      IsUntouched i files after directory := by
  obtain ⟨error, after, outcome, start, kept, gone⟩ :=
    discard_spec i e (eq_of_locateEntry_staging home isStaged.keeps)
  have adds := prepared_adds files directory
  refine ⟨error, after, outcome, ?_, fun l elsewhere => ?_, fun removable short k' data home' => ?_⟩
  · exact start.trans (isStaged.keeps.start.trans adds.start)
  · exact isStaged.isKeptAt (elsewhere k home) (kept l (elsewhere k home))
  · obtain rfl : k = k' := Option.some.inj (home.symm.trans home')
    exact gone removable (locateEntry_staging home isStaged.keeps short) data

/-- If the directory cannot be made, it is all that has been tried. -/
theorem writeUnder_of_homeless {e : FileError}
    (failed : (files.makeDirectories directory directory.parts.length).1 = .error e)
    (i : Interference) (index : Index) :
    index.writeUnder i files directory = (.error e, prepared files directory) ∧
      IsUntouched i files (prepared files directory) directory ∧ home? files directory = none := by
  have adds := prepared_adds files directory
  have homeless : home? files directory = none := home_eq_none fun found => by
    rw [(files.makeDirectories_spec directory directory.parts.length).2.mpr found] at failed
    cases failed
  refine ⟨?_, ⟨adds.start, fun l _ => adds.isKeptAt l, fun _ _ k data home => ?_⟩, homeless⟩
  · rw [writeUnder, show files.makeDirectories directory directory.parts.length
      = (.error e, prepared files directory) from Prod.ext failed rfl]
  · cases homeless.symm.trans home

/-- A whole staging file is moved to the place of the index, unless the system refuses it or a
directory stands there. -/
theorem move_cases (home : home? files directory = some k)
    (isStaged : IsStaged (prepared files directory) staged (k ++ [stagingName]))
    (short : (encode (stagingPlace directory).text).length ≤ Store.longestPath) {data : FileData}
    (stands : staged.stored? (k ++ [stagingName]) = some (.file data)) (i : Interference) :
    (∃ e, i.move.elim (staged.replace (stagingPlace directory) (place directory)) .error = .error e ∧
        (i = {} → IsObstructed files directory)) ∨
      ∃ after, i.move.elim (staged.replace (stagingPlace directory) (place directory)) .error
          = .ok after ∧ IsWritten files after directory data.content k := by
  have moves := replace_staged home isStaged short stands
  cases refusal : i.move with
  | some e =>
      refine .inl ⟨e, rfl, fun quiet => ?_⟩
      rw [quiet] at refusal
      cases refusal
  | none =>
      obtain ⟨solid, e, failed⟩ | ⟨after, replaced, start, placed, unstaged, kept⟩ := moves
      · exact .inl ⟨e, failed, fun _ => .place home solid⟩
      · refine .inr ⟨after, replaced, ?_, ⟨data, placed, rfl⟩, unstaged, fun l unplaced apart => ?_⟩
        · exact start.trans (isStaged.keeps.start.trans (prepared_adds files directory).start)
        · exact isStaged.isKeptAt apart (kept l unplaced apart)

/-- Writing the index fails and leaves the files untouched, or it is written. It fails only where the
system interferes or something is in the way. -/
theorem writeUnder_cases (i : Interference) (index : Index) (files : Store) (directory : Path)
    (plain : ∀ k, home? files directory = some k → IsPlainAt files (k ++ [stagingName])) :
    (∃ error after, index.writeUnder i files directory = (.error error, after) ∧
        IsUntouched i files after directory ∧ (i = {} → IsObstructed files directory)) ∨
      ∃ k after, home? files directory = some k ∧
        index.writeUnder i files directory = (.ok (place directory), after) ∧
        IsWritten files after directory (encode index.text) k := by
  cases outcome : (files.makeDirectories directory directory.parts.length).1 with
  | error e =>
      obtain ⟨failed, untouched, homeless⟩ := writeUnder_of_homeless outcome i index
      exact .inl ⟨e, _, failed, untouched, fun _ => .homeless homeless⟩
  | ok =>
      obtain ⟨k, home⟩ : ∃ k, home? files directory = some k := by
        have made := (files.makeDirectories_spec directory directory.parts.length).2.mp outcome
        obtain ⟨k, located, solid⟩ := Store.find_eq_directory_iff.mp made
        exact ⟨k, home_eq_some_iff.mpr ⟨located, solid⟩⟩
      have plain : IsPlainAt (prepared files directory) (k ++ [stagingName]) :=
        (plain k home).prepared
      obtain ⟨isStaged, whole⟩ := isStaged_stage plain (eq_of_locate_staging home plain) i
        (encode index.text)
      rw [writeUnder, show files.makeDirectories directory directory.parts.length
        = (.ok (), prepared files directory) from Prod.ext outcome rfl]
      dsimp only
      cases staging : stage i (prepared files directory) (stagingPlace directory)
          (encode index.text) with
      | mk outcome staged =>
          rw [staging] at isStaged whole
          cases outcome with
          | error e =>
              obtain ⟨error, after, outcome, untouched⟩ := isStaged.discard home i e
              refine .inl ⟨error, after, outcome, untouched, fun quiet => ?_⟩
              subst quiet
              exact isObstructed_of_write home plain (error_of_stage staging)
          | ok =>
              obtain ⟨short, data, stands, content⟩ := whole rfl
              dsimp only
              obtain ⟨e, moved, obstructed⟩ | ⟨after, moved, written⟩ :=
                move_cases home isStaged short stands i
              · obtain ⟨error, after, outcome, untouched⟩ := isStaged.discard home i e
                rw [moved]
                exact .inl ⟨error, after, outcome, untouched, obstructed⟩
              · rw [moved]
                exact .inr ⟨k, after, home, rfl, content ▸ written⟩

/-- The index is written as a whole or not at all, also where the system fails to write, to move or to
remove the staging file. It fails only where the system interferes or something is in the way. -/
theorem writeUnder_all_or_nothing (i : Interference) (index : Index) (files : Store)
    (directory : Path)
    (plain : ∀ k, home? files directory = some k → IsPlainAt files (k ++ [stagingName])) :
    let after := (index.writeUnder i files directory).2
    match (index.writeUnder i files directory).1 with
    | .ok written => written = place directory ∧ ∃ k, home? files directory = some k ∧
        IsWritten files after directory (encode index.text) k
    | .error _ => IsUntouched i files after directory ∧
        (∀ k e, home? files directory = some k → files.stored? (k ++ [fileName]) = some e →
          after.stored? (k ++ [fileName]) = some e) ∧
        (i = {} → IsObstructed files directory) := by
  intro after
  obtain ⟨error, left, outcome, untouched, obstructed⟩ | ⟨k, left, home, outcome, written⟩ :=
    writeUnder_cases i index files directory plain
  · simp only [after, outcome]
    refine ⟨untouched, fun k e home stands => ?_, obstructed⟩
    obtain same | ⟨absent, -⟩ := untouched.kept (k ++ [fileName]) fun k' home' same => by
      obtain rfl : k = k' := Option.some.inj (home.symm.trans home')
      exact place_ne_staging k same
    · rw [same, stands]
    · rw [Store.entry_eq_none_iff.mpr absent] at stands
      cases stands
  · simp only [after, outcome, true_and]
    exact ⟨k, home, written⟩

/-- A directory with an index, to which a second name leads, and with what an earlier attempt has
left. -/
def archive : Store where
  nodes := [(["out".toList], .directory), (["out".toList, fileName], .file 0),
    (["out".toList, stagingName], .file 1), (["old.json".toList], .file 0),
    (["latest".toList], .link (.of "out/index.json".toList))]
  contents := [(0, { content := [1] }), (1, { content := [2] })]

theorem home_archive : home? archive (.of "out".toList) = some ["out".toList] := by
  decide

theorem isPlainAt_archive (home : home? archive (.of "out".toList) = some k) :
    IsPlainAt archive (k ++ [stagingName]) := by
  obtain rfl := Option.some.inj (home_archive.symm.trans home)
  exact isPlainAt_of_nodes (by decide) (by decide)

theorem not_isObstructed_archive : ¬ IsObstructed archive (.of "out".toList) := by
  intro obstructed
  cases obstructed with
  | homeless absent => cases home_archive.symm.trans absent
  | place home stands | staging home stands =>
      obtain rfl := Option.some.inj (home_archive.symm.trans home)
      revert stands
      decide
  | locked home stands locked =>
      obtain rfl := Option.some.inj (home_archive.symm.trans home)
      cases stands
      cases locked
  | long long => exact absurd long (by decide)

/-- The archive stays as it was when the index cannot be moved to its place, and what was left there
is gone. -/
theorem writeUnder_archive :
    (∀ k, home? archive (.of "out".toList) = some k → IsPlainAt archive (k ++ [stagingName])) ∧
    let after := ((ofResults [] []).writeUnder { move := some (.denied "boom".toList) } archive
      (.of "out".toList)).2
    after.stored? ["out".toList, fileName] = some (.file { content := [1] }) ∧
      after.stored? ["old.json".toList] = some (.file { content := [1] }) ∧
      after.stored? ["out".toList, stagingName] ≠ some (.file { content := [2] }) := by
  have refused : ((ofResults [] []).writeUnder { move := some (.denied "boom".toList) } archive
      (.of "out".toList)).1 = .error (.denied "boom".toList) := rfl
  have outcome := writeUnder_all_or_nothing { move := some (.denied "boom".toList) }
    (ofResults [] []) archive (.of "out".toList) fun _ => isPlainAt_archive
  rw [refused] at outcome
  obtain ⟨untouched, placed, -⟩ := outcome
  refine ⟨fun _ => isPlainAt_archive, placed _ _ home_archive (by decide), ?_,
    untouched.unstaged rfl (by decide) _ _ home_archive⟩
  have elsewhere : ∀ k, home? archive (.of "out".toList) = some k →
      ["old.json".toList] ≠ k ++ [stagingName] := by
    intro k home
    obtain rfl := Option.some.inj (home_archive.symm.trans home)
    decide
  obtain same | ⟨absent, -⟩ := untouched.kept _ elsewhere
  · rw [same]
    decide
  · exact absurd absent (by decide)

/-- What is written to a link at the staging place, or to a file that has another name, is written
elsewhere. And a file that is there remains where its path is too long for it to be removed. -/
theorem writeUnder_elsewhere :
    let other : Location := ["other.txt".toList]
    let staging : Location := ["d".toList, stagingName]
    let files (n : Node) : Store :=
      { nodes := [(["d".toList], .directory), (other, .file 0), (staging, n)]
        contents := [(0, { content := [1] })] }
    let linked := files (.link (.of "../other.txt".toList))
    let shared := files (.file 0)
    let left := files (.file 1)
    let winding : Path := ⟨[], (List.replicate 816 ["d".toList, "..".toList]).flatten ++ ["d".toList]⟩
    let cut : Interference := { write := some (0, .denied "full".toList) }
    ((ofResults [] []).writeUnder cut linked (.of "d".toList)).2.stored? other = some (.file {}) ∧
      ((ofResults [] []).writeUnder cut shared (.of "d".toList)).2.stored? other = some (.file {}) ∧
      ((ofResults [] []).write left winding).1.toOption = none ∧
      ((ofResults [] []).write left winding).2.stored? staging = some (.file {}) := by
  decide +kernel

end Index
end PhpGate
