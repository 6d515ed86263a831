import PhpGate.Proofs.Files.Change
import PhpGate.Proofs.Interpreter.Runs

/-!
The temporary file of a check. It is made where nothing stands, every program finds the source in it,
and when the check is over all files are as they were, whatever the answer. Only a source with a
surrogate, which cannot be written, leaves its file behind.
-/

namespace PhpGate

open Text

namespace Store

variable {files made : Store} {path : Path} {l : Location}

/-- A store that differs from another one by a file at one location. -/
structure IsExtendedAt (files made : Store) (path : Path) (l : Location) (content : Bytes) : Prop where
  located : made.locateEntry path = .ok l
  absent : files.node? l = none
  stands : ∃ id, made.node? l = some (.file id) ∧ made.data id = { content }
  kept : ∀ m, m ≠ l → made.stored? m = files.stored? m
  single : ∀ m id, made.node? l = some (.file id) → made.node? m = some (.file id) → m = l
  start : made.workingDirectory = files.workingDirectory

theorem isExtendedAt_of_create (created : files.create path = .ok made) :
    ∃ l, files.locateEntry path = .ok l ∧ IsExtendedAt files made path l [] := by
  obtain ⟨l, located, absent, rfl⟩ := create_eq_ok_iff.mp created
  have below := below_root_of_absent absent
  have new : (files.addFile l []).node? l = some (.file files.freshId) := node_addFile_self below
  refine ⟨l, located, (KeepsWays.of_addFile absent).locateBy located, absent,
    ⟨_, new, data_setData_self⟩, fun _ => entry_addFile_ne, ?_, rfl⟩
  exact fun m id => eq_of_node_addFile below

namespace IsExtendedAt

variable {content bytes : Bytes} (extended : IsExtendedAt files made path l content)
include extended

theorem locate : made.locate path = .ok l := by
  obtain ⟨id, stands, -⟩ := extended.stands
  refine locate_of_locateEntry extended.located ?_
  rw [link?, stands]

theorem read : made.read path = .ok content := by
  obtain ⟨id, stands, data⟩ := extended.stands
  refine read_eq_ok_iff.mpr ⟨{ content }, find_eq_ok_iff.mpr ⟨l, extended.locate, ?_⟩, rfl, rfl⟩
  exact entry_eq_file_iff.mpr ⟨id, stands, data⟩

/-- The new file can be written. -/
theorem write (bytes : Bytes) :
    ∃ written, made.write path bytes = .ok written ∧ IsExtendedAt files written path l bytes := by
  obtain ⟨id, stands, data⟩ := extended.stands
  have wrote : made.write path bytes = .ok _ :=
    write_of_file extended.locate stands (by rw [data])
  rw [data] at wrote
  refine ⟨_, wrote, KeepsWays.of_setData.locateBy extended.located, extended.absent,
    ⟨id, stands, data_setData_self⟩, fun m other => ?_, extended.single, extended.start⟩
  rw [entry_setData_ne fun stands' => other (extended.single m id stands stands')]
  exact extended.kept m other

/-- Once the new file is removed, everything is as before. -/
theorem remove : ∃ after, made.remove path = .ok after ∧
    after.workingDirectory = files.workingDirectory ∧ ∀ m, after.stored? m = files.stored? m := by
  obtain ⟨id, stands, -⟩ := extended.stands
  refine ⟨_, remove_of_file extended.located stands, extended.start, fun m => ?_⟩
  by_cases here : m = l
  · subst here
    rw [entry_eq_none_iff.mpr extended.absent, entry_eq_none_iff]
    exact node_removeNode_self (below_root_of_absent extended.absent)
  · rw [entry_removeNode_ne here, extended.kept m here]

end IsExtendedAt

end Store

namespace Interpreter

variable {host : Host} {settings : InterpreterSettings} {files made : Store}
  {content : Option Bytes} {bytes : Bytes}

/-- A check without a temporary file runs no program and leaves the files alone. -/
theorem checkBytes_of_unmade (content : Option Bytes) (file : Option Text)
    (unmade : candidates host settings = [] ∨
      ∃ error, files.create (temporaryPath host settings files) = .error error) :
    let outcome := checkBytes host settings files content file
    outcome.runs = [] ∧ outcome.path = none ∧ outcome.files = files := by
  intro outcome
  cases found : candidates host settings with
  | nil => simp [outcome, checkBytes, found]
  | cons binary rest =>
      obtain none | ⟨error, failed⟩ := unmade
      · rw [found] at none
        cases none
      · simp [outcome, checkBytes, found, failed]

section Made

variable (file : Option Text) (found : candidates host settings ≠ [])
  (created : files.create (temporaryPath host settings files) = .ok made)
include found created

/-- A source that has no bytes leaves an empty file. -/
theorem checkBytes_none : checkBytes host settings files none file
    = { answer := .error .unencodable, path := temporaryPath host settings files, files := made } := by
  rw [checkBytes]
  cases listed : candidates host settings with
  | nil => exact absurd listed found
  | cons binary rest => simp only [created]

/-- Programs are run on a file with the source, unless the writing fails, and the files are left as
they were. -/
theorem checkBytes_some (bytes : Bytes) :
    let path := temporaryPath host settings files
    let outcome := checkBytes host settings files (some bytes) file
    outcome.path = some path ∧
      (outcome.runs = if host.writeFailure.isSome then [] else
        (tried host (candidates host settings)).map (runOf host (some bytes))) ∧
      (outcome.answer = match host.writeFailure with
        | some e => .error (.unavailable (Unavailability.unwritten e).message)
        | none => conclude settings path.text file
            (runAll host (some bytes) none (candidates host settings)).2) ∧
      outcome.files.workingDirectory = files.workingDirectory ∧
      ∀ m, outcome.files.stored? m = files.stored? m := by
  intro path outcome
  obtain ⟨l, -, extended⟩ := Store.isExtendedAt_of_create created
  obtain ⟨written, wrote, extended'⟩ := extended.write bytes
  have runs := runAll_runs host (some bytes) none (candidates host settings)
  cases listed : candidates host settings with
  | nil => exact absurd listed found
  | cons binary rest =>
      rw [listed] at runs
      cases failure : host.writeFailure with
      | some e =>
          obtain ⟨after, removed, start, same⟩ := extended.remove
          simp only [outcome, checkBytes, listed, created, failure, Option.elim_some, removed]
          exact ⟨rfl, rfl, trivial, start, same⟩
      | none =>
          obtain ⟨after, removed, start, same⟩ := extended'.remove
          simp only [outcome, checkBytes, listed, created, failure, Option.elim_none, wrote,
            extended'.read, removed]
          exact ⟨rfl, runs, rfl, start, same⟩

end Made

/-- A file is made where nothing stands, unless there is no program or it cannot be made, and every
program that is tried finds the source in it. After a check everything is as it was, unless the source
holds a surrogate: then the file that was made is still there. -/
theorem checkCodes_restores_files_iff (host : Host) (settings : InterpreterSettings) (files : Store)
    (content : Codes) (file : Option Text) :
    let path := temporaryPath host settings files
    let outcome := checkCodes host settings files content file
    (∀ run ∈ outcome.runs, ∃ t, content.text? = some t ∧ run.seen = some (encode t)) ∧
      ((candidates host settings = [] ∨ ∃ error, files.create path = .error error) ∧
          outcome.path = none ∧ outcome.runs = [] ∧ outcome.files = files ∨
        outcome.path = some path ∧
          ∃ l, files.locateEntry path = .ok l ∧ files.stored? l = none ∧
            (outcome.files.stored? l = none ↔ content.any Codes.isSurrogate = false) ∧
            outcome.files.workingDirectory = files.workingDirectory ∧
            ∀ m, m ≠ l → outcome.files.stored? m = files.stored? m) := by
  intro path outcome
  by_cases unmade : candidates host settings = [] ∨ ∃ error, files.create path = .error error
  · obtain ⟨none, absent, same⟩ :=
      checkBytes_of_unmade (content.text?.map encode) file unmade
    refine ⟨fun run mem => ?_, .inl ⟨unmade, absent, none, same⟩⟩
    rw [show outcome.runs = [] from none] at mem
    cases mem
  · rw [not_or] at unmade
    obtain ⟨found, unfailed⟩ := unmade
    cases created : files.create path with
    | error error => exact absurd ⟨error, created⟩ unfailed
    | ok made =>
        obtain ⟨l, located, extended⟩ := Store.isExtendedAt_of_create created
        have absent := Store.entry_eq_none_iff.mpr extended.absent
        cases surrogates : content.any Codes.isSurrogate with
        | true =>
            have unread : content.text? = none := by rw [Codes.text?, surrogates, if_pos rfl]
            have left := checkBytes_none file found created
            rw [← Option.map_none (f := encode), ← unread, ← checkCodes] at left
            obtain ⟨id, stands, -⟩ := extended.stands
            simp only [outcome, left]
            refine ⟨nofun, .inr ⟨rfl, l, located, absent, iff_of_false ?_ nofun, extended.start,
              extended.kept⟩⟩
            rw [Store.entry_eq_none_iff, stands]
            exact nofun
        | false =>
            have text : content.text? = some (content.map Char.ofNat) := by
              rw [Codes.text?, surrogates, if_neg Bool.false_ne_true]
            have left := checkBytes_some file found created (encode (content.map Char.ofNat))
            rw [← Option.map_some (f := encode), ← text, ← checkCodes] at left
            obtain ⟨path', runs, -, start, same⟩ := left
            refine ⟨fun run mem => ⟨_, text, ?_⟩, .inr ⟨path', l, located, absent,
              iff_of_true ((same l).trans absent) rfl, start, fun m _ => same m⟩⟩
            rw [runs] at mem
            split at mem
            · cases mem
            · obtain ⟨binary, -, rfl⟩ := List.mem_map.mp mem
              simp [runOf, text]

/-- The temporary file of a source with a surrogate in a string stays. -/
theorem checkCodes_leaves_file :
    let host : Host :=
      { lookup := fun name => if name = "php".toList then some "/b/php".toList else none
        behaviour := fun _ => .exits 0 []
        temporaryDirectory := .of "/tmp".toList
        temporaryName := "phpcheck.php".toList }
    let files : Store := { nodes := [(["tmp".toList], .directory)] }
    let content := Codes.ofText "<?php $a = '".toList ++ [0xd800] ++ Codes.ofText "';".toList
    let outcome := checkCodes host ⟨none, "/usr/bin/php".toList, .ofInt 10, none⟩ files content none
    outcome.answer = .error .unencodable ∧
      files.stored? ["tmp".toList, "phpcheck.php".toList] = none ∧
      outcome.files.stored? ["tmp".toList, "phpcheck.php".toList] = some (.file {}) :=
  ⟨rfl, by decide, by decide⟩

end Interpreter
end PhpGate
