import Mathlib.Data.List.Dedup
import PhpGate.Proofs.Validation.Entries

/-!
The totals of an index against its entries. The totals count results and the entries are by path, so
they agree exactly when no path is repeated, given that every invalid result has a kind; the results
of a run have one.
-/

namespace PhpGate

namespace ValidationResult

/-- An invalid result has a kind. -/
def HasKind (r : ValidationResult) : Prop :=
  r.isValid = false → ∃ c k, r.kind = some (c :: k)

end ValidationResult

namespace Validation

variable {evaluator : Evaluator} {files : Store}

theorem hasKind_ofDiagnostic (path fingerprint : Text) (found : Option Diagnostic) :
    (ValidationResult.ofDiagnostic path fingerprint found).HasKind := by
  cases found with
  | none => exact nofun
  | some d =>
      intro _
      cases kind : d.kind <;> exact ⟨_, _, congrArg (some <| ErrorKind.name ·) kind⟩

theorem hasKind_of_candidate {c : Candidate} {v : Validation}
    (validated : ofCandidate evaluator files c = .ok v) : v.result.HasKind := by
  rw [ofCandidate] at validated
  split at validated
  split at validated
  · cases validated
    exact hasKind_ofDiagnostic _ _ _
  · cases validated
  · cases validated
    exact fun _ => ⟨_, _, rfl⟩
  · cases validated

/-- Every invalid result of a run has a kind. -/
theorem hasKind_of_mem_all {candidates : List Candidate} {v : Validation}
    (mem : v ∈ (all evaluator files candidates).1) : v.result.HasKind := by
  induction candidates with
  | nil => cases mem
  | cons c candidates ih =>
      rw [all] at mem
      cases first : ofCandidate evaluator files c with
      | error b =>
          rw [first] at mem
          cases mem
      | ok w =>
          rw [first] at mem
          obtain rfl | later := List.mem_cons.mp mem
          · exact hasKind_of_candidate first
          · exact ih later

end Validation

namespace Index

/-- The numbers that a payload shows, with the entries it lists. -/
structure Totals where
  total : Nat
  valid : Nat
  invalid : Nat
  kinds : List (Text × Nat)
  entries : List (Text × Json)

/-- A payload shows some totals and entries. -/
structure Shows (payload : Json) (t : Totals) : Prop where
  total : payload.field? "total_files".toList = some (.int t.total)
  valid : payload.field? "total_valid".toList = some (.int t.valid)
  invalid : payload.field? "total_invalid".toList = some (.int t.invalid)
  kinds : payload.field? "kinds".toList
    = some (.object (t.kinds.map fun (name, n) => (name, .int n)))
  entries : payload.field? "files".toList = some (.object t.entries)

/-- A field of an entry is a certain text. -/
def fieldIs (key t : Text) (j : Json) : Bool :=
  match j.field? key with
  | some (.string u) => u == t
  | _ => false

def countStatus (status : ResultStatus) (entries : List (Text × Json)) : Nat :=
  entries.countP fun m => fieldIs "status".toList status.name m.2

/-- How many invalid entries there are of a kind. -/
def countKind (kind : Text) (entries : List (Text × Json)) : Nat :=
  entries.countP fun m =>
    fieldIs "status".toList ResultStatus.invalid.name m.2 && fieldIs "kind".toList kind m.2

/-- The totals are those of the entries. -/
structure Totals.CountEntries (t : Totals) : Prop where
  total : t.total = t.valid + t.invalid
  valid : t.valid = countStatus .valid t.entries
  invalid : t.invalid = countStatus .invalid t.entries
  kinds : ∀ kind, (t.kinds.lookup kind).getD 0 = countKind kind t.entries

def totals (index : Index) : Totals :=
  ⟨index.files.length, index.valid, index.invalid, index.kinds, index.shownEntries⟩

theorem shows_totals (index : Index) : Shows index.payload index.totals :=
  ⟨rfl, rfl, rfl, rfl, rfl⟩

section Entry

variable (r : ValidationResult)

theorem fieldIs_status (status : ResultStatus) :
    fieldIs "status".toList status.name (entry r) = (r.status == status) := by
  have field : (entry r).field? "status".toList = some (.string r.status.name) := rfl
  rw [fieldIs, field]
  cases r.status <;> cases status <;> rfl

theorem fieldIs_kind (kind : Text) :
    fieldIs "kind".toList kind (entry r) = (r.kind == some kind) := by
  have field : (entry r).field? "kind".toList = some (r.kind.elim .null .string) := rfl
  rw [fieldIs, field]
  cases r.kind <;> rfl

theorem status_beq_invalid : (r.status == .invalid) = !r.isValid := by
  rw [ValidationResult.isValid]
  cases r.status <;> rfl

end Entry

section Counting

variable (index : Index)

theorem countStatus_valid :
    countStatus .valid index.shownEntries = index.files.countP (·.2.isValid) := by
  rw [countStatus, shownEntries, List.countP_map]
  exact List.countP_congr fun m _ => by rw [Function.comp_apply, fieldIs_status]; rfl

theorem countStatus_invalid :
    countStatus .invalid index.shownEntries = index.files.countP (!·.2.isValid) := by
  rw [countStatus, shownEntries, List.countP_map]
  exact List.countP_congr fun m _ => by
    rw [Function.comp_apply, fieldIs_status, status_beq_invalid]

theorem countKind_eq (kind : Text) : countKind kind index.shownEntries
    = index.files.countP fun m => !m.2.isValid && m.2.kind == some kind := by
  rw [countKind, shownEntries, List.countP_map]
  exact List.countP_congr fun m _ => by
    rw [Function.comp_apply, fieldIs_status, fieldIs_kind, status_beq_invalid]

end Counting

theorem kindOf_eq_of_kind {r : ValidationResult} {c : Char} {k : Text}
    (kind : r.kind = some (c :: k)) : kindOf r = c :: k := by
  rw [kindOf, kind]

theorem kindOf_beq_of_hasKind {r : ValidationResult} (has : r.HasKind) (k : Text) :
    (!r.isValid && kindOf r == k) = (!r.isValid && r.kind == some k) := by
  cases valid : r.isValid with
  | true => rfl
  | false =>
      obtain ⟨c, kind, h⟩ := has valid
      rw [kindOf_eq_of_kind h, h]
      rfl

/-- The kinds are counted rightly only if no result without a kind is counted with the unknown. -/
theorem hasKind_of_countP_eq {results : List ValidationResult}
    (counts : results.countP (fun r => !r.isValid && r.kind == some unknownKind)
      = results.countP fun r => !r.isValid && kindOf r == unknownKind) :
    ∀ r ∈ results, r.HasKind := by
  have named (r : ValidationResult) (h : (!r.isValid && r.kind == some unknownKind) = true) :
      (!r.isValid && kindOf r == unknownKind) = true := by
    rw [Bool.and_eq_true, beq_iff_eq] at h
    rw [h.1, kindOf_eq_of_kind h.2]
    rfl
  rw [List.countP_eq_length_filter, List.countP_eq_length_filter] at counts
  have same := (List.monotone_filter_right results named).eq_of_length counts
  intro r mem invalid
  have counted : kindOf r = unknownKind → r.kind = some unknownKind := by
    intro unknown
    have mem' : r ∈ results.filter fun r => !r.isValid && kindOf r == unknownKind :=
      List.mem_filter.mpr ⟨mem, by rw [invalid, unknown]; rfl⟩
    rw [← same, List.mem_filter, Bool.and_eq_true, beq_iff_eq] at mem'
    exact mem'.2.2
  cases kind : r.kind with
  | none =>
      rw [kind] at counted
      cases counted (by rw [kindOf, kind])
  | some k =>
      cases k with
      | nil =>
          rw [kind] at counted
          cases counted (by rw [kindOf, kind])
      | cons c k => exact ⟨c, k, rfl⟩

theorem lookup_foldl_insertKey (names : List Text) (counts : List (Text × Nat)) (k : Text) :
    ((names.foldl (fun counts name => insertKey name ((counts.lookup name).getD 0 + 1) counts)
      counts).lookup k).getD 0 = (counts.lookup k).getD 0 + names.count k := by
  induction names generalizing counts with
  | nil => rfl
  | cons name names ih =>
      rw [List.foldl_cons, ih, lookup_insertKey, List.count_cons]
      by_cases same : k = name
      · rw [if_pos same, same, if_pos (beq_self_eq_true name), Option.getD_some]
        omega
      · rw [if_neg same, if_neg (by simpa using Ne.symm same), Nat.add_zero]

theorem lookup_tally (names : List Text) (k : Text) :
    ((tally names).lookup k).getD 0 = names.count k :=
  (lookup_foldl_insertKey names [] k).trans (Nat.zero_add _)

section Results

variable (builtAt : Text) (results : List ValidationResult)

theorem valid_ofResults : (ofResults builtAt results).valid = results.countP (·.isValid) := by
  rw [ofResults, ← List.countP_eq_length_filter, (sorted_perm results).countP_eq]

theorem invalid_ofResults : (ofResults builtAt results).invalid = results.countP (!·.isValid) := by
  rw [← (sorted_perm results).countP_eq, List.countP_eq_length_filter]
  rfl

theorem lookup_kinds_ofResults (k : Text) : ((ofResults builtAt results).kinds.lookup k).getD 0
    = results.countP fun r => !r.isValid && kindOf r == k := by
  have unique :
      (((tally (((sorted results).filter (!·.isValid)).map kindOf))).map Prod.fst).Nodup :=
    nodup_keys_foldl (fun _ _ unique => nodup_keys_insertKey unique) _ List.nodup_nil
  rw [ofResults, lookup_eq_of_perm unique (sortKeys_perm _).symm, lookup_tally, List.count,
    List.countP_map, List.countP_filter, (sorted_perm results).countP_eq]
  exact List.countP_congr fun r _ => by rw [Function.comp_apply, Bool.and_comm]

theorem length_files_ofResults :
    (ofResults builtAt results).files.length = (results.map (·.path)).dedup.length := by
  rw [files_ofResults, ← List.length_map Prod.fst]
  apply List.Perm.length_eq
  rw [List.perm_ext_iff_of_nodup nodup_keys_entriesOf (List.nodup_dedup _)]
  intro k
  rw [mem_keys_entriesOf_iff, List.mem_dedup, ((sorted_perm results).map _).mem_iff]

variable {results} in
theorem files_ofResults_perm (unique : (results.map (·.path)).Nodup) :
    (ofResults builtAt results).files.Perm (results.map fun r => (r.path, r)) := by
  rw [files_ofResults, entriesOf_of_nodup (((sorted_perm results).map _).nodup_iff.mpr unique)]
  exact (sorted_perm results).map _

theorem valid_add_invalid_ofResults :
    (ofResults builtAt results).valid + (ofResults builtAt results).invalid = results.length := by
  rw [valid_ofResults, invalid_ofResults, List.length_eq_countP_add_countP (·.isValid)]
  simp

/-- There are as many entries as valid and invalid results just when no path is repeated. -/
theorem total_eq_iff_nodup : (ofResults builtAt results).files.length
    = (ofResults builtAt results).valid + (ofResults builtAt results).invalid ↔
      (results.map (·.path)).Nodup := by
  have length : (results.map (·.path)).length = results.length := List.length_map _
  rw [length_files_ofResults, valid_add_invalid_ofResults, ← length, ← List.dedup_eq_self]
  exact ⟨(List.dedup_sublist _).eq_of_length, congrArg List.length⟩

variable {results} in
theorem countEntries_totals_of_nodup (unique : (results.map (·.path)).Nodup)
    (kinds : ∀ r ∈ results, r.HasKind) : (ofResults builtAt results).totals.CountEntries where
  total := (total_eq_iff_nodup builtAt results).mpr unique
  valid := by
    rw [totals, countStatus_valid, (files_ofResults_perm builtAt unique).countP_eq, List.countP_map]
    exact valid_ofResults builtAt results
  invalid := by
    rw [totals, countStatus_invalid, (files_ofResults_perm builtAt unique).countP_eq,
      List.countP_map]
    exact invalid_ofResults builtAt results
  kinds kind := by
    rw [totals, countKind_eq, (files_ofResults_perm builtAt unique).countP_eq, List.countP_map,
      lookup_kinds_ofResults]
    exact List.countP_congr fun r mem => by
      rw [kindOf_beq_of_hasKind (kinds r mem), Function.comp_apply]

theorem countEntries_totals_iff : (ofResults builtAt results).totals.CountEntries ↔
    (results.map (·.path)).Nodup ∧ ∀ r ∈ results, r.HasKind := by
  refine ⟨fun counted => ?_, fun h => countEntries_totals_of_nodup builtAt h.1 h.2⟩
  have unique := (total_eq_iff_nodup builtAt results).mp counted.total
  refine ⟨unique, hasKind_of_countP_eq ?_⟩
  have counts := counted.kinds unknownKind
  rw [totals, countKind_eq, (files_ofResults_perm builtAt unique).countP_eq, List.countP_map,
    lookup_kinds_ofResults] at counts
  exact counts.symm

end Results

/-- The totals that a payload shows are those of its entries just when no path is repeated and every
invalid result has a kind. Of the results of a run only the paths matter. -/
theorem payload_countEntries_iff (builtAt : Text) (results : List ValidationResult) :
    ∃ t, Shows (ofResults builtAt results).payload t ∧
      (t.CountEntries ↔ (results.map (·.path)).Nodup ∧ ∀ r ∈ results, r.HasKind) ∧
      ∀ evaluator files candidates,
        results = (Validation.all evaluator files candidates).1.map (·.result) →
          (t.CountEntries ↔ (results.map (·.path)).Nodup) := by
  refine ⟨_, shows_totals _, countEntries_totals_iff builtAt results, ?_⟩
  rintro evaluator files candidates rfl
  rw [countEntries_totals_iff]
  refine and_iff_left fun r mem => ?_
  obtain ⟨v, validated, rfl⟩ := List.mem_map.mp mem
  exact Validation.hasKind_of_mem_all validated

/-- One file that was found twice is one entry and two valid results. -/
theorem not_countEntries_repeated :
    let r : ValidationResult := ⟨"a.php".toList, "1".toList, .valid, none, none, none⟩
    ∃ t, Shows (ofResults [] [r, r]).payload t ∧ t.total = 1 ∧ t.valid = 2 ∧ ¬ t.CountEntries := by
  intro r
  have repeated : ¬ ([r, r].map (·.path)).Nodup := by decide
  refine ⟨_, shows_totals _, length_files_ofResults [] [r, r], valid_ofResults [] [r, r], ?_⟩
  exact fun counted => repeated ((total_eq_iff_nodup [] [r, r]).mp counted.total)

end Index
end PhpGate
