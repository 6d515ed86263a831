import Mathlib.Data.List.Basic
import PhpGate.Command.Run
import PhpGate.Proofs.Validation.Complaint

/-!
What a run of the command says of the files, without an interpreter. It refuses a faulty
configuration without a trace. Else it finds files argument by argument, tells of each invalid one
what is wrong with it, and counts.
-/

namespace PhpGate

open Evaluator

namespace Command

/-- The files among some candidates that something is wrong with, and what that is. -/
def complaints (files : Store) (candidates : List Candidate) : List (Path × Complaint) :=
  candidates.filterMap fun c => (({} : Evaluator).complaint? files c.path).map fun k => (c.path, k)

def resultsOf (files : Store) (candidates : List Candidate) : List ValidationResult :=
  candidates.map fun c => .ofComplaint c (({} : Evaluator).complaint? files c.path)

def countsLine (total valid invalid : Nat) : Text :=
  "files_found=".toList ++ Text.ofNat total ++ " valid=".toList ++ Text.ofNat valid
    ++ " invalid=".toList ++ Text.ofNat invalid

def complaintLine : Path × Complaint → Text
  | (p, k) =>
      "invalid:".toList ++ p.text ++ [':'] ++ Text.ofInt k.line ++ ": ".toList ++ k.kind ++ [' ']
        ++ k.message

/-- The sources that the arguments lead to, argument by argument. -/
def sourcesOf (s : Surroundings) (options : Options) (settings : Settings) :
    Except FileError (List (List Candidate)) :=
  options.paths.mapM fun raw => Candidate.discover s.files (Path.of raw) settings.patterns

/-- A run that is not refused reports on some candidates. -/
structure Reports (s : Surroundings) (options : Options) (settings : Settings)
    (candidates : List Candidate) (code : Nat) (output : List Text) : Prop where
  found : ∃ sources, sourcesOf s options settings = .ok sources ∧ candidates = sources.flatten
  ends : code = 0 ∨ code = 1
  passes : code = 0 ↔ ∀ c ∈ candidates, ({} : Evaluator).Accepts s.files c.path
  /-- What is complained of is just what is not accepted. -/
  complains : ∀ c ∈ candidates,
    ({} : Evaluator).complaint? s.files c.path = none ↔ ({} : Evaluator).Accepts s.files c.path
  output : ∃ valid, valid + (complaints s.files candidates).length = candidates.length ∧
    output = countsLine candidates.length valid (complaints s.files candidates).length
      :: (complaints s.files candidates).map complaintLine
        ++ (if options.summary then summaryLines (resultsOf s.files candidates) else [])

section Results

variable (files : Store) (candidates : List Candidate)

theorem invalidLines_resultsOf :
    ((resultsOf files candidates).filter (!·.isValid)).map invalidLine
      = (complaints files candidates).map complaintLine := by
  induction candidates with
  | nil => rfl
  | cons c candidates ih =>
      rw [resultsOf, complaints, List.map_cons]
      cases wrong : ({} : Evaluator).complaint? files c.path with
      | none =>
          rw [List.filterMap_cons_none (by rw [wrong]; rfl)]
          exact ih
      | some k =>
          rw [List.filterMap_cons_some (b := (c.path, k)) (by rw [wrong]; rfl)]
          exact congrArg (complaintLine (c.path, k) :: ·) ih

theorem valid_add_complaints :
    ((resultsOf files candidates).filter (·.isValid)).length + (complaints files candidates).length
      = candidates.length := by
  have lines := congrArg List.length (invalidLines_resultsOf files candidates)
  rw [List.length_map, List.length_map] at lines
  have parts := List.length_eq_length_filter_add (l := resultsOf files candidates) (·.isValid)
  rw [← lines, ← parts, resultsOf, List.length_map]

theorem countLine_eq (results : List ValidationResult) :
    countLine results = countsLine results.length (results.filter (·.isValid)).length
      (results.length - (results.filter (·.isValid)).length) := by
  delta countLine countsLine
  rfl

theorem countLine_resultsOf :
    countLine (resultsOf files candidates)
      = countsLine candidates.length ((resultsOf files candidates).filter (·.isValid)).length
          (complaints files candidates).length := by
  have counted := valid_add_complaints files candidates
  have total : (resultsOf files candidates).length = candidates.length := List.length_map ..
  rw [countLine_eq, total, ← Nat.eq_sub_of_add_eq' counted]

theorem outputLines_resultsOf (options : Options) :
    outputLines options (resultsOf files candidates)
      = countsLine candidates.length ((resultsOf files candidates).filter (·.isValid)).length
          (complaints files candidates).length
        :: (complaints files candidates).map complaintLine
          ++ (if options.summary then summaryLines (resultsOf files candidates) else []) := by
  rw [outputLines, countLine_resultsOf, invalidLines_resultsOf]

theorem all_isValid_resultsOf :
    (resultsOf files candidates).all (·.isValid) = true ↔
      ∀ c ∈ candidates, ({} : Evaluator).complaint? files c.path = none := by
  simp [resultsOf, ValidationResult.isValid_ofComplaint]

end Results

theorem gather_eq_ok {files : Store} {patterns raws : List Text} {candidates : List Candidate}
    {records : List LogRecord} (gathered : gather files patterns raws = .ok (candidates, records)) :
    ∃ sources, (raws.mapM fun raw => Candidate.discover files (Path.of raw) patterns) = .ok sources ∧
      candidates = sources.flatten := by
  induction raws generalizing candidates records with
  | nil =>
      cases gathered
      exact ⟨[], rfl, rfl⟩
  | cons raw raws ih =>
      rw [gather] at gathered
      rw [List.mapM_cons]
      cases found : Candidate.discover files (Path.of raw) patterns with
      | error e =>
          rw [found] at gathered
          cases gathered
      | ok here =>
          cases rest : gather files patterns raws with
          | error e =>
              rw [found, rest] at gathered
              cases gathered
          | ok others =>
              obtain ⟨others, warnings⟩ := others
              obtain ⟨sources, all, rfl⟩ := ih rest
              rw [found, rest] at gathered
              cases gathered
              exact ⟨here :: sources, by rw [all]; rfl, rfl⟩

section Run

variable {s : Surroundings} {options : Options} {code : Nat}

theorem finish_eq_exit {results : List ValidationResult}
    (ended : (finish s options results).1 = .exit code) :
    code = if results.all (·.isValid) then 0 else 1 := by
  rw [finish] at ended
  split at ended
  · exact (CommandEnding.exit.inj ended).symm
  · split at ended
    · cases ended
    · exact (CommandEnding.exit.inj ended).symm

/-- The code tells whether something is complained of. -/
theorem finish_resultsOf {files : Store} {candidates : List Candidate}
    (ended : (finish s options (resultsOf files candidates)).1 = .exit code) :
    (code = 0 ∨ code = 1) ∧
      (code = 0 ↔ ∀ c ∈ candidates, ({} : Evaluator).complaint? files c.path = none) := by
  have passed := all_isValid_resultsOf files candidates
  rw [finish_eq_exit ended]
  cases all : (resultsOf files candidates).all (·.isValid) with
  | true => exact ⟨.inl rfl, iff_of_true rfl (passed.mp all)⟩
  | false =>
      have failed : ¬ ∀ c ∈ candidates, ({} : Evaluator).complaint? files c.path = none := by
        rw [← passed, all]
        exact Bool.false_ne_true
      exact ⟨.inr rfl, iff_of_false Nat.one_ne_zero failed⟩

theorem checkFiles_eq_exit {threshold : Nat} {settings : Settings}
    (internal : settings.externalEnabled = false)
    (ended : (checkFiles s options threshold settings).ending = .exit code) :
    ∃ candidates, Reports s options settings candidates code
      (checkFiles s options threshold settings).output := by
  have evaluator : evaluatorOf s settings = {} := by rw [evaluatorOf, internal]; rfl
  rw [checkFiles, evaluator] at ended ⊢
  cases gathered : gather s.files settings.patterns options.paths with
  | error e =>
      rw [gathered] at ended
      cases ended
  | ok found =>
      obtain ⟨candidates, warnings⟩ := found
      rw [gathered] at ended
      dsimp only at ended ⊢
      cases validated : Validation.all {} s.files candidates with
      | mk vs breakdown =>
          rw [validated] at ended
          cases breakdown with
          | some b => cases ended
          | none =>
              obtain ⟨results, complains⟩ := Validation.all_eq_none validated
              have same : vs.map (·.result) = resultsOf s.files candidates := results
              dsimp only at ended ⊢
              rw [same] at ended ⊢
              obtain ⟨ends, passes⟩ := finish_resultsOf ended
              exact ⟨candidates, gather_eq_ok gathered, ends, passes.trans (forall₂_congr complains),
                complains, _, valid_add_complaints _ _, outputLines_resultsOf _ _ _⟩

/-- A run that returns a code tells the truth. The code is 2 just when the configuration is faulty,
and then nothing is printed or written. Else the candidates are those of the arguments in order, the
code is 0 just when every one can be read and is accepted, and the output counts them and says what
is wrong with each of the others. -/
theorem run_reports {args : List Text} (understood : Options.ofArguments args = .ok options)
    (internal : ∀ settings, Settings.resolve s.nestingLimit s.files s.environment options.overrides
      = .ok settings → settings.externalEnabled = false)
    (returned : (run s args).ending = .exit code) :
    (code = 2 ↔ ∃ e m, Settings.resolve s.nestingLimit s.files s.environment options.overrides
      = .error e ∧ e.message? = some m) ∧
    (code = 2 → (run s args).output = [] ∧ (run s args).files = s.files ∧ (run s args).runs = []) ∧
    (code ≠ 2 → ∃ settings candidates,
      Settings.resolve s.nestingLimit s.files s.environment options.overrides = .ok settings ∧
        Reports s options settings candidates code (run s args).output) := by
  rw [run, understood] at returned ⊢
  dsimp only at returned ⊢
  rw [runWith] at returned ⊢
  cases level : Threshold.ofName options.logLevel with
  | error fault =>
      rw [level] at returned
      cases returned
  | ok threshold =>
      rw [level] at returned
      dsimp only at returned ⊢
      cases resolved : Settings.resolve s.nestingLimit s.files s.environment options.overrides with
      | ok settings =>
          rw [resolved] at returned
          obtain ⟨candidates, reports⟩ := checkFiles_eq_exit (internal settings resolved) returned
          have other : code ≠ 2 := by
            obtain rfl | rfl := reports.ends <;> decide
          exact ⟨by simp [other], fun two => absurd two other,
            fun _ => ⟨settings, candidates, rfl, reports⟩⟩
      | error e =>
          rw [resolved] at returned
          dsimp only at returned ⊢
          cases message : e.message? with
          | none =>
              rw [message] at returned
              cases returned
          | some m =>
              rw [message] at returned
              cases returned
              exact ⟨by simp [message], fun _ => ⟨rfl, rfl, rfl⟩, fun other => absurd rfl other⟩

/-- A tree with a sound file, an empty one and one that cannot be read, and a machine without an
interpreter. -/
def threeFiles : Surroundings where
  host :=
    { lookup := fun _ => none
      behaviour := fun _ => .cannotStart
      temporaryDirectory := Path.of "/tmp".toList
      temporaryName := "phpcheck.php".toList }
  environment := []
  files :=
    { nodes := [(["a".toList], .file 0), (["b".toList], .file 1), (["c".toList], .file 2)]
      contents :=
        [(0, { content := Text.encode "<?php f();".toList }), (2, { readable := false })] }
  time := []
  nestingLimit := 100

def threeArguments : List Text :=
  ["a", "b", "c", "--no-external"].map String.toList

theorem run_reports_three_files :
    (∃ settings candidates,
      Settings.resolve 100 threeFiles.files [] ⟨none, true, .unset⟩ = .ok settings ∧
        Reports threeFiles { paths := ["a", "b", "c"].map String.toList, noExternal := true }
          settings candidates 1 (run threeFiles threeArguments).output) ∧
    ({} : Evaluator).complaint? threeFiles.files (Path.of "c".toList)
      = some ⟨ValidationResult.readErrorKind,
        "Failed to read c: [Errno 13] Permission denied: 'c'".toList, 0⟩ := by
  have understood : Options.ofArguments threeArguments
      = .ok { paths := ["a", "b", "c"].map String.toList, noExternal := true } := rfl
  have internal (settings : Settings)
      (resolved : Settings.resolve 100 threeFiles.files [] ⟨none, true, .unset⟩ = .ok settings) :
      settings.externalEnabled = false := by
    have defaults : Settings.resolve 100 threeFiles.files [] ⟨none, true, .unset⟩
        = .ok { externalEnabled := false } := rfl
    rw [defaults] at resolved
    cases resolved
    rfl
  have returned : (run threeFiles threeArguments).ending = .exit 1 := by decide +kernel
  exact ⟨(run_reports understood internal returned).2.2 (by decide), by decide +kernel⟩

end Run

end Command
end PhpGate
