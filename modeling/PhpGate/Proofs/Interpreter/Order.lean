import PhpGate.Proofs.Evaluation.Answered

/-!
How the order of the programs decides an answer. They are run up to the first one that accepts the
source or runs out of time, and this one decides. If there is none, the source is rejected with the
report of the last program that could be started.
-/

namespace PhpGate

open Text

theorem Behaviour.eq_cannotStart {behaviour : Behaviour} (undecided : behaviour.isDecisive = false)
    (silent : behaviour.output? = none) : behaviour = .cannotStart := by
  cases behaviour with
  | exits => cases silent
  | timesOut => cases undecided
  | cannotStart => rfl

namespace Interpreter

variable {host : Host} {settings : InterpreterSettings} {path : Text}
  {file : Option Text} {binaries front back : List Text} {binary : Text}

/-- No program of a list accepts the source or runs out of time. -/
def Undecided (host : Host) (binaries : List Text) : Prop :=
  ∀ binary ∈ binaries, (host.behaviour binary).isDecisive = false

/-- No program of a list can be started. -/
def Unstarted (host : Host) (binaries : List Text) : Prop :=
  ∀ binary ∈ binaries, host.behaviour binary = .cannotStart

/-- The answer that some programs call for by what they do, in their order. -/
inductive Settles (host : Host) (settings : InterpreterSettings) (path : Text)
    (file : Option Text) : List Text → Except CheckError Bool → Prop
  | accepts {front back : List Text} {binary : Text} {output : OutputTemplate}
      (undecided : Undecided host front) (accepted : host.behaviour binary = .exits 0 output) :
      Settles host settings path file (front ++ binary :: back) (.ok true)
  | timesOut {front back : List Text} {binary : Text}
      (undecided : Undecided host front) (late : host.behaviour binary = .timesOut) :
      Settles host settings path file (front ++ binary :: back)
        (.error (.rejected { Rejection.of .parse (timeoutMessage settings.timeout) file 0 with
          timedOut := true, cause := some .timeout }))
  | noneStarts {binaries : List Text} (unstarted : Unstarted host binaries) :
      Settles host settings path file binaries
        (.error (.unavailable Unavailability.noneStarted.message))
  | refuses {front back : List Text} {binary : Text} {code : Int} {output : OutputTemplate}
      {report : LintReport} (undecided : Undecided host front)
      (refused : host.behaviour binary = .exits code output) (failed : code ≠ 0)
      (unstarted : Unstarted host back)
      (read : LintReport.read? path (output.fill path) = some report) :
      Settles host settings path file (front ++ binary :: back)
        (.error (.rejected (Rejection.of .parse report.message file report.line)))

theorem Unstarted.undecided (unstarted : Unstarted host binaries) : Undecided host binaries := by
  intro binary listed
  rw [unstarted binary listed]
  rfl

theorem Unstarted.lastOutput (unstarted : Unstarted host binaries) :
    lastOutput? host binaries = none := by
  have none : (binaries.filterMap fun binary => (host.behaviour binary).output?) = [] := by
    rw [List.filterMap_eq_nil_iff]
    intro binary listed
    rw [unstarted binary listed]
    rfl
  rw [lastOutput?, none]
  rfl

/-- Programs that do not decide are run one by one and leave the decision to the next ones. -/
theorem runAll_undecided (undecided : Undecided host front) (seen : Option Bytes)
    (last : Option OutputTemplate) (rest : List Text) :
    runAll host seen last (front ++ rest)
      = (front.map (runOf host seen)
          ++ (runAll host seen ((lastOutput? host front).or last) rest).1,
        (runAll host seen ((lastOutput? host front).or last) rest).2) := by
  induction front generalizing last with
  | nil => rfl
  | cons binary front ih =>
      have later : Undecided host front := fun b listed => undecided b (.tail _ listed)
      have first : (host.behaviour binary).isDecisive = false := undecided binary (.head _)
      rw [lastOutput_cons_or, List.cons_append, runAll_cons, first, ih later]
      rfl

theorem Settles.eq_conclude {answer : Except CheckError Bool}
    (settles : Settles host settings path file binaries answer) (seen : Option Bytes) :
    answer = conclude settings path file (runAll host seen none binaries).2 := by
  cases settles with
  | accepts undecided accepted =>
      rw [runAll_undecided undecided, runAll]
      simp only [accepted, if_true]
      rfl
  | timesOut undecided late =>
      rw [runAll_undecided undecided, runAll]
      simp only [late]
      rfl
  | noneStarts unstarted =>
      have all := runAll_undecided unstarted.undecided seen none []
      rw [List.append_nil] at all
      rw [all, unstarted.lastOutput]
      rfl
  | @refuses front back binary code output report undecided refused failed unstarted read =>
      have later := runAll_undecided unstarted.undecided seen (some output) []
      rw [List.append_nil, unstarted.lastOutput] at later
      rw [runAll_undecided undecided, runAll]
      simp only [refused, failed, if_false]
      rw [later]
      simp only [runAll, Option.none_or, Option.elim_some, conclude, read]

theorem Settles.ne_unreadableNumber {answer : Except CheckError Bool}
    (settles : Settles host settings path file binaries answer) :
    answer ≠ .error .unreadableNumber := by
  cases settles <;> exact nofun

theorem Undecided.unstarted (undecided : Undecided host binaries)
    (silent : ∀ binary ∈ binaries, (host.behaviour binary).output? = none) :
    Unstarted host binaries := fun binary listed =>
  Behaviour.eq_cannotStart (undecided binary listed) (silent binary listed)

/-- Some program decides first. -/
theorem exists_first_decisive (decided : ¬ Undecided host binaries) :
    ∃ front binary back, binaries = front ++ binary :: back ∧ Undecided host front ∧
      (host.behaviour binary).isDecisive = true := by
  cases first : binaries.find? fun binary => (host.behaviour binary).isDecisive with
  | none =>
      refine absurd (fun binary listed => ?_) decided
      simpa using List.find?_eq_none.mp first binary listed
  | some binary =>
      obtain ⟨decisive, front, back, split, undecided⟩ := List.find?_eq_some_iff_append.mp first
      exact ⟨front, binary, back, split, by simpa [Undecided] using undecided, decisive⟩

/-- Some program is the last one that could be started. -/
theorem exists_last_started {output : OutputTemplate} (undecided : Undecided host binaries)
    (last : lastOutput? host binaries = some output) :
    ∃ front binary back code, binaries = front ++ binary :: back ∧ Undecided host front ∧
      host.behaviour binary = .exits code output ∧ code ≠ 0 ∧ Unstarted host back := by
  obtain ⟨outputs, outputs_eq⟩ := List.getLast?_eq_some_iff.mp last
  obtain ⟨front, rest, rfl, -, last⟩ := List.filterMap_eq_append_iff.mp outputs_eq
  obtain ⟨silent, binary, back, rfl, -, said, nothing⟩ := List.filterMap_eq_cons_iff.mp last
  rw [List.filterMap_eq_nil_iff] at nothing
  have part : ∀ b ∈ back, b ∈ front ++ (silent ++ binary :: back) := by simp +contextual
  have own := undecided binary (by simp)
  cases does : host.behaviour binary with
  | timesOut | cannotStart =>
      rw [does] at said
      cases said
  | exits code out =>
      rw [does] at said own
      obtain rfl : out = output := Option.some.inj said
      refine ⟨front ++ silent, binary, back, code, by simp, fun b listed => undecided b ?_, does,
        ne_of_beq_false own, Undecided.unstarted (fun b listed => undecided b (part b listed))
          nothing⟩
      rw [← List.append_assoc]
      exact List.mem_append_left _ listed

/-- Some programs settle an answer unless the line number in the report of the last one cannot be
read. -/
theorem exists_settles {seen : Option Bytes}
    (readable : conclude settings path file (runAll host seen none binaries).2
      ≠ .error .unreadableNumber) :
    ∃ answer, Settles host settings path file binaries answer := by
  by_cases undecided : Undecided host binaries
  · cases last : lastOutput? host binaries with
    | none =>
        rw [lastOutput?, List.getLast?_eq_none_iff, List.filterMap_eq_nil_iff] at last
        exact ⟨_, .noneStarts (undecided.unstarted last)⟩
    | some output =>
        rw [(runAll_refused_iff host seen).mpr ⟨undecided, last⟩, conclude] at readable
        cases read : LintReport.read? path (output.fill path) with
        | none =>
            rw [read] at readable
            exact absurd rfl readable
        | some report =>
            obtain ⟨front, binary, back, code, rfl, before, refused, failed, unstarted⟩ :=
              exists_last_started undecided last
            exact ⟨_, .refuses before refused failed unstarted read⟩
  · obtain ⟨front, binary, back, rfl, before, decisive⟩ := exists_first_decisive undecided
    cases does : host.behaviour binary with
    | exits code output =>
        rw [does] at decisive
        obtain rfl : code = 0 := eq_of_beq decisive
        exact ⟨_, .accepts before does⟩
    | timesOut => exact ⟨_, .timesOut before does⟩
    | cannotStart =>
        rw [does] at decisive
        cases decisive

/-- The programs are run in their order up to the first one that decides. What they do settles the
answer, unless none decides and the last one that could be started gives the line of its first
message with more digits than can be read. -/
theorem settles_conclude (host : Host) (seen : Option Bytes) (settings : InterpreterSettings)
    (path : Text) (file : Option Text) (binaries : List Text) :
    let series := runAll host seen none binaries
    let answer := conclude settings path file series.2
    series.1 = (tried host binaries).map (runOf host seen) ∧
      (∀ other, Settles host settings path file binaries other → other = answer) ∧
      (Settles host settings path file binaries answer ↔
        ¬ (Undecided host binaries ∧ ∃ output digits, lastOutput? host binaries = some output ∧
          LintReport.NumbersLine (LintReport.firstLine (output.fill path)) digits ∧
          digitLimit < digits.length)) := by
  intro series answer
  refine ⟨runAll_runs host seen none binaries, fun other settles => settles.eq_conclude seen, ?_⟩
  have unreadable : answer = .error .unreadableNumber ↔ Undecided host binaries ∧
      ∃ output digits, lastOutput? host binaries = some output ∧
        LintReport.NumbersLine (LintReport.firstLine (output.fill path)) digits ∧
        digitLimit < digits.length := by
    simp only [answer, series, conclude_eq_unreadableNumber_iff, runAll_refused_iff, Undecided]
    constructor
    · rintro ⟨output, digits, ⟨undecided, last⟩, numbers, long⟩
      exact ⟨undecided, output, digits, last, numbers, long⟩
    · rintro ⟨undecided, output, digits, last, numbers, long⟩
      exact ⟨output, digits, ⟨undecided, last⟩, numbers, long⟩
  rw [← unreadable]
  constructor
  · exact Settles.ne_unreadableNumber
  · intro readable
    obtain ⟨other, settles⟩ := exists_settles readable
    rwa [settles.eq_conclude seen] at settles

/-- A program that gives the line with too many digits settles nothing. -/
theorem not_settles_longDigits :
    let settings : InterpreterSettings := ⟨none, "/usr/bin/php".toList, .ofInt 10, none⟩
    let path := "/tmp/phpcheck.php".toList
    let file := some "a.php".toList
    ¬ Settles Evaluator.refusingHost settings path file ["/b/php".toList]
      (conclude settings path file
        (runAll Evaluator.refusingHost (some (encode "<?php f();".toList)) none
          ["/b/php".toList]).2) := by
  intro settings path file settles
  have output : OutputTemplate.fill path [.words ("on line ".toList ++ Evaluator.longDigits)]
      = "on line ".toList ++ Evaluator.longDigits := by
    rw [OutputTemplate.fill, List.flatMap_singleton]
  have unread : conclude settings path file
      (runAll Evaluator.refusingHost (some (encode "<?php f();".toList)) none ["/b/php".toList]).2
      = .error .unreadableNumber := by
    rw [conclude_eq_unreadableNumber_iff]
    refine ⟨[.words ("on line ".toList ++ Evaluator.longDigits)], Evaluator.longDigits, rfl, ?_, ?_⟩
    · rw [output]
      exact Evaluator.numbersLine_longDigits
    · rw [Evaluator.longDigits, List.length_replicate]
      exact Nat.lt_succ_self _
  exact settles.ne_unreadableNumber unread

end Interpreter
end PhpGate
