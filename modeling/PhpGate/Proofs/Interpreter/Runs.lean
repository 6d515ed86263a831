import PhpGate.Interpreter.Check

/-!
Which programs a series runs and how it ends. The first program that accepts the source or runs out
of time decides; if there is none, the last one that could be started speaks for all.
-/

namespace PhpGate

namespace Behaviour

/-- No program is tried after this one. -/
def isDecisive : Behaviour → Bool
  | exits code _ => code == 0
  | timesOut => true
  | cannotStart => false

def output? : Behaviour → Option OutputTemplate
  | exits _ output => some output
  | _ => none

end Behaviour

namespace Interpreter

variable (host : Host) (seen : Option Bytes)

/-- The programs up to the first one that decides, or all of them if none does. -/
def tried (binaries : List Text) : List Text :=
  binaries.take (binaries.findIdx (fun binary => (host.behaviour binary).isDecisive) + 1)

def runOf (binary : Text) : Run :=
  ⟨binary, seen, host.behaviour binary⟩

/-- The verdict of a program that decides. -/
def verdictOf : Behaviour → Verdict
  | .timesOut => .timedOut
  | _ => .accepted

/-- What the last of some programs that could be started has said. -/
def lastOutput? (binaries : List Text) : Option OutputTemplate :=
  (binaries.filterMap fun binary => (host.behaviour binary).output?).getLast?

/-- One program is run, and it decides or leaves the decision to the next ones. -/
theorem runAll_cons (last : Option OutputTemplate) (binary : Text) (rest : List Text) :
    runAll host seen last (binary :: rest)
      = if (host.behaviour binary).isDecisive then
          ([runOf host seen binary], verdictOf (host.behaviour binary))
        else
          let later := runAll host seen ((host.behaviour binary).output?.or last) rest
          (runOf host seen binary :: later.1, later.2) := by
  rw [runAll, runOf]
  cases host.behaviour binary with
  | timesOut | cannotStart => rfl
  | exits code output =>
      by_cases accepts : code = 0
      · simp [accepts, Behaviour.isDecisive, verdictOf]
      · simp [accepts, Behaviour.isDecisive, Behaviour.output?]

theorem runAll_runs (last : Option OutputTemplate) (binaries : List Text) :
    (runAll host seen last binaries).1 = (tried host binaries).map (runOf host seen) := by
  induction binaries generalizing last with
  | nil => rfl
  | cons binary rest ih =>
      rw [tried, List.findIdx_cons, List.take_succ_cons, List.map_cons, runAll_cons]
      cases (host.behaviour binary).isDecisive with
      | true => rfl
      | false => exact congrArg _ (ih _)

theorem lastOutput_cons_or (binary : Text) (rest : List Text) (last : Option OutputTemplate) :
    (lastOutput? host (binary :: rest)).or last
      = (lastOutput? host rest).or ((host.behaviour binary).output?.or last) := by
  simp only [lastOutput?, List.filterMap_cons]
  cases (host.behaviour binary).output? with
  | none => rfl
  | some output =>
      rw [List.getLast?_cons]
      cases (rest.filterMap fun binary => (host.behaviour binary).output?).getLast? <;> rfl

theorem runAll_verdict (last : Option OutputTemplate) (binaries : List Text) :
    (runAll host seen last binaries).2
      = match (binaries.map host.behaviour).find? Behaviour.isDecisive with
        | some behaviour => verdictOf behaviour
        | none => ((lastOutput? host binaries).or last).elim .noneStarted .refused := by
  induction binaries generalizing last with
  | nil => rfl
  | cons binary rest ih =>
      rw [lastOutput_cons_or, List.map_cons, List.find?_cons, runAll_cons]
      cases (host.behaviour binary).isDecisive with
      | true => rfl
      | false => exact ih _

/-- A series of runs ends in a refusal when no program decides and one at least could be started. -/
theorem runAll_refused_iff {binaries : List Text} {output : OutputTemplate} :
    (runAll host seen none binaries).2 = .refused output ↔
      (∀ binary ∈ binaries, (host.behaviour binary).isDecisive = false) ∧
        lastOutput? host binaries = some output := by
  rw [runAll_verdict, Option.or_none]
  cases decided : (binaries.map host.behaviour).find? Behaviour.isDecisive with
  | some behaviour =>
      have mem := List.mem_of_find?_eq_some decided
      have decides : behaviour.isDecisive = true := List.find?_some decided
      obtain ⟨binary, listed, rfl⟩ := List.mem_map.mp mem
      refine iff_of_false ?_ ?_
      · dsimp only
        cases host.behaviour binary <;> exact nofun
      · rintro ⟨undecided, -⟩
        rw [undecided binary listed] at decides
        cases decides
  | none =>
      have undecided : ∀ binary ∈ binaries, (host.behaviour binary).isDecisive = false := by
        simpa using decided
      rw [and_iff_right undecided]
      cases lastOutput? host binaries <;> simp

end Interpreter
end PhpGate
