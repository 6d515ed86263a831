import PhpGate.Text.Basic

/-!
Scopes within which diagnostics may be held back. Global are the level up to which log records are
dropped, the filters that warnings pass, and the place where these go then. A scope saves all three
when it is entered and puts them back when it is left; one that suppresses drops records up to the
critical level, lets every warning pass and collects them itself. The warnings here all come from
one line of one module and are of one category.
-/

namespace PhpGate

inductive WarningAction where
  | always | ignore | error
  /-- Only the first warning with a text passes. -/
  | once
  deriving Repr, DecidableEq

/-- What is done with the warnings that begin with a text. -/
structure WarningFilter where
  action : WarningAction
  start : Text := []
  deriving Repr, DecidableEq

structure OpenScope where
  suppress : Bool
  savedLevel : Int
  savedFilters : List WarningFilter
  /-- Where warnings went before: to the scope of this number, or outside. -/
  savedSink : Option Nat
  captured : List Text := []
  deriving Repr, DecidableEq

/-- The open scopes, outermost first, the configuration in force, and everything that has been
reported so far. -/
structure Reporting where
  level : Int := 0
  /-- The level of the logger itself, below which nothing is logged either. -/
  threshold : Int := 0
  filters : List WarningFilter := []
  /-- How often the filters may have changed. -/
  version : Nat := 0
  /-- The texts that have passed once, and the version of the filters at that time. -/
  passed : List Text := []
  passedVersion : Nat := 0
  sink : Option Nat := none
  scopes : List OpenScope := []
  closed : List (List Text) := []
  shown : List Text := []
  /-- The warnings that were raised as errors. -/
  raised : List Text := []
  logged : List Text := []
  deriving Repr, DecidableEq

namespace Reporting

inductive Step where
  | enter (suppress : Bool)
  | leave
  | warn (message : Text)
  | log (message : Text) (level : Int)
  | disable (level : Int)
  deriving Repr, DecidableEq

def criticalLevel : Int := 50

/-- The filter that lets every warning pass. -/
def openFilter : WarningFilter := { action := .always }

/-- The filters with one before all others. -/
def promote (f : WarningFilter) (filters : List WarningFilter) : List WarningFilter :=
  f :: filters.erase f

/-- What the first filter that fits does with a warning. -/
def actionOn (filters : List WarningFilter) (message : Text) : WarningAction :=
  ((filters.find? fun f => f.start.isPrefixOf message).map (·.action)).getD .once

def enter (r : Reporting) (suppress : Bool) : Reporting :=
  let scope : OpenScope :=
    { suppress, savedLevel := r.level, savedFilters := r.filters, savedSink := r.sink }
  let entered := { r with scopes := r.scopes ++ [scope], version := r.version + 1 }
  if suppress then
    { entered with
      level := criticalLevel
      filters := promote openFilter r.filters
      version := r.version + 2
      sink := some r.scopes.length }
  else entered

def leave (r : Reporting) : Reporting :=
  match r.scopes.getLast? with
  | none => r
  | some scope =>
      { r with
        scopes := r.scopes.dropLast
        level := scope.savedLevel
        filters := scope.savedFilters
        version := r.version + 1
        sink := scope.savedSink
        closed := r.closed ++ [scope.captured] }

/-- Hands a warning over to where warnings go. -/
def deliver (r : Reporting) (message : Text) : Reporting :=
  match r.sink with
  | none => { r with shown := r.shown ++ [message] }
  | some k =>
      { r with
        scopes := r.scopes.modify k fun s => { s with captured := s.captured ++ [message] } }

/-- Forgets the texts that have passed once if the filters may have changed since. -/
def refresh (r : Reporting) : Reporting :=
  if r.passedVersion = r.version then r else { r with passed := [], passedVersion := r.version }

/-- A warning is looked up among the texts that have passed before a filter is looked for. -/
def warn (r : Reporting) (message : Text) : Reporting :=
  let r := r.refresh
  if r.passed.contains message then r
  else match actionOn r.filters message with
    | .always => r.deliver message
    | .once => deliver { r with passed := r.passed ++ [message] } message
    | .ignore => r
    | .error => { r with raised := r.raised ++ [message] }

def step (r : Reporting) : Step → Reporting
  | .enter suppress => r.enter suppress
  | .leave => r.leave
  | .warn message => r.warn message
  | .log message level =>
      if r.level < level ∧ r.threshold ≤ level then { r with logged := r.logged ++ [message] } else r
  | .disable level => { r with level := level }

/-- The state after each of some steps. -/
def trace (r : Reporting) : List Step → List Reporting
  | [] => []
  | s :: ss => r.step s :: trace (r.step s) ss

end Reporting
end PhpGate
