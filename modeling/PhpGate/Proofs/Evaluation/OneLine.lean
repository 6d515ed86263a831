import PhpGate.Proofs.Command.Verdict
import PhpGate.Proofs.Evaluation.Answered
import PhpGate.Proofs.Interpreter.OneLine
import PhpGate.Proofs.Source.Declaration
import PhpGate.Proofs.Token.Stop

/-!
How many lines the message of a rejection has. It is a single line unless it quotes a declaration:
the white space between the parts of one is quoted as it stands, line breaks included.
-/

namespace PhpGate

open Text Source

section Messages

variable {t : Text} {file : Option Text}

theorem Lexeme.isOneLine_snippet (l : Lexeme) : IsOneLine l.snippet := by
  have first : IsOneLine ((lines l.shownText).headD []) := by
    cases all : lines l.shownText with
    | nil => exact isOneLine_nil
    | cons line rest =>
        have mem : line ∈ lines l.shownText := by rw [all]; exact List.mem_cons_self
        exact isOneLine_of_mem_lines mem
  unfold snippet
  dsimp only
  split
  · exact (first.take _).append (by decide)
  · exact first

theorem CompileFault.isOneLine_unexpectedToken (l : Lexeme) :
    IsOneLine (unexpectedToken l).message := by
  have label : IsOneLine l.terminal.label := by
    cases l.terminal <;> decide
  exact (by decide : IsOneLine "syntax error, unexpected ".toList).append
    (((label.append (by decide)).append l.isOneLine_snippet).append (by decide))

theorem CompileFault.isOneLine_unexpectedCharacter {c : Char} (visible : isBlank c = false) :
    IsOneLine (unexpectedCharacter c).message :=
  (by decide : IsOneLine "syntax error, unexpected ".toList).append
    (((by decide : IsOneLine "character '".toList).append (isOneLine_singleton visible)).append
      (by decide))

theorem isOneLine_compile {failure : CompileFailure} (failed : compile t = .error failure) :
    IsOneLine failure.fault.message := by
  rw [compile] at failed
  split at failed
  · cases failed
    exact CompileFault.isOneLine_unexpectedToken _
  · split at failed
    · rename_i stopped
      cases failed
      exact CompileFault.isOneLine_unexpectedCharacter (isBlank_stop stopped)
    · split at failed
      · cases failed
      · cases failed
        exact (by decide : IsOneLine CompileFault.unexpectedEnd.message)

theorem isOneLine_selfCheck {r : Rejection} (rejected : selfCheck t file = .error r) :
    IsOneLine r.diagnostic.message := by
  delta selfCheck at rejected
  split at rejected
  · cases rejected
  · rename_i failed
    cases rejected
    exact Rejection.isOneLine_of (isOneLine_compile failed) _ _ _

end Messages

namespace Source

variable {d : Declaration}

/-- A line ends in a declaration only where white space stands. -/
theorem Declaration.isOneLine_text_iff (wellFormed : d.IsWellFormed) :
    IsOneLine d.text ↔ IsOneLine d.space ∧ IsOneLine d.tail := by
  have keyword : IsOneLine d.keyword := fun c mem =>
    isLineBreak_of_not_isBlank
      (isBlank_of_isWord (Declaration.isWord_of_mem_keyword wellFormed.keyword mem))
  have path : IsOneLine d.path := by
    intro c mem
    have char := List.all_eq_true.mp wellFormed.path.2 c mem
    rw [isPathChar, Bool.and_eq_true, Bool.not_eq_true'] at char
    exact isLineBreak_of_not_isBlank char.1
  simp [Declaration.text, isOneLine_append, keyword, path]

/-- The first declaration of the filtered text whose path is none. -/
def firstInvalid? (t : Text) : Option Declaration :=
  ((Declaration.all (blankStrings (stripComments t))).find? fun (_, d) => !isValidPath d.path).map
    Prod.snd

def quote (d : Declaration) : Text :=
  "Error syntax on: \x60".toList ++ d.text ++ "\x60".toList

theorem trim_quote (d : Declaration) : trim (quote d) = quote d := by
  have first : "Error syntax on: \x60".toList.head? = some 'E' := by decide
  have last : "\x60".toList.getLast? = some '\x60' := by decide
  apply trim_of_ends
  · delta quote
    rw [List.head?_append, List.head?_append, first]
    rfl
  · delta quote
    rw [List.getLast?_append, last]
    rfl

variable {t : Text} {file : Option Text}

theorem checkDeclarations_eq : checkDeclarations (stripComments t) t file
    = (firstInvalid? t).elim (.ok ()) fun d =>
        .error (Rejection.of .parse (quote d) file (lineOf d.text t)) := by
  rw [checkDeclarations, firstInvalid?]
  split
  · rename_i none
    rw [none]
    rfl
  · rename_i n d found
    rw [found]
    rfl

theorem isOneLine_quote_iff (found : firstInvalid? t = some d) (line : Int) :
    IsOneLine (Rejection.of .parse (quote d) file line).diagnostic.message ↔
      IsOneLine d.space ∧ IsOneLine d.tail := by
  obtain ⟨⟨n, d⟩, listed, rfl⟩ := Option.map_eq_some_iff.mp found
  obtain ⟨-, s, -, -, read⟩ := Declaration.exists_of_mem_all (List.mem_of_find?_eq_some listed)
  have message : (Rejection.of .parse (quote d) file line).diagnostic.message = quote d :=
    trim_quote d
  have opening : IsOneLine "Error syntax on: \x60".toList := by decide
  have closing : IsOneLine "\x60".toList := by decide
  rw [message]
  delta quote
  rw [isOneLine_append, isOneLine_append,
    Declaration.isOneLine_text_iff (Declaration.read_sound read).1]
  simp only [opening, closing, true_and, and_true]

end Source

/-- The line that tells of a rejection is single if the path and the message are. -/
theorem Command.isOneLine_complaintLine_iff (p : Path) (r : Rejection) :
    IsOneLine (complaintLine (p, .ofRejection r)) ↔
      IsOneLine p.text ∧ IsOneLine r.diagnostic.message := by
  have word : IsOneLine "invalid:".toList := by decide
  have colon : IsOneLine [':'] := by decide
  have gap : IsOneLine ": ".toList := by decide
  have space : IsOneLine [' '] := by decide
  have number : IsOneLine (ofInt (Complaint.ofRejection r).line) := isOneLine_ofInt _
  have kind : IsOneLine (Complaint.ofRejection r).kind := by
    change IsOneLine r.diagnostic.kind.name
    cases r.diagnostic.kind <;> decide
  delta complaintLine
  simp only [isOneLine_append, word, colon, gap, space, number, kind, true_and, and_true]
  rfl

namespace Evaluator

/-- An evaluator as the program sets it up: with an interpreter or without one. -/
inductive IsBundled : Evaluator → Prop
  | internal : IsBundled {}
  | interpreter (host : Host) (settings : InterpreterSettings) (files : Store) :
      IsBundled (withInterpreter host settings files)

variable {e : Evaluator} {t : Text} {file : Option Text} {r : Rejection}

theorem failure_declarations_eq_some_iff {error : CheckError} :
    e.failure? t file .declarations = some error ↔ ∃ d, firstInvalid? t = some d ∧
      error = .rejected (Rejection.of .parse (quote d) file (lineOf d.text t)) := by
  rw [failure?, checkDeclarations_eq]
  cases firstInvalid? t <;> simp [errorOf?, eq_comm]

theorem IsBundled.fallback_eq (bundled : e.IsBundled) : e.fallback = selfChecker := by
  cases bundled with
  | internal => dsimp only
  | interpreter => rw [withInterpreter]

theorem isOneLine_failure_fallback (bundled : e.IsBundled)
    (failed : e.failure? t file .fallback = some (.rejected r)) :
    IsOneLine r.diagnostic.message := by
  rw [failure?, Option.ite_none_left_eq_some, bundled.fallback_eq, errorOf_selfChecker] at failed
  obtain ⟨r', rejected, same⟩ := Option.map_eq_some_iff.mp failed.2
  cases same
  cases answer : selfCheck t file with
  | ok =>
      rw [answer] at rejected
      cases rejected
  | error r'' =>
      rw [answer] at rejected
      cases rejected
      exact isOneLine_selfCheck answer

theorem isOneLine_failure_external (bundled : e.IsBundled)
    (failed : e.failure? t file .external = some (.rejected r)) :
    IsOneLine r.diagnostic.message := by
  cases bundled with
  | internal => cases failed
  | interpreter host settings files =>
      obtain ⟨asked, -⟩ := Option.filter_eq_some_iff.mp failed
      have refused : errorOf? (Interpreter.checker host settings files (stripComments t) file)
          = some (.rejected r) := asked
      cases answer : Interpreter.checker host settings files (stripComments t) file with
      | ok b =>
          rw [answer] at refused
          cases refused
      | error error =>
          rw [answer] at refused
          cases refused
          exact Interpreter.isOneLine_checker answer

/-- Only a declaration gives a message of several lines. -/
theorem isOneLine_failure (bundled : e.IsBundled) {s : Stage} (other : s ≠ .declarations)
    (failed : e.failure? t file s = some (.rejected r)) : IsOneLine r.diagnostic.message := by
  cases s with
  | openTag =>
      rw [failure?, checkOpenTag] at failed
      split at failed
      · cases failed
      · cases failed
        exact Rejection.isOneLine_of (by decide) _ _ _
  | tokens =>
      rw [failure?] at failed
      cases report : lexicalReport? t with
      | error fault =>
          rw [report] at failed
          cases failed
      | ok found =>
          rw [report] at failed
          obtain ⟨report', rfl, same⟩ := Option.map_eq_some_iff.mp failed
          cases same
          exact Rejection.isOneLine_of (isOneLine_lexicalReport report) _ _ _
  | trailing =>
      rw [failure?, checkTrailingBuffer] at failed
      split at failed
      · cases failed
      · cases failed
        exact Rejection.isOneLine_of (by decide) _ _ _
  | external => exact isOneLine_failure_external bundled failed
  | declarations => exact absurd rfl other
  | fallback => exact isOneLine_failure_fallback bundled failed

/-- The message of a rejection is a single line unless the declarations are reached and a line ends
in a gap of the first bad one. The command then prints a single line, if the path is one too. -/
theorem isOneLine_message_iff (bundled : e.IsBundled)
    (rejected : e.check t file = .error (.rejected r)) :
    (IsOneLine r.diagnostic.message ↔
      (e.reaches t file .declarations = true → ∀ d, firstInvalid? t = some d →
        IsOneLine d.space ∧ IsOneLine d.tail)) ∧
    ∀ p, IsOneLine (Command.complaintLine (p, .ofRejection r)) ↔
      IsOneLine p.text ∧ IsOneLine r.diagnostic.message := by
  refine ⟨⟨?_, ?_⟩, fun p => Command.isOneLine_complaintLine_iff p r⟩
  · intro single reached d found
    -- once the declarations are reached, a bad one decides the outcome
    have failed : e.failure? t file .declarations
        = some (.rejected (Rejection.of .parse (quote d) file (lineOf d.text t))) :=
      failure_declarations_eq_some_iff.mpr ⟨d, found, rfl⟩
    have outcome := (outcome_eq_error_iff e t file).mpr ⟨.declarations, reached, failed⟩
    cases rejected.symm.trans outcome
    exact (isOneLine_quote_iff found _).mp single
  · intro gaps
    obtain ⟨s, reached, failed⟩ := (outcome_eq_error_iff e t file).mp rejected
    by_cases declared : s = .declarations
    · subst declared
      obtain ⟨d, found, same⟩ := failure_declarations_eq_some_iff.mp failed
      cases same
      exact (isOneLine_quote_iff found _).mpr (gaps reached d found)
    · exact isOneLine_failure bundled declared failed

theorem isOneLine_message_use :
    let r := Rejection.of .parse "Error syntax on: \x60use 2;\x60".toList none 1
    IsBundled {} ∧ check {} "<?php use 2;".toList none = .error (.rejected r) ∧
    (IsOneLine r.diagnostic.message ↔
      (reaches {} "<?php use 2;".toList none .declarations = true →
        ∀ d, firstInvalid? "<?php use 2;".toList = some d →
          IsOneLine d.space ∧ IsOneLine d.tail)) ∧
    ∀ p, IsOneLine (Command.complaintLine (p, .ofRejection r)) ↔
      IsOneLine p.text ∧ IsOneLine r.diagnostic.message := by
  have rejected : check {} "<?php use 2;".toList none = .error (.rejected
      (Rejection.of .parse "Error syntax on: \x60use 2;\x60".toList none 1)) := by
    decide +kernel
  exact ⟨.internal, rejected, isOneLine_message_iff .internal rejected⟩

/-- A line break between keyword and path comes out in the message. -/
theorem not_isOneLine_message_namespace :
    ∃ r, check {} "<?php namespace\n2;".toList none = .error (.rejected r) ∧
      ¬ IsOneLine r.diagnostic.message := by
  refine ⟨Rejection.of .parse "Error syntax on: \x60namespace\n2;\x60".toList none 1, ?_, ?_⟩
  · decide +kernel
  · decide

end Evaluator

end PhpGate
