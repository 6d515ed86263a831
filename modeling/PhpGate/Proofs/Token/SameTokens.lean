import Mathlib.Data.List.Forall2
import PhpGate.Proofs.Grammar.Acceptance
import PhpGate.Proofs.Token.Multiline
import PhpGate.Token.Report

/-!
Two texts that differ in their line endings only lex alike: step by step the same terminal wins and
takes the same lines, and lexing stops at the same character of the same line or not at all.
-/

namespace PhpGate

open Text

variable {a b before before' x y rest : Text} {ls ls' : List Lexeme} {k : Terminal} {n : Nat}

section Context

theorem followsFunction_feed (X : Text) : followsFunction ('\n' :: X) = false := by
  rw [followsFunction, beq_eq_false_iff_ne]
  intro keyword
  have word : "function ".toList = "function".toList ++ [' '] := rfl
  rw [word, List.take_succ_cons, List.reverse_cons, List.map_append] at keyword
  have last := List.append_inj_right' keyword rfl
  cases last

/-- Nothing in front of a line feed is seen from behind it. -/
theorem sameContext_feed (X Y : Text) : SameContext ('\n' :: X) ('\n' :: Y) := by
  apply SameContext.of_cons
  · rfl
  · intro w
    cases w with
    | nil => exact (followsFunction_feed X).trans (followsFunction_feed Y).symm
    | cons c w =>
        exact followsFunction_congr (Nat.succ_pos _) (by decide) (by decide)

theorem SameContext.sameLines (context : SameContext before before') (h : SameLines x y) :
    SameContext (x.reverse ++ before) (y.reverse ++ before') := by
  induction h generalizing before before' with
  | nil => exact context
  | @char c _ _ _ _ ih =>
      rw [List.reverse_cons, List.reverse_cons, List.append_assoc, List.append_assoc]
      exact ih (context.append [c])
  | pair _ ih =>
      rw [List.reverse_cons, List.reverse_cons, List.reverse_cons, List.append_assoc,
        List.append_assoc, List.append_assoc]
      exact ih (sameContext_feed _ _)

end Context

section Lexing

theorem Terminal.length_same_of_context (h : SameLines a b) (context : SameContext before before')
    (k : Terminal) : SameMatch a b (k.length? before a) (k.length? before' b) := by
  rw [context.length_eq k (t := a)]
  exact Terminal.length_same h before' k

theorem Terminal.first_same (h : SameLines a b) (context : SameContext before before')
    (first : first? before a = some (k, n)) :
    ∃ m, first? before' b = some (k, m) ∧ SameCut a b n m := by
  obtain ⟨-, -, -, found, -⟩ := first_eq_some_iff.mp first
  have matched := length_same_of_context h context k
  rw [found] at matched
  obtain ⟨m, cut, found'⟩ := exists_of_rel_some matched
  refine ⟨m, first_of_first first found' fun k' none => ?_, cut⟩
  have unmatched := length_same_of_context h context k'
  rw [none] at unmatched
  exact eq_none_of_rel unmatched

theorem Terminal.first_none_same (h : SameLines a b) (context : SameContext before before')
    (stuck : first? before a = none) : first? before' b = none := by
  rw [first_eq_none_iff] at stuck ⊢
  intro k
  have unmatched := length_same_of_context h context k
  rw [stuck k] at unmatched
  exact eq_none_of_rel unmatched

/-- Lexemes of one terminal with the same lines. -/
structure Lexeme.SameLines (l l' : Lexeme) : Prop where
  terminal : l.terminal = l'.terminal
  text : Text.SameLines l.text l'.text

theorem Lexes.same (run : Lexes before a ls rest) (h : SameLines a b)
    (context : SameContext before before') :
    ∃ ls' rest', Lexes before' b ls' rest' ∧ List.Forall₂ Lexeme.SameLines ls ls' ∧
      SameLines rest rest' := by
  induction run generalizing b before' with
  | stop stuck => exact ⟨[], b, .stop (Terminal.first_none_same h context stuck), .nil, h⟩
  | @take before w r rest k ls first _ ih =>
      obtain ⟨m, first', cut⟩ := Terminal.first_same h context first
      obtain ⟨front, back⟩ := cut
      rw [List.take_left] at front
      rw [List.drop_left] at back
      obtain ⟨ls', rest', later, alike, same⟩ := ih back (context.sameLines front)
      refine ⟨⟨k, b.take m⟩ :: ls', rest', ?_, .cons ⟨rfl, front⟩ alike, same⟩
      have length : (b.take m).length = m :=
        List.length_take_of_le (Terminal.first_fits first').2
      have taken := Lexes.take (w := b.take m) (r := b.drop m) (k := k)
        (by rwa [List.take_append_drop, length]) later
      rwa [List.take_append_drop] at taken

theorem Lexing.same (h : SameLines a b) :
    List.Forall₂ Lexeme.SameLines (Lexing.of a).lexemes (Lexing.of b).lexemes ∧
      SameLines (Lexing.of a).rest (Lexing.of b).rest := by
  obtain ⟨ls, rest, run, alike, same⟩ := (Lexes.of a).same h ⟨fun _ => rfl, fun _ => rfl, fun _ => rfl⟩
  obtain ⟨rfl, rfl⟩ := run.unique (Lexes.of b)
  exact ⟨alike, same⟩

theorem significant_same (alike : List.Forall₂ Lexeme.SameLines ls ls') :
    List.Forall₂ Lexeme.SameLines (significant ls) (significant ls') := by
  induction alike with
  | nil => exact .nil
  | @cons l l' _ _ same _ ih =>
      rw [significant, significant, List.filter_cons, List.filter_cons, same.terminal]
      split
      · exact .cons same ih
      · exact ih

theorem any_getLast_same {p : Lexeme → Bool} (alike : List.Forall₂ Lexeme.SameLines ls ls')
    (agree : ∀ l l', l.SameLines l' → p l = p l') : ls.getLast?.any p = ls'.getLast?.any p := by
  induction alike with
  | nil => rfl
  | cons same rest ih =>
      cases rest with
      | nil => exact agree _ _ same
      | cons => rw [List.getLast?_cons_cons, List.getLast?_cons_cons, ih]

theorem terminals_same (h : SameLines a b) : terminals a = terminals b := by
  rw [terminals_eq, terminals_eq]
  have alike := significant_same (Lexing.same h).1
  generalize significant (Lexing.of a).lexemes = ls, significant (Lexing.of b).lexemes = ls' at alike
  induction alike with
  | nil => rfl
  | cons same _ ih => rw [List.map_cons, List.map_cons, same.terminal, ih]

theorem complete_same (h : SameLines a b) :
    (Lexing.of a).complete = (Lexing.of b).complete := by
  rw [Lexing.complete, Lexing.complete, Bool.eq_iff_iff, List.isEmpty_iff, List.isEmpty_iff]
  exact (Lexing.same h).2.eq_nil_iff

theorem newlines_consumed_same (h : SameLines a b) :
    (Lexing.of a).consumed.newlines = (Lexing.of b).consumed.newlines := by
  rw [Lexing.consumed, Lexing.consumed]
  have alike := (Lexing.same h).1
  generalize (Lexing.of a).lexemes = ls, (Lexing.of b).lexemes = ls' at alike
  induction alike with
  | nil => rfl
  | cons same _ ih =>
      rw [List.flatMap_cons, List.flatMap_cons, newlines, newlines, List.count_append,
        List.count_append, ← newlines, ← newlines, ih, ← newlines, ← newlines,
        same.text.newlines_eq]

/-- Lexing stops on the same line, if it stops. -/
theorem stop_line_same (h : SameLines a b) :
    (Lexing.of a).stop?.map LexicalStop.line = (Lexing.of b).stop?.map LexicalStop.line := by
  have stop (t : Text) : (Lexing.of t).stop?.map LexicalStop.line
      = (Lexing.of t).rest.head?.map fun _ => (Lexing.of t).consumed.newlines + 1 := by
    rw [Lexing.stop?, Option.map_map]
    rfl
  rw [stop, stop, newlines_consumed_same h]
  obtain same | ⟨feed, ret⟩ := (Lexing.same h).2.head_cases
  · rw [same]
  · rw [feed, ret]
    rfl

end Lexing

/-- Compiling accepts both texts or neither. -/
theorem compile_same (h : SameLines a b) : compile a = .ok () ↔ compile b = .ok () := by
  rw [compile_eq_ok_iff_feed, compile_eq_ok_iff_feed, complete_same h, terminals_same h]

end PhpGate
