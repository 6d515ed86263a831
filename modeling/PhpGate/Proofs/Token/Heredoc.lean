import PhpGate.Grammar.Compile
import PhpGate.Proofs.Text.Pieces
import PhpGate.Proofs.Token.Context
import PhpGate.Proofs.Token.Place
import PhpGate.Proofs.Token.Tail

/-!
Opening lines of heredocs. One that stands at the start of a token begins a heredoc just when a
later line closes it; otherwise its signs are an operator and the lines behind it are read as code.
An operator that begins earlier takes the signs of a heredoc along.
-/

namespace PhpGate

open Text

/-- A line of the body begins with the label as a whole word, tabs and spaces aside. -/
def IsClosed (label body : Text) : Prop :=
  ∃ u indent r, body = u ++ (indent ++ (label ++ r)) ∧ u.getLast?.all (· == '\n') = true ∧
    indent.all isTabOrSpace = true ∧ isBoundary label.getLast? r.head? = true

variable {before t label : Text} {n : Nat} {lineStart : Bool} {token : Token}

theorem isTabOrSpace_of_isIdentifierStart {c : Char} (start : isIdentifierStart c = true) :
    isTabOrSpace c = false := by
  rw [isTabOrSpace, Bool.or_eq_false_iff, beq_eq_false_iff_ne, beq_eq_false_iff_ne]
  constructor <;>
  · rintro rfl
    cases start

section Closing

variable (start : label.head?.any isIdentifierStart = true)
include start

theorem heredocClosing_isSome_iff :
    (heredocClosing? label t).isSome = true ↔
      ∃ indent r, t = indent ++ (label ++ r) ∧ indent.all isTabOrSpace = true ∧
        isBoundary label.getLast? r.head? = true := by
  rw [heredocClosing?]
  constructor
  · intro closes
    split at closes
    · rename_i stands
      rw [Bool.and_eq_true, List.isPrefixOf_iff_prefix] at stands
      obtain ⟨⟨r, rest⟩, boundary⟩ := stands
      have whole := takeWhile_append_drop isTabOrSpace t
      refine ⟨t.takeWhile isTabOrSpace, r, by rw [rest, whole], List.all_takeWhile, ?_⟩
      rwa [← List.drop_drop, ← rest, List.drop_left] at boundary
    · cases closes
  · rintro ⟨indent, r, rfl, tabs, boundary⟩
    have stops : (label ++ r).head?.any isTabOrSpace = false := by
      cases label with
      | nil => cases start
      | cons c label => exact isTabOrSpace_of_isIdentifierStart start
    rw [takeWhile_append_stop tabs stops, ← List.drop_drop, List.drop_left, List.drop_left,
      boundary, List.isPrefixOf_iff_prefix.mpr (List.prefix_append label r)]
    rfl

/-- The body of a heredoc is found when some line of it is a closing one; the first counts if the
text begins a line. -/
theorem heredocBody_isSome_iff :
    (heredocBody? label lineStart t).isSome = true ↔
      ∃ u v, t = u ++ v ∧ (u = [] → lineStart = true) ∧ u.getLast?.all (· == '\n') = true ∧
        (heredocClosing? label v).isSome = true := by
  induction t generalizing lineStart with
  | nil =>
      constructor
      · intro found
        cases found
      · rintro ⟨u, v, split, -, -, closes⟩
        obtain ⟨rfl, rfl⟩ := List.append_eq_nil_iff.mp split.symm
        obtain ⟨indent, r, e, -⟩ := (heredocClosing_isSome_iff start).mp closes
        obtain ⟨-, e⟩ := List.append_eq_nil_iff.mp e.symm
        obtain ⟨rfl, -⟩ := List.append_eq_nil_iff.mp e
        cases start
  | cons c t ih =>
      rw [heredocBody?]
      cases here : if lineStart then heredocClosing? label (c :: t) else none with
      | some m =>
          refine iff_of_true rfl ⟨[], c :: t, rfl, fun _ => ?_, rfl, ?_⟩
          · cases lineStart with
            | false => cases here
            | true => rfl
          · cases lineStart with
            | false => cases here
            | true => exact Option.isSome_of_eq_some here
      | none =>
          rw [Option.isSome_map, ih]
          constructor
          · rintro ⟨u, v, rfl, first, line, closes⟩
            refine ⟨c :: u, v, rfl, fun e => (List.cons_ne_nil _ _ e).elim, ?_, closes⟩
            cases u with
            | nil => exact first rfl
            | cons d u => rwa [List.getLast?_cons_cons]
          · rintro ⟨u, v, split, first, line, closes⟩
            cases u with
            | nil =>
                obtain rfl : c :: t = v := split
                rw [first rfl, if_pos rfl] at here
                rw [here] at closes
                cases closes
            | cons d u =>
                obtain ⟨rfl, rfl⟩ := List.cons.inj split
                refine ⟨u, v, rfl, ?_, ?_, closes⟩
                · rintro rfl
                  exact line
                · cases u with
                  | nil => rfl
                  | cons e u => rwa [List.getLast?_cons_cons] at line

theorem heredocBody_isSome_iff_isClosed :
    (heredocBody? label true t).isSome = true ↔ IsClosed label t := by
  rw [heredocBody_isSome_iff start]
  constructor
  · rintro ⟨u, v, rfl, -, line, closes⟩
    obtain ⟨indent, r, rfl, tabs, boundary⟩ := (heredocClosing_isSome_iff start).mp closes
    exact ⟨u, indent, r, rfl, line, tabs, boundary⟩
  · rintro ⟨u, indent, r, rfl, line, tabs, boundary⟩
    exact ⟨u, _, rfl, fun _ => rfl, line,
      (heredocClosing_isSome_iff start).mpr ⟨indent, r, rfl, tabs, boundary⟩⟩

end Closing

section Signs

theorem exists_of_opening (opens : heredocOpening? t = some (label, n)) :
    ∃ r, t = '<' :: '<' :: '<' :: r := by
  by_cases signs : ∃ r, t = '<' :: '<' :: '<' :: r
  · exact signs
  · rw [heredocOpening_eq_none fun r e => signs ⟨r, e⟩] at opens
    cases opens

/-- An operator of three signs `<` that goes on opens no heredoc. -/
theorem heredocOpening_of_sign {c : Char} {r : Text} (sign : isSign c = true) :
    heredocOpening? ('<' :: '<' :: '<' :: c :: r) = none := by
  have blank : isTabOrSpace c = false :=
    of_isSign (p := fun d => isTabOrSpace d = false) sign (by decide)
  have quote : (c == '"' || c == '\'') = false :=
    of_isSign (p := fun d => (d == '"' || d == '\'') = false) sign (by decide)
  have letter : isIdentifierStart c = false :=
    of_isSign (p := fun d => isIdentifierStart d = false) sign (by decide)
  simp [heredocOpening_eq, blank, heredocQuote, quote, heredocLabel?, identifierLength?, letter]

/-- Behind its three signs an opening line goes on with white space, a quote or its label. -/
theorem operatorRun_of_opening (opens : heredocOpening? t = some (label, n)) :
    operatorRun t = 3 := by
  obtain ⟨r, rfl⟩ := exists_of_opening opens
  have stops : operatorRun r = 0 := by
    cases r with
    | nil => rfl
    | cons c r =>
        rw [operatorRun, if_neg]
        intro goesOn
        rw [heredocOpening_of_sign (isSign_of_continuesOperator goesOn)] at opens
        cases opens
  have signs : operatorRun ('<' :: '<' :: '<' :: r) = operatorRun r + 3 := by
    simp [operatorRun, continuesOperator]
  rw [signs, stops]

theorem operatorRun_drop {k : Nat} (le : k ≤ operatorRun t) :
    operatorRun (t.drop k) = operatorRun t - k := by
  induction t generalizing k with
  | nil => simp [operatorRun]
  | cons c t ih =>
      cases k with
      | zero => rfl
      | succ k =>
          rw [operatorRun] at le ⊢
          split at le
          · rename_i goesOn
            rw [if_pos goesOn, List.drop_succ_cons, ih (Nat.le_of_succ_le_succ le),
              Nat.add_sub_add_right]
          · cases le

/-- An opening line that begins within an operator begins at its last three signs. -/
theorem signs_of_opening_within {w r : Text} {k : Nat} (run : operatorRun (w ++ r) = w.length)
    (lt : k < w.length) (opens : heredocOpening? ((w ++ r).drop k) = some (label, n)) :
    w = w.take k ++ "<<<".toList ∧ (w ++ r).drop k = "<<<".toList ++ r := by
  have three := operatorRun_of_opening opens
  rw [operatorRun_drop (by omega), run] at three
  obtain ⟨s, signs⟩ := exists_of_opening opens
  rw [List.drop_append_of_le_length (by omega)] at signs ⊢
  have text : w.drop k = "<<<".toList := by
    have front := congrArg (List.take 3) signs
    rw [← three, ← List.length_drop, List.take_left, List.length_drop, three] at front
    exact front
  exact ⟨by rw [← text, List.take_append_drop], by rw [text]⟩

end Signs

theorem operatorRun_of_first {w r : Text}
    (first : Terminal.first? before (w ++ r) = some (.operator, w.length)) :
    operatorRun (w ++ r) = w.length := by
  obtain ⟨-, -, -, run, -⟩ := Terminal.first_eq_some_iff.mp first
  simp only [Terminal.length?, someLength, Option.ite_none_left_eq_some, Option.some.injEq] at run
  exact run.2

theorem heredocLength_isSome_iff (opens : heredocOpening? t = some (label, n)) :
    (heredocLength? t).isSome = true ↔ IsClosed label (t.drop n) := by
  rw [← heredocBody_isSome_iff_isClosed (heredocOpening_start opens).1, heredocLength?, opens,
    Option.bind_some, Option.isSome_map]

/-- The signs of an opening line that no later line closes are an operator. -/
theorem first_of_opening (before : Text) (opens : heredocOpening? t = some (label, n)) :
    Terminal.first? before t =
      match heredocLength? t with
      | some m => some (.heredoc, m)
      | none => some (.operator, 3) := by
  have run := operatorRun_of_opening opens
  obtain ⟨r, rfl⟩ := exists_of_opening opens
  rw [Terminal.first_of_plain before (by decide) (by decide)]
  cases found : heredocLength? ('<' :: '<' :: '<' :: r) with
  | some m =>
      refine Terminal.first_of_length found fun k earlier => ?_
      cases k <;> first | rfl | exact absurd earlier (by decide)
  | none =>
      refine Terminal.first_of_length (by rw [Terminal.length?, run]; rfl) fun k earlier => ?_
      cases k with
      | heredoc => exact found
      | _ => first | rfl | exact absurd earlier (by decide)

/-- An opening line at the start of a token begins a heredoc just when a later line closes it, and
is the operator of its three signs otherwise, whatever the lines behind it hold. -/
theorem heredoc_iff_isClosed (mem : token ∈ tokens t)
    (opens : heredocOpening? (t.drop token.offset) = some (label, n)) :
    (token.terminal = .heredoc ↔ IsClosed label (t.drop (token.offset + n))) ∧
      (token.terminal ≠ .heredoc → token.toLexeme = ⟨.operator, "<<<".toList⟩) := by
  obtain ⟨⟨k, w⟩, offset, line⟩ := token
  obtain ⟨before, r, place, first⟩ := first_of_mem_tokens mem
  have closed := heredocLength_isSome_iff opens
  rw [List.drop_drop] at closed
  rw [← closed]
  dsimp only at *
  rw [place] at opens ⊢
  have winner := first_of_opening before opens
  rw [first] at winner
  cases found : heredocLength? (w ++ r) with
  | some m =>
      rw [found] at winner
      cases winner
      exact ⟨iff_of_true rfl rfl, fun other => absurd rfl other⟩
  | none =>
      rw [found] at winner
      obtain ⟨rfl, length⟩ := Prod.mk.inj (Option.some.inj winner)
      have lt : 0 < w.length := (Terminal.first_fits first).1
      have text := (signs_of_opening_within (operatorRun_of_first first) lt opens).1
      refine ⟨by simp, fun _ => ?_⟩
      rw [text]
      rfl

/-- A heredoc with a quote in it, and behind it an opening line that nothing closes. -/
theorem heredoc_and_operator :
    (⟨⟨.heredoc, "<<<A\nit's\n A".toList⟩, 8, 1⟩ : Token)
        ∈ tokens "<?php f(<<<A\nit's\n A);\n<<<B\n;".toList ∧
      (⟨⟨.operator, "<<<".toList⟩, 23, 4⟩ : Token)
        ∈ tokens "<?php f(<<<A\nit's\n A);\n<<<B\n;".toList ∧
      IsClosed ['A'] "it's\n A);\n<<<B\n;".toList ∧ ¬ IsClosed ['B'] ";".toList := by
  have first : (⟨⟨.heredoc, "<<<A\nit's\n A".toList⟩, 8, 1⟩ : Token)
      ∈ tokens "<?php f(<<<A\nit's\n A);\n<<<B\n;".toList := by decide
  have second : (⟨⟨.operator, "<<<".toList⟩, 23, 4⟩ : Token)
      ∈ tokens "<?php f(<<<A\nit's\n A);\n<<<B\n;".toList := by decide
  have opens : heredocOpening? ("<?php f(<<<A\nit's\n A);\n<<<B\n;".toList.drop 8)
      = some (['A'], 5) := rfl
  have opens' : heredocOpening? ("<?php f(<<<A\nit's\n A);\n<<<B\n;".toList.drop 23)
      = some (['B'], 5) := rfl
  refine ⟨first, second, ?_, ?_⟩
  · exact (heredoc_iff_isClosed first opens).1.mp rfl
  · intro closed
    have kind := (heredoc_iff_isClosed second opens').1.mpr closed
    cases kind

/-- A source with an opening line that nothing closes compiles. -/
theorem compile_unclosed_heredoc :
    compile "<?php $a = <<<EOT\nhello\n;".toList = .ok () ∧
      ∃ token ∈ tokens "<?php $a = <<<EOT\nhello\n;".toList, token.terminal ≠ .heredoc ∧
        heredocOpening? ("<?php $a = <<<EOT\nhello\n;".toList.drop token.offset) ≠ none := by
  refine ⟨rfl, ⟨⟨.operator, "<<<".toList⟩, 11, 1⟩, ?_, ?_, ?_⟩ <;> decide

/-- The only place within an operator at which a heredoc can begin is that of its last three signs,
if others stand in front of them. -/
theorem heredoc_within_operator_iff {p : Nat} (mem : token ∈ tokens t)
    (operator : token.terminal = .operator)
    (inside : token.offset ≤ p ∧ p < token.offset + token.text.length) :
    (heredocLength? (t.drop p)).isSome = true ↔
      ∃ w, w ≠ [] ∧ token.text = w ++ "<<<".toList ∧ p = token.offset + w.length ∧
        (heredocLength?
          ("<<<".toList ++ t.drop (token.offset + token.text.length))).isSome = true := by
  obtain ⟨before, r, place, first⟩ := first_of_mem_tokens mem
  rw [operator] at first
  have rest : t.drop (token.offset + token.text.length) = r := by
    rw [← List.drop_drop, place, List.drop_left]
  rw [rest]
  constructor
  · intro found
    obtain ⟨k, rfl⟩ := Nat.exists_eq_add_of_le inside.1
    have lt : k < token.text.length := Nat.lt_of_add_lt_add_left inside.2
    rw [← List.drop_drop, place] at found
    obtain ⟨m, here⟩ := Option.isSome_iff_exists.mp found
    obtain ⟨⟨label, n⟩, opens, -⟩ := Option.bind_eq_some_iff.mp here
    obtain ⟨text, signs⟩ := signs_of_opening_within (operatorRun_of_first first) lt opens
    refine ⟨token.text.take k, ?_, text, ?_, ?_⟩
    · -- At the start of the token the heredoc would have been taken.
      have other : heredocLength? (token.text ++ r) = none :=
        Terminal.length_eq_none_of_first first (show Terminal.heredoc ∈ _ by decide)
      cases k with
      | zero =>
          rw [List.drop_zero, other] at found
          cases found
      | succ k =>
          intro empty
          rw [← List.length_eq_zero_iff, List.length_take] at empty
          omega
    · rw [List.length_take, Nat.min_eq_left (Nat.le_of_lt lt)]
    · rwa [signs] at found
  · rintro ⟨w, -, text, rfl, found⟩
    rwa [← List.drop_drop, place, text, List.append_assoc, List.drop_left]

/-- An assignment that takes the signs of a heredoc, and a shift that takes none. -/
theorem heredoc_within_assignment :
    (heredocLength? ("<?php $a=<<<E\nx\nE;\n$a<<=2;".toList.drop 9)).isSome = true ∧
      (heredocLength? ("<?php $a=<<<E\nx\nE;\n$a<<=2;".toList.drop 21)).isSome = false := by
  have first : (⟨⟨.operator, "=<<<".toList⟩, 8, 1⟩ : Token)
      ∈ tokens "<?php $a=<<<E\nx\nE;\n$a<<=2;".toList := by decide
  have second : (⟨⟨.operator, "<<=".toList⟩, 21, 4⟩ : Token)
      ∈ tokens "<?php $a=<<<E\nx\nE;\n$a<<=2;".toList := by decide
  constructor
  · exact (heredoc_within_operator_iff first rfl (by decide)).mpr ⟨['='], by decide, rfl, rfl, rfl⟩
  · rw [← Bool.not_eq_true]
    intro swallowed
    obtain ⟨w, -, text, -⟩ := (heredoc_within_operator_iff second rfl (by decide)).mp swallowed
    have ends := congrArg List.getLast? text
    rw [List.getLast?_append] at ends
    cases ends

/-- Directly behind an assignment a heredoc is not read as one, and a quote in its body stays open;
behind a blank it is. -/
theorem compile_swallowed_heredoc :
    (⟨⟨.operator, "=<<<".toList⟩, 8, 1⟩ : Token) ∈ tokens "<?php $a=<<<E\nit's\nE;".toList ∧
      (heredocLength? ("<?php $a=<<<E\nit's\nE;".toList.drop 9)).isSome = true ∧
      compile "<?php $a=<<<E\nit's\nE;".toList = .error ⟨.unexpectedCharacter '\'', 2⟩ ∧
      compile "<?php $a= <<<E\nit's\nE;".toList = .ok () :=
  ⟨by decide, rfl, rfl, rfl⟩

end PhpGate
