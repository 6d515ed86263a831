import PhpGate.Proofs.Text.Letter
import PhpGate.Proofs.Token.Equations
import PhpGate.Proofs.Token.Scan

/-!
What the lexer sees of the text in front of a place. Two such texts that look alike, whatever comes
after them, give the same run.
-/

namespace PhpGate

open Text

/-- Texts in front of a place, both in reverse, that no pattern tells apart. -/
structure SameContext (before before' : Text) : Prop where
  keyword : ∀ w, startsKeyword (w ++ before) = startsKeyword (w ++ before')
  function : ∀ w, followsFunction (w ++ before) = followsFunction (w ++ before')
  expression : ∀ w, followsExpression (w ++ before) = followsExpression (w ++ before')

namespace SameContext

variable {before before' t : Text}

theorem append (h : SameContext before before') (w : Text) :
    SameContext (w ++ before) (w ++ before') where
  keyword v := by simpa using h.keyword (v ++ w)
  function v := by simpa using h.function (v ++ w)
  expression v := by simpa using h.expression (v ++ w)

theorem length_eq (h : SameContext before before') (k : Terminal) :
    k.length? before t = k.length? before' t := by
  have keyword : startsKeyword before = startsKeyword before' := h.keyword []
  have function : followsFunction before = followsFunction before' := h.function []
  have expression : followsExpression before = followsExpression before' := h.expression []
  cases k with
  | anonymousClass => simp only [Terminal.length?, anonymousClassLength?, keyword]
  | keywordOperator => simp only [Terminal.length?, keywordOperatorLength?, keyword]
  | classKeyword => simp only [Terminal.length?, classKeywordLength?, keyword]
  | matchKeyword => simp only [Terminal.length?, matchKeywordLength?, keyword, function]
  | expressionBrace => simp only [Terminal.length?, expression]
  | _ => rfl

theorem first_eq (h : SameContext before before') :
    Terminal.first? before t = Terminal.first? before' t := by
  simp only [Terminal.first?, h.length_eq]

end SameContext

theorem Lexes.congr {before before' t rest : Text} {ls : List Lexeme}
    (run : Lexes before t ls rest) (h : SameContext before before') :
    Lexes before' t ls rest := by
  induction run generalizing before' with
  | stop stuck => exact .stop (h.first_eq ▸ stuck)
  | take first _ ih => exact .take (h.first_eq ▸ first) (ih (h.append _))

section Folding

variable {c d : Char}

theorem toLower_eq (h : c.toLower = d) (plain : d.isLower = false) : c = d := by
  subst h
  obtain same | ⟨upper, code⟩ := toLower_cases c
  · exact same.symm
  · rw [← Bool.not_eq_true, isLower_iff, code] at plain
    have range := isUpper_iff.mp upper
    omega

/-- Only letters have other characters that stand for them. -/
theorem foldCase_eq (h : foldCase c = d) (plain : d.isLower = false) : c = d := by
  rw [foldCase] at h
  split at h
  · cases h
    cases plain
  · split at h
    · cases h
      cases plain
    · split at h
      · cases h
        cases plain
      · exact toLower_eq h plain

end Folding

/-- No function name is due when one of the letters of the keyword would be another character. -/
theorem followsFunction_eq_false {u v : Text} {c : Char} (near : 0 < u.length ∧ u.length ≤ 8)
    (other : foldCase c ∉ "function".toList) : followsFunction (u ++ c :: v) = false := by
  cases u with
  | nil => cases near.1
  | cons d u =>
      obtain ⟨k, room⟩ := Nat.exists_eq_add_of_lt (Nat.lt_of_succ_le near.2)
      rw [followsFunction, beq_eq_false_iff_ne]
      intro keyword
      have word : "function ".toList = "function".toList ++ [' '] := rfl
      rw [word, ← List.reverse_inj, List.map_reverse, List.reverse_reverse, List.cons_append,
        List.take_succ_cons, room, Nat.add_assoc, List.take_length_add_append, List.take_succ_cons,
        List.map_cons, List.reverse_concat] at keyword
      have letter : foldCase c ∈ "function".toList.reverse := by
        rw [← (List.cons.inj keyword).2]
        exact List.mem_map_of_mem (List.mem_append_right _ List.mem_cons_self)
      exact other (List.mem_reverse.mp letter)

theorem followsFunction_congr {u v v' : Text} {c d : Char} (pos : 0 < u.length)
    (other : foldCase c ∉ "function".toList) (other' : foldCase d ∉ "function".toList) :
    followsFunction (u ++ c :: v) = followsFunction (u ++ d :: v') := by
  obtain long | near := Nat.lt_or_ge 8 u.length
  · rw [followsFunction, followsFunction, List.take_append_of_le_length long,
      List.take_append_of_le_length long]
  · rw [followsFunction_eq_false ⟨pos, near⟩ other, followsFunction_eq_false ⟨pos, near⟩ other']

theorem beginsWith_openTag {t : Text} (h : beginsWith "<?php".toList t = true) :
    ∃ p h q r, t = '<' :: '?' :: p :: h :: q :: r := by
  have long : 5 ≤ t.length := length_le_of_beginsWith h
  match t with
  | [] | [_] | [_, _] | [_, _, _] | [_, _, _, _] => simp at long
  | a :: b :: p :: h' :: q :: r =>
      have word : "<?php".toList = ['<', '?', 'p', 'h', 'p'] := rfl
      simp only [word, beginsWith, Bool.and_eq_true, beq_iff_eq] at h
      obtain ⟨less, mark, -⟩ := h
      obtain rfl := foldCase_eq less (by decide)
      obtain rfl := foldCase_eq mark (by decide)
      exact ⟨p, h', q, r, rfl⟩

/-- Texts that end in the same character, given what the look-behinds see in front of it. -/
theorem SameContext.of_cons {c : Char} {X Y : Text}
    (member : followsMember (c :: X) = followsMember (c :: Y))
    (function : ∀ w, followsFunction (w ++ c :: X) = followsFunction (w ++ c :: Y)) :
    SameContext (c :: X) (c :: Y) := by
  have behind (w : Text) : followsMember (w ++ c :: X) = followsMember (w ++ c :: Y) := by
    match w with
    | [] => exact member
    | [_] | _ :: _ :: _ => simp only [List.cons_append, List.nil_append, followsMember_cons]
  have head (w : Text) : (w ++ c :: X).head? = (w ++ c :: Y).head? := by
    cases w <;> rfl
  constructor
  case keyword =>
    intro w
    rw [startsKeyword, startsKeyword, head, behind]
  case function => exact function
  case expression =>
    intro w
    rw [followsExpression, followsExpression, head, behind]

/-- Nothing in front of an open tag is seen from behind it. -/
theorem sameContext_openTag (p h q : Char) (earlier : Text) :
    SameContext [q, h, p, '?', '<'] ([q, h, p, '?', '<'] ++ earlier) := by
  apply SameContext.of_cons
  · exact (followsMember_cons q h _).trans (followsMember_cons q h _).symm
  · intro w
    have same : followsFunction ((w ++ [q, h, p, '?']) ++ ['<'])
        = followsFunction ((w ++ [q, h, p, '?']) ++ '<' :: earlier) :=
      followsFunction_congr (by simp) (by decide) (by decide)
    simpa using same

section Plain

variable {c : Char} {r : Text}

theorem beginsWith_eq_false_of_plain {w : Char} {ws : Text} (plain : (foldCase c).isLower = false)
    (lower : w.isLower = true) : beginsWith (w :: ws) (c :: r) = false := by
  rw [beginsWith, Bool.and_eq_false_iff, beq_eq_false_iff_ne]
  left
  rintro rfl
  rw [plain] at lower
  cases lower

theorem wordLength_eq_none_of_plain {words : List Text} (plain : (foldCase c).isLower = false)
    (lower : ∀ word ∈ words, word.head?.any Char.isLower = true) :
    wordLength? words (c :: r) = none := by
  rw [wordLength?, List.findSome?_eq_none_iff]
  intro word mem
  cases word with
  | nil => cases lower _ mem
  | cons w ws =>
      have letter : w.isLower = true := lower _ mem
      rw [beginsWith_eq_false_of_plain plain letter]
      rfl

/-- Where no keyword can start, the text in front decides only how a brace is read. -/
theorem Terminal.first_of_plain (before : Text) (plain : (foldCase c).isLower = false)
    (brace : c ≠ '\x7b') : first? before (c :: r) = first? [] (c :: r) := by
  have same (k : Terminal) : k.length? before (c :: r) = k.length? [] (c :: r) := by
    cases k with
    | anonymousClass =>
        have word : beginsWith "new".toList (c :: r) = false := beginsWith_eq_false_of_plain plain rfl
        simp only [length?, anonymousClassLength?, word, Bool.and_false]
    | keywordOperator =>
        simp only [length?, keywordOperatorLength?]
        rw [wordLength_eq_none_of_plain plain (by decide), ite_self, ite_self]
    | classKeyword =>
        simp only [length?, classKeywordLength?]
        rw [wordLength_eq_none_of_plain plain (by decide), Option.filter_none, ite_self, ite_self]
    | matchKeyword =>
        have word : beginsWith "match".toList (c :: r) = false := beginsWith_eq_false_of_plain plain rfl
        simp only [length?, matchKeywordLength?, word, Bool.and_false, Bool.false_and]
    | expressionBrace =>
        have none : fixedLength? ['\x7b'] (c :: r) = Option.none := by
          simp [fixedLength?, brace.symm]
        simp only [length?, none, ite_self]
    | _ => rfl
  simp only [first?, same]

end Plain

theorem Lexes.semicolon (before : Text) : Lexes before [';'] [⟨.semicolon, [';']⟩] [] := by
  have first : Terminal.first? before ([';'] ++ []) = some (.semicolon, 1) :=
    (Terminal.first_of_plain before (by decide) (by decide)).trans rfl
  exact .take first (.stop (Terminal.first_nil _))

end PhpGate
