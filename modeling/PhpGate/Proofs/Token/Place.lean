import PhpGate.Proofs.Token.Scan

/-!
Where tokens stand. The places of later lexemes are those they would have alone, moved by the length
and the line feeds of the text in front of them; blanks and comments only move what follows.
-/

namespace PhpGate

open Text Lexing

variable {offset line : Nat} {l : Lexeme} {ls ls' : List Lexeme}

/-- The tokens among lexemes of which the first has the given place. -/
def tokensFrom (offset line : Nat) (ls : List Lexeme) : List Token :=
  (locateFrom offset line ls).filter fun token => !token.terminal.isTrivia

namespace Token

/-- The same token with more text in front of it on its line. -/
def shift (n : Nat) (token : Token) : Token :=
  { token with offset := token.offset + n }

/-- The same token with more text at its end. -/
def extend (w : Text) (token : Token) : Token :=
  { token with text := token.text ++ w }

end Token

/-- The tokens with more text at the end of the last one. -/
def extendLast (w : Text) : List Token → List Token
  | [] => []
  | [token] => [token.extend w]
  | token :: next :: rest => token :: extendLast w (next :: rest)

theorem extendLast_concat (w : Text) (ts : List Token) (token : Token) :
    extendLast w (ts ++ [token]) = ts ++ [token.extend w] := by
  induction ts with
  | nil => rfl
  | cons first ts ih =>
      cases ts with
      | nil => rfl
      | cons second ts =>
          simp only [List.cons_append, extendLast] at ih ⊢
          rw [ih]

theorem tokens_eq_tokensFrom (t : Text) : tokens t = tokensFrom 0 1 (Lexing.of t).lexemes := rfl

theorem tokensFrom_token (token : l.terminal.isTrivia = false) :
    tokensFrom offset line (l :: ls)
      = ⟨l, offset, line⟩ :: tokensFrom (offset + l.text.length) (line + l.text.newlines) ls := by
  simp [tokensFrom, locateFrom, token]

theorem tokensFrom_trivia (trivia : l.terminal.isTrivia = true) :
    tokensFrom offset line (l :: ls)
      = tokensFrom (offset + l.text.length) (line + l.text.newlines) ls := by
  simp [tokensFrom, locateFrom, trivia]

theorem tokensFrom_singleton_trivia (trivia : l.terminal.isTrivia = true) :
    tokensFrom offset line [l] = [] :=
  tokensFrom_trivia trivia

theorem newlines_append (u v : Text) : (u ++ v).newlines = u.newlines + v.newlines :=
  List.count_append

theorem map_locateFrom (offset line : Nat) (ls : List Lexeme) :
    (locateFrom offset line ls).map Token.toLexeme = ls := by
  induction ls generalizing offset line with
  | nil => rfl
  | cons l ls ih => rw [locateFrom, List.map_cons, ih]

theorem locateFrom_append :
    locateFrom offset line (ls ++ ls') = locateFrom offset line ls
      ++ locateFrom (offset + (ls.flatMap Lexeme.text).length)
          (line + newlines (ls.flatMap Lexeme.text)) ls' := by
  induction ls generalizing offset line with
  | nil => rfl
  | cons l ls ih =>
      simp only [List.cons_append, locateFrom, ih, List.flatMap_cons, List.length_append,
        newlines_append, Nat.add_assoc]

theorem tokensFrom_append :
    tokensFrom offset line (ls ++ ls') = tokensFrom offset line ls
      ++ tokensFrom (offset + (ls.flatMap Lexeme.text).length)
          (line + newlines (ls.flatMap Lexeme.text)) ls' := by
  rw [tokensFrom, locateFrom_append, List.filter_append]
  rfl

theorem tokensFrom_shift (n : Nat) :
    tokensFrom (offset + n) line ls = (tokensFrom offset line ls).map (Token.shift n) := by
  induction ls generalizing offset line with
  | nil => rfl
  | cons l ls ih =>
      have moved : offset + n + l.text.length = offset + l.text.length + n := by omega
      cases trivia : l.terminal.isTrivia with
      | true => rw [tokensFrom_trivia trivia, tokensFrom_trivia trivia, moved, ih]
      | false =>
          rw [tokensFrom_token trivia, tokensFrom_token trivia, moved, ih]
          rfl

/-- A located lexeme stands where the lexemes in front of it end. -/
theorem exists_of_mem_locateFrom {token : Token} (mem : token ∈ locateFrom offset line ls) :
    ∃ front back, ls = front ++ token.toLexeme :: back ∧
      token.offset = offset + (front.flatMap Lexeme.text).length ∧
      token.line = line + newlines (front.flatMap Lexeme.text) := by
  induction ls generalizing offset line with
  | nil => cases mem
  | cons l ls ih =>
      obtain rfl | later := List.mem_cons.mp mem
      · exact ⟨[], ls, rfl, rfl, rfl⟩
      · obtain ⟨front, back, rfl, place, number⟩ := ih later
        refine ⟨l :: front, back, rfl, ?_, ?_⟩
        · rw [place, List.flatMap_cons, List.length_append, Nat.add_assoc]
        · rw [number, List.flatMap_cons, newlines_append, Nat.add_assoc]

theorem line_of_mem_tokensFrom {token : Token}
    (mem : token ∈ tokensFrom offset line ls) :
    line ≤ token.line ∧ token.line ≤ line + newlines (ls.flatMap Lexeme.text) := by
  obtain ⟨front, back, rfl, -, number⟩ := exists_of_mem_locateFrom (List.mem_filter.mp mem).1
  rw [List.flatMap_append, newlines_append]
  omega

theorem line_of_mem_extendLast {w : Text} {ts : List Token} {token : Token}
    (mem : token ∈ extendLast w ts) :
    ∃ token' ∈ ts, token'.line = token.line := by
  fun_induction extendLast w ts with
  | case1 => cases mem
  | case2 last =>
      obtain rfl := List.mem_singleton.mp mem
      exact ⟨last, List.mem_singleton_self _, rfl⟩
  | case3 first second rest ih =>
      obtain rfl | later := List.mem_cons.mp mem
      · exact ⟨token, List.mem_cons_self, rfl⟩
      · obtain ⟨token', mem', same⟩ := ih later
        exact ⟨token', List.mem_cons_of_mem _ mem', same⟩

/-- Every lexeme of a run stands at its offset, and its line counts the line feeds in front of it. -/
theorem Lexes.place_of_mem {t rest : Text} {token : Token} (run : Lexes [] t ls rest)
    (mem : token ∈ locateFrom 0 1 ls) :
    token.text <+: t.drop token.offset ∧ token.line = 1 + newlines (t.take token.offset) := by
  obtain ⟨front, back, rfl, place, number⟩ := exists_of_mem_locateFrom mem
  rw [Nat.zero_add] at place
  have whole := run.eq_append
  rw [List.flatMap_append, List.flatMap_cons, List.append_assoc, List.append_assoc] at whole
  rw [place, number, whole, List.drop_left, List.take_left]
  exact ⟨List.prefix_append _ _, rfl⟩

theorem exists_of_mem_tokens {t : Text} {token : Token} (mem : token ∈ tokens t) :
    ∃ front back, (Lexing.of t).lexemes = front ++ token.toLexeme :: back ∧
      token.offset = (front.flatMap Lexeme.text).length ∧
      token.line = 1 + newlines (front.flatMap Lexeme.text) := by
  obtain ⟨front, back, split, place, number⟩ := exists_of_mem_locateFrom (List.mem_filter.mp mem).1
  exact ⟨front, back, split, by rw [place, Nat.zero_add], number⟩

/-- The line of a token counts the line feeds in front of it. -/
theorem line_of_mem_tokens {t : Text} {token : Token} (mem : token ∈ tokens t) :
    token.line = 1 + newlines (t.take token.offset) :=
  ((Lexes.of t).place_of_mem (List.mem_filter.mp mem).1).2

/-- At the offset of a token its text stands, and its terminal won there. -/
theorem first_of_mem_tokens {t : Text} {token : Token} (mem : token ∈ tokens t) :
    ∃ before r, t.drop token.offset = token.text ++ r ∧
      Terminal.first? before (token.text ++ r) = some (token.terminal, token.text.length) := by
  obtain ⟨front, back, split, place, -⟩ := exists_of_mem_tokens mem
  have run := Lexes.of t
  rw [split] at run
  have whole := run.eq_append
  obtain ⟨first, -⟩ := (takes_append.mp run.takes).2
  rw [List.flatMap_append, List.flatMap_cons, List.append_assoc, List.append_assoc] at whole
  refine ⟨_, _, ?_, first⟩
  rw [place]
  exact (congrArg (List.drop _) whole).trans List.drop_left

end PhpGate
