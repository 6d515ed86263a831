import PhpGate.Proofs.Token.Extent

/-!
Runs of the lexer as a relation between a text, the lexemes taken from its start and the rest at
which no terminal matches. The relation holds for exactly one run from every place, and the lexemes
of a run make up the text before the rest.
-/

namespace PhpGate

open Text

/-- From its start on, a text gives these lexemes up to the rest. What stands in front of it is
given in reverse. -/
inductive Lexes : (before t : Text) → List Lexeme → (rest : Text) → Prop
  | stop {before t : Text} (stuck : Terminal.first? before t = none) : Lexes before t [] t
  | take {before w r rest : Text} {k : Terminal} {ls : List Lexeme}
      (first : Terminal.first? before (w ++ r) = some (k, w.length))
      (later : Lexes (w.reverse ++ before) r ls rest) : Lexes before (w ++ r) (⟨k, w⟩ :: ls) rest

namespace Lexing

theorem scanAfter_skip (before w r : Text) :
    scanAfter before w.length (w ++ r) = scanAfter (w.reverse ++ before) 0 r := by
  induction w generalizing before with
  | nil => rfl
  | cons c w ih => simpa [scanAfter] using ih (c :: before)

theorem scanAfter_take {before w r : Text} {k : Terminal}
    (first : Terminal.first? before (w ++ r) = some (k, w.length)) :
    scanAfter before 0 (w ++ r) = add ⟨k, w⟩ (scanAfter (w.reverse ++ before) 0 r) := by
  cases w with
  | nil =>
      have := (Terminal.first_fits first).1
      contradiction
  | cons c w =>
      simp only [List.cons_append, List.length_cons] at first
      simp only [List.cons_append, scanAfter, first, List.take_left, scanAfter_skip]
      simp

theorem scanAfter_stop {before t : Text} (stuck : Terminal.first? before t = none) :
    scanAfter before 0 t = ⟨[], t⟩ := by
  cases t with
  | nil => rfl
  | cons c r => simp [scanAfter, stuck]

end Lexing

namespace Lexes

theorem scanAfter_eq {before t rest : Text} {ls : List Lexeme} (h : Lexes before t ls rest) :
    Lexing.scanAfter before 0 t = ⟨ls, rest⟩ := by
  induction h with
  | stop stuck => exact Lexing.scanAfter_stop stuck
  | take first _ ih =>
      rw [Lexing.scanAfter_take first, ih]
      rfl

/-- There is a run from every place: what the lexer takes is never empty. -/
theorem total (before t : Text) : ∃ ls rest, Lexes before t ls rest := by
  induction hn : t.length using Nat.strongRecOn generalizing before t with
  | ind n ih =>
      cases found : Terminal.first? before t with
      | none => exact ⟨[], t, .stop found⟩
      | some taken =>
          obtain ⟨k, m⟩ := taken
          obtain ⟨pos, le⟩ := Terminal.first_fits found
          have shorter : (t.drop m).length < n := by
            simp only [List.length_drop]
            omega
          obtain ⟨ls, rest, later⟩ := ih _ shorter ((t.take m).reverse ++ before) (t.drop m) rfl
          have whole : t.take m ++ t.drop m = t := List.take_append_drop m t
          have first : Terminal.first? before (t.take m ++ t.drop m)
              = some (k, (t.take m).length) := by
            rw [whole, found, List.length_take_of_le le]
          refine ⟨⟨k, t.take m⟩ :: ls, rest, ?_⟩
          simpa only [whole] using Lexes.take first later

theorem iff_scanAfter {before t rest : Text} {ls : List Lexeme} :
    Lexes before t ls rest ↔ Lexing.scanAfter before 0 t = ⟨ls, rest⟩ := by
  refine ⟨scanAfter_eq, fun h => ?_⟩
  obtain ⟨ls', rest', run⟩ := total before t
  cases h.symm.trans run.scanAfter_eq
  exact run

theorem unique {before t rest rest' : Text} {ls ls' : List Lexeme}
    (h : Lexes before t ls rest) (h' : Lexes before t ls' rest') : ls = ls' ∧ rest = rest' := by
  cases h.scanAfter_eq.symm.trans h'.scanAfter_eq
  exact ⟨rfl, rfl⟩

theorem of (t : Text) : Lexes [] t (Lexing.of t).lexemes (Lexing.of t).rest :=
  iff_scanAfter.mpr rfl

theorem eq_append {before t rest : Text} {ls : List Lexeme} (h : Lexes before t ls rest) :
    t = ls.flatMap Lexeme.text ++ rest := by
  induction h with
  | stop => rfl
  | take _ _ ih =>
      rw [List.flatMap_cons, List.append_assoc, ← ih]

theorem length_pos {before t rest : Text} {ls : List Lexeme} (h : Lexes before t ls rest)
    (nonempty : ls ≠ []) : 0 < t.length := by
  cases h with
  | stop => contradiction
  | take first later =>
      have fits := Terminal.first_fits first
      exact Nat.lt_of_lt_of_le fits.1 fits.2

/-- At every lexeme of a run its terminal won, and the run goes on behind it. -/
theorem exists_of_append {before t rest : Text} {front back : List Lexeme} {l : Lexeme}
    (h : Lexes before t (front ++ l :: back) rest) :
    ∃ before' r, Terminal.first? before' (l.text ++ r) = some (l.terminal, l.text.length) ∧
      Lexes (l.text.reverse ++ before') r back rest := by
  generalize whole : front ++ l :: back = ls at h
  induction h generalizing front with
  | stop => simp at whole
  | take first later ih =>
      cases front with
      | nil =>
          cases whole
          exact ⟨_, _, first, later⟩
      | cons m front => exact ih (List.cons.inj whole).2

theorem first_of_mem {before t rest : Text} {ls : List Lexeme} {l : Lexeme}
    (h : Lexes before t ls rest) (mem : l ∈ ls) :
    ∃ before' r, Terminal.first? before' (l.text ++ r) = some (l.terminal, l.text.length) := by
  obtain ⟨front, back, rfl⟩ := List.append_of_mem mem
  obtain ⟨before', r, first, -⟩ := h.exists_of_append
  exact ⟨before', r, first⟩

end Lexes

/-- From a place on the lexer takes these lexemes, one after the other, if `r` stands behind them. -/
def Takes : (before : Text) → List Lexeme → (r : Text) → Prop
  | _, [], _ => True
  | before, l :: ls, r =>
      Terminal.first? before (l.text ++ (ls.flatMap Lexeme.text ++ r))
          = some (l.terminal, l.text.length) ∧
        Takes (l.text.reverse ++ before) ls r

theorem Takes.lexes {before r rest : Text} {ls ls' : List Lexeme} (h : Takes before ls r)
    (run : Lexes ((ls.flatMap Lexeme.text).reverse ++ before) r ls' rest) :
    Lexes before (ls.flatMap Lexeme.text ++ r) (ls ++ ls') rest := by
  induction ls generalizing before with
  | nil => exact run
  | cons l ls ih =>
      rw [List.flatMap_cons, List.append_assoc]
      exact .take h.1 (ih h.2 (by simpa using run))

theorem Lexes.takes {before t rest : Text} {ls : List Lexeme} (h : Lexes before t ls rest) :
    Takes before ls rest := by
  induction h with
  | stop => trivial
  | take first later ih => exact ⟨later.eq_append ▸ first, ih⟩

theorem takes_append {before r : Text} {ls ls' : List Lexeme} :
    Takes before (ls ++ ls') r ↔
      Takes before ls (ls'.flatMap Lexeme.text ++ r) ∧
        Takes ((ls.flatMap Lexeme.text).reverse ++ before) ls' r := by
  induction ls generalizing before with
  | nil => simp [Takes]
  | cons l ls ih =>
      rw [List.cons_append, Takes, Takes, ih, List.flatMap_cons, List.flatMap_append,
        List.reverse_append, List.append_assoc, List.append_assoc, and_assoc]

namespace Lexes

variable {before a b t rest : Text} {ls ls' : List Lexeme} {l : Lexeme}

theorem first (h : Lexes before t (l :: ls) rest) :
    Terminal.first? before t = some (l.terminal, l.text.length) := by
  cases h with
  | take first _ => exact first

/-- The first lexeme of a run is the one that wins. -/
theorem exists_cons {w r : Text} {k : Terminal} (run : Lexes before (w ++ r) ls rest)
    (first : Terminal.first? before (w ++ r) = some (k, w.length)) :
    ∃ ls', ls = ⟨k, w⟩ :: ls' ∧ Lexes (w.reverse ++ before) r ls' rest := by
  obtain ⟨ls', rest', later⟩ := Lexes.total (w.reverse ++ before) r
  obtain ⟨rfl, rfl⟩ := run.unique (.take first later)
  exact ⟨ls', rfl, later⟩

/-- A run goes on where some of its lexemes end. -/
theorem split (h : Lexes before (a ++ b) (ls ++ ls') rest) (place : ls.flatMap Lexeme.text = a) :
    Takes before ls b ∧ Lexes (a.reverse ++ before) b ls' rest := by
  subst place
  induction ls generalizing before with
  | nil => exact ⟨trivial, h⟩
  | cons l ls ih =>
      rw [List.flatMap_cons] at h ⊢
      rw [List.append_assoc] at h
      have first := h.first
      generalize whole : l.text ++ (ls.flatMap Lexeme.text ++ b) = t at h
      cases h with
      | take _ later =>
          obtain rfl := List.append_cancel_left whole
          obtain ⟨takes, behind⟩ := ih later
          exact ⟨⟨first, takes⟩, by simpa using behind⟩

end Lexes

/-- The lexemes that are tokens. -/
def significant (ls : List Lexeme) : List Lexeme :=
  ls.filter fun l => !l.terminal.isTrivia

theorem significant_append (ls ls' : List Lexeme) :
    significant (ls ++ ls') = significant ls ++ significant ls' :=
  List.filter_append ..

theorem locateFrom_tokens (offset line : Nat) (ls : List Lexeme) :
    ((Lexing.locateFrom offset line ls).filter fun token => !token.terminal.isTrivia).map
      Token.toLexeme = significant ls := by
  induction ls generalizing offset line with
  | nil => rfl
  | cons l ls ih =>
      cases trivia : l.terminal.isTrivia with
      | true => simpa [Lexing.locateFrom, significant, trivia] using ih _ _
      | false => simpa [Lexing.locateFrom, significant, trivia] using ih _ _

theorem tokens_toLexeme (t : Text) :
    (tokens t).map Token.toLexeme = significant (Lexing.of t).lexemes :=
  locateFrom_tokens 0 1 _

/-- The terminals of the tokens of a text. -/
def terminals (t : Text) : List Terminal :=
  (tokens t).map fun token => token.terminal

theorem terminals_eq (t : Text) :
    terminals t = (significant (Lexing.of t).lexemes).map Lexeme.terminal := by
  simp [← tokens_toLexeme, terminals]

end PhpGate
