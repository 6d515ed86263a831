import PhpGate.Proofs.Token.Closing
import PhpGate.Proofs.Token.Place
import PhpGate.Proofs.Token.Stop

/-!
The lexemes of a text as a partition of it. They are taken one after the other, blanks and comments
among them, none of them is empty, and together they are the text up to its end or up to the place
where lexing stops. Markup that does not lead back to PHP is the last of them.
-/

namespace PhpGate

open Text

/-- What a run of the lexer has made of a text. -/
structure Lexing.Partitions (s : Lexing) (t : Text) : Prop where
  /-- There is one run, in which each lexeme is the match of the first terminal that has one. -/
  runs : ∀ ls rest, Lexes [] t ls rest ↔ ls = s.lexemes ∧ rest = s.rest
  ends : s.lexemes.length ≤ t.length
  nonempty : ∀ l ∈ s.lexemes, l.text ≠ []
  whole : s.complete = true → s.stop? = none ∧ s.consumed = t
  stopped : s.complete = false → ∃ stop, s.stop? = some stop ∧
    s.consumed = t.take stop.offset ∧ t[stop.offset]? = some stop.char ∧
    ∀ k, Terminal.length? (t.take stop.offset).reverse (t.drop stop.offset) k = none
  /-- Each lexeme is located once, in order. -/
  located : (Lexing.locateFrom 0 1 s.lexemes).map Token.toLexeme = s.lexemes
  /-- Every lexeme stands at its offset, on the line after as many line feeds. -/
  placed : ∀ token ∈ Lexing.locateFrom 0 1 s.lexemes,
    token.text <+: t.drop token.offset ∧ token.line = 1 + newlines (t.take token.offset)
  /-- Markup without an open tag at its end is the end of the text. -/
  markup : ∀ front l back, s.lexemes = front ++ l :: back → l.terminal = .inlineHtml →
    (∀ u tag, IsOpenTag tag → l.text ≠ u ++ tag) → back = [] ∧ s.rest = []

namespace Lexes

variable {before t rest : Text} {ls : List Lexeme} {l : Lexeme}

theorem ne_nil_of_mem (run : Lexes before t ls rest) (mem : l ∈ ls) : l.text ≠ [] := by
  obtain ⟨before', r, first⟩ := run.first_of_mem mem
  exact List.length_pos_iff.mp (Terminal.first_fits first).1

/-- A run has at most as many lexemes as the text has characters. -/
theorem length_le (run : Lexes before t ls rest) : ls.length ≤ t.length := by
  induction run with
  | stop => exact Nat.zero_le _
  | take first _ ih =>
      have positive := (Terminal.first_fits first).1
      simp only [List.length_cons, List.length_append]
      omega

end Lexes

theorem Lexeme.isOpenMarkup_of_markup {l : Lexeme} (markup : l.terminal = .inlineHtml)
    (closed : ∀ u tag, IsOpenTag tag → l.text ≠ u ++ tag) : l.isOpenMarkup = true := by
  rw [isOpenMarkup, markup, beq_self_eq_true, Bool.true_and, Bool.not_eq_true',
    ← Bool.not_eq_true]
  intro ends
  obtain ⟨u, tag, split, kind⟩ := isOpenTag_of_endsInOpenTag ends
  exact closed u tag kind split

theorem exists_stop {t : Text} (incomplete : (Lexing.of t).complete = false) :
    ∃ stop, (Lexing.of t).stop? = some stop := by
  have rest : (Lexing.of t).rest ≠ [] := by simpa [Lexing.complete] using incomplete
  obtain ⟨c, r, rest⟩ := List.exists_cons_of_ne_nil rest
  exact ⟨_, by rw [Lexing.stop?, rest]; rfl⟩

/-- Lexing ends on every text, and the lexemes partition what lies in front of the place where it
does. -/
theorem lexing_partitions (t : Text) : (Lexing.of t).Partitions t where
  runs := by
    intro ls rest
    constructor
    · exact fun run => run.unique (Lexes.of t)
    · rintro ⟨rfl, rfl⟩
      exact Lexes.of t
  ends := (Lexes.of t).length_le
  nonempty := fun l mem => (Lexes.of t).ne_nil_of_mem mem
  whole := by
    intro complete
    have rest : (Lexing.of t).rest = [] := List.isEmpty_iff.mp complete
    have whole := (Lexes.of t).eq_append
    rw [rest, List.append_nil] at whole
    exact ⟨by rw [Lexing.stop?, rest]; rfl, whole.symm⟩
  stopped := by
    intro incomplete
    obtain ⟨stop, stopped⟩ := exists_stop incomplete
    obtain ⟨r, rest, here⟩ := drop_offset_of_stop stopped
    refine ⟨stop, stopped, (take_offset_of_stop stopped).symm, ?_, ?_⟩
    · rw [← List.head?_drop, here, List.head?_cons]
    · have stuck := Terminal.first_eq_none_iff.mp (Lexes.of t).stuck
      rw [rest, List.append_nil] at stuck
      rw [here, take_offset_of_stop stopped]
      exact stuck
  located := map_locateFrom 0 1 _
  placed := fun _ mem => (Lexes.of t).place_of_mem mem
  markup := by
    intro front l back split markup closed
    have run := Lexes.of t
    rw [split] at run
    exact run.eq_nil_of_isOpenMarkup (Lexeme.isOpenMarkup_of_markup markup closed)

/-- Markup between two open tags, and a backtick that is not closed. -/
example : Lexing.of "<?=a?>b<?php \x60".toList
    = ⟨[⟨.openTag, "<?=".toList⟩, ⟨.name, ['a']⟩, ⟨.inlineHtml, "?>b<?php".toList⟩, ⟨.blank, [' ']⟩],
        ['\x60']⟩ := by
  decide +kernel

end PhpGate
