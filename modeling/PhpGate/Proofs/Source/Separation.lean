import PhpGate.Proofs.Source.Stripping
import PhpGate.Proofs.Token.Blank

/-!
Whether the tokens of a source survive when its comments are removed. What is left of the text is
its tokens with white space between them, and the lexer reads those tokens again just when each of
them is still what the lexer takes at its place.
-/

namespace PhpGate

open Text Source

/-- White space that the lexer takes as a blank from its first character on. -/
def IsGap (gap : Text) : Prop :=
  gap.all isBlank = true ∧ gap.head?.all isSpace = true

theorem IsGap.nil : IsGap [] := ⟨rfl, rfl⟩

theorem IsGap.append {a b : Text} (ha : IsGap a) (hb : IsGap b) : IsGap (a ++ b) := by
  refine ⟨by simp [ha.1, hb.1], ?_⟩
  cases a with
  | nil => exact hb.2
  | cons c a => exact ha.2

theorem isGap_keepNewlines (t : Text) : IsGap (keepNewlines t) := by
  rw [keepNewlines]
  generalize t.newlines = n
  refine ⟨?_, ?_⟩
  · rw [List.all_replicate]
    cases n <;> rfl
  · cases n <;> rfl

/-- A gap is one blank, if the text after it does not go on with white space. -/
theorem IsGap.first {gap r : Text} (h : IsGap gap) (nonempty : gap ≠ [])
    (ends : r.head?.any isBlank = false) (before : Text) :
    Terminal.first? before (gap ++ r) = some (.blank, gap.length) := by
  have length := blankLength_append h.1 ends
  obtain ⟨c, v, rfl⟩ := List.exists_cons_of_ne_nil nonempty
  rw [← length]
  exact first_of_isSpace h.2

/-- The white space between two tokens as a lexeme, if there is any. -/
def blankOf (gap : Text) : List Lexeme :=
  if gap = [] then [] else [⟨.blank, gap⟩]

/-- The lexemes that are left without comments: the tokens, and between two of them one blank with
all the white space that was there. -/
def withoutComments (gap : Text) : List Lexeme → List Lexeme
  | [] => blankOf gap
  | l :: ls =>
      if l.terminal.isTrivia then withoutComments (gap ++ l.stripped) ls
      else blankOf gap ++ l :: withoutComments [] ls

/-- The white space left at the end of some lexemes, behind their last token. -/
def leftBehind (ls : List Lexeme) : Text :=
  ls.foldl (fun gap l => if l.terminal.isTrivia then gap ++ l.stripped else []) []

/-- Between what is left of the lexemes around it, a token is what the lexer takes, and if it begins
with white space then no other white space has come to stand in front of it. -/
def StandsApart (front : List Lexeme) (l : Lexeme) (back : List Lexeme) : Prop :=
  Terminal.first? (front.flatMap Lexeme.stripped).reverse (l.text ++ back.flatMap Lexeme.stripped)
      = some (l.terminal, l.text.length) ∧
    (l.text.head?.any isBlank = true → leftBehind front = [])

theorem not_isComment_of_token {l : Lexeme} (token : l.terminal.isTrivia = false) :
    l.isComment = false := by
  obtain ⟨k, w⟩ := l
  cases k with
  | blank | lineComment | blockComment => cases token
  | _ => rfl

theorem stripped_of_token {l : Lexeme} (token : l.terminal.isTrivia = false) :
    l.stripped = l.text :=
  Lexeme.stripped_of_not_comment (not_isComment_of_token token)

theorem flatMap_blankOf (gap : Text) : (blankOf gap).flatMap Lexeme.text = gap := by
  rw [blankOf]
  split
  · rename_i empty
    rw [empty]
    rfl
  · simp

theorem significant_blankOf (gap : Text) : significant (blankOf gap) = [] := by
  rw [blankOf]
  split <;> rfl

theorem flatMap_withoutComments (gap : Text) (ls : List Lexeme) :
    (withoutComments gap ls).flatMap Lexeme.text = gap ++ ls.flatMap Lexeme.stripped := by
  induction ls generalizing gap with
  | nil => rw [withoutComments, flatMap_blankOf, List.flatMap_nil, List.append_nil]
  | cons l ls ih =>
      rw [withoutComments]
      cases token : l.terminal.isTrivia with
      | true => rw [if_pos rfl, ih, List.flatMap_cons, List.append_assoc]
      | false =>
          rw [if_neg (by simp), List.flatMap_append, flatMap_blankOf, List.flatMap_cons, ih,
            List.flatMap_cons, stripped_of_token token, List.nil_append]

theorem significant_withoutComments (gap : Text) (ls : List Lexeme) :
    significant (withoutComments gap ls) = significant ls := by
  induction ls generalizing gap with
  | nil => exact significant_blankOf gap
  | cons l ls ih =>
      rw [withoutComments]
      cases token : l.terminal.isTrivia with
      | true =>
          rw [if_pos rfl, ih]
          simp [significant, token]
      | false =>
          rw [if_neg (by simp), significant_append, significant_blankOf, List.nil_append]
          simp only [significant, List.filter_cons, token] at ih ⊢
          rw [ih]

theorem mem_withoutComments {gap : Text} {ls : List Lexeme} {m : Lexeme}
    (mem : m ∈ withoutComments gap ls) :
    m.terminal = .blank ∨ (m ∈ ls ∧ m.terminal.isTrivia = false) := by
  have space (gap : Text) (mem : m ∈ blankOf gap) : m.terminal = .blank := by
    rw [blankOf] at mem
    split at mem
    · cases mem
    · rw [List.mem_singleton.mp mem]
  induction ls generalizing gap with
  | nil => exact .inl (space gap mem)
  | cons l ls ih =>
      rw [withoutComments] at mem
      split at mem
      · exact (ih mem).imp_right fun later => ⟨List.mem_cons_of_mem _ later.1, later.2⟩
      · rename_i token
        obtain here | mem := List.mem_append.mp mem
        · exact .inl (space gap here)
        · obtain rfl | later := List.mem_cons.mp mem
          · exact .inr ⟨List.mem_cons_self, Bool.eq_false_iff.mpr token⟩
          · exact (ih later).imp_right fun later => ⟨List.mem_cons_of_mem _ later.1, later.2⟩

section Run

variable {before t rest : Text} {l : Lexeme} {ls : List Lexeme}

/-- What trivia leave is a gap. -/
theorem Lexeme.isGap_stripped {r : Text}
    (first : Terminal.first? before (l.text ++ r) = some (l.terminal, l.text.length))
    (trivia : l.terminal.isTrivia = true) : IsGap l.stripped := by
  obtain ⟨k, w⟩ := l
  cases k with
  | lineComment | blockComment => exact isGap_keepNewlines w
  | blank =>
      rw [Lexeme.stripped_of_not_comment rfl]
      obtain ⟨space, length⟩ := isSpace_of_first_blank first
      obtain ⟨c, v, rfl⟩ := List.exists_cons_of_length_pos (Terminal.first_fits first).1
      have taken : ((c :: v) ++ r).takeWhile isBlank = c :: v := by
        have front := List.prefix_iff_eq_take.mp
          (List.takeWhile_prefix (l := (c :: v) ++ r) isBlank)
        rw [← blankLength, ← length, List.take_left] at front
        exact front
      refine ⟨?_, space⟩
      rw [← taken]
      exact List.all_takeWhile
  | _ => cases trivia

theorem Lexes.isGap_stripped (run : Lexes before t ls rest) (mem : l ∈ ls)
    (trivia : l.terminal.isTrivia = true) : IsGap l.stripped := by
  obtain ⟨before', r, first⟩ := run.first_of_mem mem
  exact l.isGap_stripped first trivia

/-- No token starts with white space that the lexer would take as a blank. -/
theorem Lexes.token_start (run : Lexes before t ls rest) (mem : l ∈ ls)
    (token : l.terminal.isTrivia = false) : ∃ c v, l.text = c :: v ∧ isSpace c = false := by
  obtain ⟨before', r, first⟩ := run.first_of_mem mem
  obtain ⟨c, v, text⟩ := List.exists_cons_of_length_pos (Terminal.first_fits first).1
  refine ⟨c, v, text, ?_⟩
  rw [text, List.cons_append] at first
  refine not_isSpace_of_first first ?_
  intro blank
  rw [blank] at token
  cases token

/-- Where no blank can start, the first lexeme of a run without comments is its first token. -/
theorem Lexes.first_token {ls' : List Lexeme} (run : Lexes before t ls [])
    (same : significant ls = l :: ls')
    (blanks : ∀ m ∈ ls, m.terminal.isTrivia = true → m.terminal = .blank)
    (start : t.head?.any isSpace = false) :
    ∃ r later, ls = l :: later ∧ t = l.text ++ r ∧ significant later = ls' ∧
      Lexes (l.text.reverse ++ before) r later [] := by
  cases run with
  | stop => cases same
  | @take _ w r _ k later first run =>
      have token : k.isTrivia = false := by
        cases trivia : k.isTrivia with
        | false => rfl
        | true =>
            obtain rfl : k = .blank := blanks _ List.mem_cons_self trivia
            rw [(isSpace_of_first_blank first).1] at start
            cases start
      have tokens : significant (⟨k, w⟩ :: later) = ⟨k, w⟩ :: significant later := by
        simp [significant, token]
      rw [tokens] at same
      obtain ⟨rfl, rest⟩ := List.cons.inj same
      exact ⟨r, later, rfl, rfl, rest, run⟩

theorem any_isSpace_of_any_isBlank (h : t.head?.any isBlank = false) :
    t.head?.any isSpace = false := by
  cases t with
  | nil => rfl
  | cons c r =>
      have blank : isBlank c = false := h
      simp [isSpace, blank]

/-- Where a blank can start, the first lexeme is a blank with all the white space there. -/
theorem Lexes.first_blank (run : Lexes before t ls []) (start : t.head?.any isSpace = true) :
    ∃ later, ls = ⟨.blank, t.takeWhile isBlank⟩ :: later ∧
      Lexes ((t.takeWhile isBlank).reverse ++ before) (t.dropWhile isBlank) later [] := by
  obtain ⟨later, rest, further⟩ :=
    Lexes.total ((t.takeWhile isBlank).reverse ++ before) (t.dropWhile isBlank)
  have split : t.takeWhile isBlank ++ t.dropWhile isBlank = t := List.takeWhile_append_dropWhile
  have first : Terminal.first? before (t.takeWhile isBlank ++ t.dropWhile isBlank)
      = some (.blank, (t.takeWhile isBlank).length) := by
    rw [split]
    cases t with
    | nil => cases start
    | cons c r => exact first_of_isSpace start
  have whole := Lexes.take first further
  rw [split] at whole
  obtain ⟨rfl, rfl⟩ := run.unique whole
  exact ⟨later, rfl, further⟩

/-- The characters of a text that are no white space. -/
def inked (t : Text) : Text :=
  t.filter fun c => !isBlank c

theorem length_inked_flatMap (ls : List Lexeme) :
    (inked (ls.flatMap Lexeme.text)).length = (inked ((significant ls).flatMap Lexeme.text)).length
      + (inked ((ls.filter fun l => l.terminal.isTrivia).flatMap Lexeme.text)).length := by
  induction ls with
  | nil => rfl
  | cons l ls ih =>
      simp only [inked, significant] at ih
      cases token : l.terminal.isTrivia with
      | true =>
          simp [inked, significant, token, ih]
          omega
      | false =>
          simp [inked, significant, token, ih]
          omega

theorem inked_of_all {t : Text} (h : t.all isBlank = true) : inked t = [] := by
  rw [inked, List.filter_eq_nil_iff]
  intro c mem
  simp [List.all_eq_true.mp h c mem]

theorem inked_stripped
    (gaps : ∀ m ∈ ls, m.terminal.isTrivia = true → IsGap m.stripped) :
    inked (ls.flatMap Lexeme.stripped) = inked ((significant ls).flatMap Lexeme.text) := by
  induction ls with
  | nil => rfl
  | cons l ls ih =>
      obtain ⟨gapHere, gaps⟩ := List.forall_mem_cons.mp gaps
      have ih := ih gaps
      simp only [inked, significant] at ih
      cases token : l.terminal.isTrivia with
      | true =>
          have none := inked_of_all (gapHere token).1
          rw [inked] at none
          simp [inked, significant, token, ih, none]
      | false => simp [inked, significant, token, ih, stripped_of_token token]

theorem Lexeme.blank_of_not_comment (trivia : l.terminal.isTrivia = true)
    (h : l.isComment = false) : l.terminal = .blank := by
  obtain ⟨k, w⟩ := l
  cases k with
  | blank => rfl
  | lineComment | blockComment => cases h
  | _ => cases trivia

theorem Lexeme.comment_start {r : Text} (h : l.isComment = true)
    (first : Terminal.first? before (l.text ++ r) = some (l.terminal, l.text.length)) :
    ∃ c v, l.text = c :: v ∧ isBlank c = false := by
  obtain ⟨c, v, text, head⟩ := Lexeme.comment_sign h first
  refine ⟨c, v, text, ?_⟩
  obtain rfl | rfl := head <;> rfl

/-- If some lexemes are read from what is left of others and have the same tokens, there is no
comment among them: a comment would show. -/
theorem Lexes.blank_of_same_tokens {ls' : List Lexeme}
    (run : Lexes before (ls.flatMap Lexeme.stripped) ls' [])
    (same : significant ls' = significant ls)
    (gaps : ∀ m ∈ ls, m.terminal.isTrivia = true → IsGap m.stripped) :
    ∀ m ∈ ls', m.terminal.isTrivia = true → m.terminal = .blank := by
  have text := run.eq_append
  have inkedHere := length_inked_flatMap ls'
  rw [List.append_nil] at text
  rw [← text, inked_stripped gaps, same] at inkedHere
  have none : inked ((ls'.filter fun l => l.terminal.isTrivia).flatMap Lexeme.text) = [] :=
    List.eq_nil_of_length_eq_zero (by omega)
  intro m mem trivia
  cases comment : m.isComment with
  | false => exact Lexeme.blank_of_not_comment trivia comment
  | true =>
      obtain ⟨before', r, first⟩ := run.first_of_mem mem
      obtain ⟨c, v, text, ink⟩ := Lexeme.comment_start comment first
      have within : c ∈ (ls'.filter fun l => l.terminal.isTrivia).flatMap Lexeme.text :=
        List.mem_flatMap.mpr ⟨m, List.mem_filter.mpr ⟨mem, trivia⟩, by rw [text]; simp⟩
      have seen : c ∈ inked ((ls'.filter fun l => l.terminal.isTrivia).flatMap Lexeme.text) :=
        List.mem_filter.mpr ⟨within, by rw [ink]; rfl⟩
      rw [none] at seen
      cases seen

/-- If the tokens of a run without comments begin with the one that stands behind a gap, then the run
begins with that gap and that token. -/
theorem Lexes.token_behind_gap {gap u : Text} {ls' : List Lexeme}
    (run : Lexes before (gap ++ (l.text ++ u)) ls []) (same : significant ls = l :: ls')
    (blanks : ∀ m ∈ ls, m.terminal.isTrivia = true → m.terminal = .blank) (space : IsGap gap)
    (start : ∃ c v, l.text = c :: v ∧ isSpace c = false) :
    ∃ later before', ls = blankOf gap ++ l :: later ∧ significant later = ls' ∧
      Lexes before' u later [] := by
  obtain ⟨c, v, text, start⟩ := start
  rw [blankOf]
  split
  · rename_i empty
    rw [empty, List.nil_append] at run
    have start : (l.text ++ u).head?.any isSpace = false := by
      rw [text]
      exact start
    obtain ⟨r, later, rfl, split, same, run⟩ := run.first_token same blanks start
    obtain rfl := List.append_cancel_left split
    exact ⟨later, _, rfl, same, run⟩
  · rename_i nonempty
    have starts : (gap ++ (l.text ++ u)).head?.any isSpace = true := by
      obtain ⟨d, w, rfl⟩ := List.exists_cons_of_ne_nil nonempty
      exact space.2
    have all := List.all_eq_true.mp space.1
    obtain ⟨later, rfl, further⟩ := run.first_blank starts
    rw [List.dropWhile_append_of_pos all, List.takeWhile_append_of_pos all] at further
    have tokens : significant later = l :: ls' := same
    have ends := any_head_dropWhile isBlank (l.text ++ u)
    obtain ⟨r, later, rfl, split, tokens, further⟩ := further.first_token tokens
      (fun m mem => blanks m (List.mem_cons_of_mem _ mem)) (any_isSpace_of_any_isBlank ends)
    -- The blank ends at the token's first character, so it is the gap and nothing of the token.
    have first : isBlank c = false := by
      rw [split, text] at ends
      exact ends
    have whole : (l.text ++ u).dropWhile isBlank = l.text ++ u := by simp [text, first]
    have none : (l.text ++ u).takeWhile isBlank = [] := by simp [text, first]
    obtain rfl := List.append_cancel_left (split.symm.trans whole)
    rw [List.takeWhile_append_of_pos all, none, List.append_nil]
    exact ⟨later, _, rfl, tokens, further⟩

/-- A run without comments over what is left of some lexemes, with the same tokens, has between two
of them exactly the white space that is left there. -/
theorem Lexes.eq_withoutComments {gap : Text} {ls' : List Lexeme}
    (run : Lexes before (gap ++ ls.flatMap Lexeme.stripped) ls' [])
    (same : significant ls' = significant ls)
    (blanks : ∀ m ∈ ls', m.terminal.isTrivia = true → m.terminal = .blank) (space : IsGap gap)
    (gaps : ∀ m ∈ ls, m.terminal.isTrivia = true → IsGap m.stripped)
    (starts : ∀ m ∈ ls, m.terminal.isTrivia = false → ∃ c v, m.text = c :: v ∧ isSpace c = false) :
    ls' = withoutComments gap ls := by
  induction ls generalizing before gap ls' with
  | nil =>
      rw [List.flatMap_nil] at run
      rw [withoutComments, blankOf]
      split
      · rename_i empty
        rw [empty] at run
        exact (run.unique (.stop (Terminal.first_nil _))).1
      · rename_i nonempty
        have whole : Lexes before (gap ++ []) [⟨.blank, gap⟩] [] :=
          .take (space.first nonempty rfl before) (.stop (Terminal.first_nil _))
        exact (run.unique whole).1
  | cons l ls ih =>
      obtain ⟨gapHere, gaps⟩ := List.forall_mem_cons.mp gaps
      obtain ⟨startHere, starts⟩ := List.forall_mem_cons.mp starts
      rw [withoutComments]
      cases token : l.terminal.isTrivia with
      | true =>
          have tokens : significant (l :: ls) = significant ls := by simp [significant, token]
          rw [tokens] at same
          rw [List.flatMap_cons, ← List.append_assoc] at run
          rw [if_pos rfl]
          exact ih run same blanks (space.append (gapHere token)) gaps starts
      | false =>
          have tokens : significant (l :: ls) = l :: significant ls := by simp [significant, token]
          rw [tokens] at same
          rw [List.flatMap_cons, stripped_of_token token] at run
          obtain ⟨later, before', rfl, same, run⟩ :=
            run.token_behind_gap same blanks space (startHere token)
          have blanks : ∀ m ∈ later, m.terminal.isTrivia = true → m.terminal = .blank := by
            intro m mem
            exact blanks m (List.mem_append_right _ (List.mem_cons_of_mem _ mem))
          rw [if_neg (by simp), ih run same blanks .nil gaps starts]

end Run

theorem leftBehind_trivia (front : List Lexeme) {l : Lexeme} (trivia : l.terminal.isTrivia = true) :
    leftBehind (front ++ [l]) = leftBehind front ++ l.stripped := by
  simp [leftBehind, trivia]

theorem leftBehind_token (front : List Lexeme) {l : Lexeme} (token : l.terminal.isTrivia = false) :
    leftBehind (front ++ [l]) = [] := by
  simp [leftBehind, token]

/-- A gap is read as one blank just when no white space follows it. -/
theorem IsGap.first_iff {gap r : Text} (h : IsGap gap) (nonempty : gap ≠ []) (before : Text) :
    Terminal.first? before (gap ++ r) = some (.blank, gap.length) ↔ r.head?.any isBlank = false := by
  refine ⟨fun first => ?_, fun ends => h.first nonempty ends before⟩
  have length := (isSpace_of_first_blank first).2
  cases r with
  | nil => rfl
  | cons c r =>
      cases blank : isBlank c with
      | false => exact blank
      | true =>
          rw [blankLength, List.takeWhile_append_of_pos (List.all_eq_true.mp h.1)] at length
          simp [blank] at length

theorem takes_blankOf_iff {gap r before : Text} {l : Lexeme} {ls : List Lexeme} (h : IsGap gap)
    (text : l.text ≠ []) :
    Takes before (blankOf gap ++ l :: ls) r ↔
      (Terminal.first? (gap.reverse ++ before) (l.text ++ (ls.flatMap Lexeme.text ++ r))
          = some (l.terminal, l.text.length) ∧ (l.text.head?.any isBlank = true → gap = [])) ∧
        Takes (l.text.reverse ++ (gap.reverse ++ before)) ls r := by
  rw [blankOf]
  split
  · rename_i empty
    subst empty
    simp [Takes]
  · rename_i nonempty
    have head : ((l :: ls).flatMap Lexeme.text ++ r).head?.any isBlank = l.text.head?.any isBlank := by
      obtain ⟨c, v, split⟩ := List.exists_cons_of_ne_nil text
      rw [List.flatMap_cons, split]
      rfl
    have blank := h.first_iff (r := (l :: ls).flatMap Lexeme.text ++ r) nonempty before
    rw [head, ← Bool.not_eq_true] at blank
    simp only [List.singleton_append, Takes, blank, nonempty, imp_false]
    constructor
    · rintro ⟨ends, first, later⟩
      exact ⟨⟨first, ends⟩, later⟩
    · rintro ⟨⟨first, ends⟩, later⟩
      exact ⟨ends, first, later⟩

theorem forall_split_cons {l : Lexeme} {ls : List Lexeme}
    {p : List Lexeme → Lexeme → List Lexeme → Prop} :
    (∀ inner x back, l :: ls = inner ++ x :: back → p inner x back) ↔
      p [] l ls ∧ ∀ inner x back, ls = inner ++ x :: back → p (l :: inner) x back := by
  constructor
  · intro h
    exact ⟨h [] l ls rfl, fun inner x back split => h (l :: inner) x back (by rw [split]; rfl)⟩
  · rintro ⟨here, later⟩ inner x back split
    cases inner with
    | nil =>
        cases split
        exact here
    | cons l' inner =>
        cases split
        exact later inner x back rfl

/-- Whether something holds wherever a list is split is decided one element after the other. -/
def decidableSplits (p : List Lexeme → Lexeme → List Lexeme → Prop)
    [∀ inner x back, Decidable (p inner x back)] :
    (ls : List Lexeme) → Decidable (∀ inner x back, ls = inner ++ x :: back → p inner x back)
  | [] => isTrue fun inner x back split => by simp at split
  | l :: ls =>
      have := decidableSplits (fun inner x back => p (l :: inner) x back) ls
      decidable_of_iff _ forall_split_cons.symm

/-- The lexer reads the tokens and the white space that are left just when every token stands
apart. -/
theorem takes_withoutComments_iff (front : List Lexeme) {ls : List Lexeme} {u : Text}
    (split : front.flatMap Lexeme.stripped = u ++ leftBehind front)
    (space : IsGap (leftBehind front))
    (gaps : ∀ m ∈ ls, m.terminal.isTrivia = true → IsGap m.stripped)
    (starts : ∀ m ∈ ls, m.terminal.isTrivia = false → ∃ c v, m.text = c :: v ∧ isSpace c = false) :
    Takes u.reverse (withoutComments (leftBehind front) ls) [] ↔
      ∀ inner l back, ls = inner ++ l :: back → l.terminal.isTrivia = false →
        StandsApart (front ++ inner) l back := by
  induction ls generalizing front u with
  | nil =>
      refine iff_of_true ?_ fun inner l back split => by simp at split
      rw [withoutComments, blankOf]
      split
      · trivial
      · rename_i nonempty
        exact ⟨space.first nonempty rfl _, trivial⟩
  | cons l ls ih =>
      obtain ⟨gapHere, gaps⟩ := List.forall_mem_cons.mp gaps
      obtain ⟨startHere, starts⟩ := List.forall_mem_cons.mp starts
      have further (inner : List Lexeme) : (front ++ [l]) ++ inner = front ++ (l :: inner) := by simp
      rw [withoutComments]
      cases token : l.terminal.isTrivia with
      | true =>
          have left := leftBehind_trivia front token
          have split' : (front ++ [l]).flatMap Lexeme.stripped = u ++ leftBehind (front ++ [l]) := by
            rw [left, List.flatMap_append, split, List.append_assoc, List.flatMap_singleton]
          rw [if_pos rfl, ← left,
            ih _ split' (by rw [left]; exact space.append (gapHere token)) gaps starts,
            forall_split_cons]
          simp only [further, token, Bool.true_eq_false, false_imp_iff, true_and]
      | false =>
          obtain ⟨c, v, text, -⟩ := startHere token
          have left := leftBehind_token front token
          have split' : (front ++ [l]).flatMap Lexeme.stripped
              = (u ++ leftBehind front ++ l.text) ++ leftBehind (front ++ [l]) := by
            rw [left, List.flatMap_append, split, List.flatMap_singleton, stripped_of_token token,
              List.append_nil]
          have tail := ih _ split' (by rw [left]; exact .nil) gaps starts
          rw [left] at tail
          have before : (u ++ leftBehind front ++ l.text).reverse
              = l.text.reverse ++ ((leftBehind front).reverse ++ u.reverse) := by simp
          have here : (leftBehind front).reverse ++ u.reverse
              = (front.flatMap Lexeme.stripped).reverse := by rw [split, List.reverse_append]
          rw [before] at tail
          rw [if_neg (by simp), takes_blankOf_iff space (by rw [text]; simp), tail,
            flatMap_withoutComments, List.nil_append, List.append_nil, here, forall_split_cons]
          simp only [further, token, true_imp_iff, StandsApart, List.append_nil]

/-- What holds of every token of a text, seen between the lexemes in front of it and behind. -/
def AtTokens (t : Text) (p : List Lexeme → Lexeme → List Lexeme → Prop) : Prop :=
  ∀ front l back, (Lexing.of t).lexemes = front ++ l :: back → l.terminal.isTrivia = false →
    p front l back

instance (t : Text) (p : List Lexeme → Lexeme → List Lexeme → Prop)
    [∀ front l back, Decidable (p front l back)] : Decidable (AtTokens t p) :=
  decidableSplits (fun front l back => l.terminal.isTrivia = false → p front l back)
    (Lexing.of t).lexemes

/-- The lexer reads the same tokens from a text without its comments. -/
structure KeepsTokens (t : Text) : Prop where
  complete : (Lexing.of (stripComments t)).complete = true
  tokens : (tokens (stripComments t)).map Token.toLexeme = (tokens t).map Token.toLexeme

/-- On ordinary code the tokens are read again just when each of them stands apart. -/
theorem IsOrdinary.keepsTokens_iff {t : Text} (h : IsOrdinary t) :
    KeepsTokens t ↔ AtTokens t StandsApart := by
  have run := Lexes.of t
  rw [List.isEmpty_iff.mp h.complete] at run
  have gaps := fun l mem => run.isGap_stripped (l := l) mem
  have starts := fun l mem => run.token_start (l := l) mem
  have apart : Takes [] (withoutComments [] (Lexing.of t).lexemes) [] ↔ _ :=
    takes_withoutComments_iff [] (u := []) rfl .nil gaps starts
  rw [AtTokens]
  simp only [List.nil_append] at apart
  rw [← apart]
  constructor
  · rintro ⟨complete, same⟩
    have run' := Lexes.of (stripComments t)
    rw [List.isEmpty_iff.mp complete] at run'
    rw [tokens_toLexeme, tokens_toLexeme] at same
    rw [stripComments_eq_flatMap h] at run' same
    have lexemes := run'.eq_withoutComments same (run'.blank_of_same_tokens same gaps) .nil gaps starts
    rw [← lexemes]
    exact run'.takes
  · intro takes
    have run' := takes.lexes (.stop (Terminal.first_nil _))
    rw [flatMap_withoutComments, List.append_nil, List.append_nil, List.nil_append,
      ← stripComments_eq_flatMap h] at run'
    have lexing : Lexing.of (stripComments t) = _ := run'.scanAfter_eq
    refine ⟨by rw [lexing]; rfl, ?_⟩
    rw [tokens_toLexeme, tokens_toLexeme, lexing]
    exact significant_withoutComments _ _

end PhpGate
