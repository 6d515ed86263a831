import PhpGate.Proofs.Token.Identifier

/-!
How far a token reaches in front of another text. Most patterns end where they end because of the
next character alone, so a token is read alike in front of every text that does not begin with a
character it would take along.
-/

namespace PhpGate

open Text

/-- The characters a name takes along. Behind a separator a further identifier begins. -/
def joinsName (afterSeparator : Bool) (c : Char) : Bool :=
  c == '\\' || if afterSeparator then isIdentifierStart c else isIdentifierPart c

/-- The characters that what follows the first digit of a number takes along: letters in front of
its point, and digits alone behind it. -/
def joinsTail (v : Text) (c : Char) : Bool :=
  if v.contains '.' then isDecimalDigit c else isWord c || c == '.'

/-- The characters a number takes along. One that begins with its point takes letters. -/
def joinsNumber (w : Text) (c : Char) : Bool :=
  if w.head? = some '.' then isWord c else joinsTail w.tail c

/-- The characters a variable takes along. Behind its signs a name begins. -/
def joinsVariable (w : Text) (c : Char) : Bool :=
  if w.getLast? = some '$' then c == '$' || isIdentifierStart c else isIdentifierPart c

/-- The characters that a token takes along if they come to stand right behind it. -/
def Lexeme.joins (l : Lexeme) (c : Char) : Bool :=
  match l.terminal with
  | .anonymousClass | .keywordOperator | .classKeyword => isWord c
  | .name => joinsName (l.text.getLast? == some '\\') c
  | .number => joinsNumber l.text c
  | .variableName => joinsVariable l.text c
  | .colon => c == ':'
  | .operator => isSign c || (l.text == ['.'] && isDecimalDigit c)
  | _ => false

/-- A pattern that matches all of `w` does so in front of every text that begins with none of the
characters it would take along, and in front of no other. -/
def EndsAt (pattern : Text → Option Nat) (w : Text) (joins : Char → Bool) : Prop :=
  ∀ X, pattern (w ++ X) = some w.length ↔ pattern w = some w.length ∧ X.head?.any joins = false

variable {w v X Y : Text} {c d : Char}

theorem EndsAt.transfer {pattern : Text → Option Nat} {joins : Char → Bool}
    (h : EndsAt pattern w joins) (found : pattern (w ++ Y) = some w.length)
    (head : X.head? = Y.head? ∨ X.head?.any joins = false) : pattern (w ++ X) = some w.length := by
  obtain ⟨whole, stop⟩ := (h Y).mp found
  refine (h X).mpr ⟨whole, ?_⟩
  obtain same | other := head
  · rw [same, stop]
  · exact other

theorem length_takeWhile_append_iff {p : Char → Bool} :
    ((v ++ X).takeWhile p).length = v.length ↔ v.all p = true ∧ X.head?.any p = false := by
  induction v with
  | nil =>
      cases X with
      | nil => simp
      | cons c X => cases passes : p c <;> simp [passes]
  | cons c v ih => cases passes : p c <;> simp [passes, ih]

section Name

theorem qualifiedTail_append_iff (afterSeparator : Bool) :
    qualifiedTail afterSeparator (v ++ X) = v.length ↔
      qualifiedTail afterSeparator v = v.length ∧
        X.head?.any (joinsName (v.getLast?.elim afterSeparator (· == '\\'))) = false := by
  induction v generalizing afterSeparator with
  | nil =>
      cases X with
      | nil => simp [qualifiedTail]
      | cons c X =>
          by_cases separator : c = '\\'
          · simp [qualifiedTail, joinsName, separator]
          · cases afterSeparator <;> simp [qualifiedTail, joinsName, separator]
  | cons d v ih =>
      have last : (d :: v).getLast?.elim afterSeparator (· == '\\')
          = v.getLast?.elim (d == '\\') (· == '\\') := by
        rw [List.getLast?_cons]
        cases v.getLast? <;> rfl
      rw [List.cons_append, last]
      by_cases separator : d = '\\'
      · simp [qualifiedTail, separator, ih]
      · by_cases goesOn : (if afterSeparator then isIdentifierStart d else isIdentifierPart d) = true
        · simp [qualifiedTail, beq_false_of_ne separator, separator, goesOn, ih]
        · simp [qualifiedTail, separator, goesOn]

theorem getLast_separator (plain : c ≠ '\\') :
    ((c :: v).getLast? == some '\\') = v.getLast?.elim false (· == '\\') := by
  rw [List.getLast?_cons]
  cases v.getLast? with
  | none => simpa using plain
  | some d => simp

theorem nameLength_endsAt (w : Text) :
    EndsAt nameLength? w (joinsName (w.getLast? == some '\\')) := by
  intro X
  cases w with
  | nil =>
      refine iff_of_false (fun found => ?_) (fun found => ?_)
      · exact absurd (nameLength_fits _ _ found).1 (Nat.lt_irrefl 0)
      · cases found.1
  | cons c v =>
      by_cases separator : c = '\\'
      · subst separator
        cases v with
        | nil =>
            refine iff_of_false (fun found => ?_) (fun found => ?_)
            · rw [List.cons_append, nameLength_cons, if_pos rfl, Option.ite_none_right_eq_some]
                at found
              cases found.2
            · cases found.1
        | cons d v =>
            have last : ('\\' :: d :: v).getLast? = (d :: v).getLast? := by
              simp [List.getLast?_cons]
            cases start : isIdentifierStart d with
            | false => simp [nameLength_cons, start]
            | true =>
                have plain : d ≠ '\\' := by
                  rintro rfl
                  cases start
                rw [last, getLast_separator plain]
                simp [nameLength_cons, start, qualifiedTail_append_iff]
      · rw [getLast_separator separator]
        cases start : isIdentifierStart c with
        | false => simp [nameLength_cons, separator, start]
        | true => simp [nameLength_cons, separator, start, qualifiedTail_append_iff]

end Name

section Variable

variable {signs : Text} (all : signs.all (· == '$') = true)
include all

theorem variableLength_signs {id : Text} (stop : id.head?.any (· == '$') = false) :
    variableLength? ('$' :: (signs ++ id))
      = some (1 + signs.length + (identifierLength? id).getD 0) := by
  rw [variableLength?, takeWhile_append_stop all stop, List.drop_left]

theorem lt_of_variableLength {n : Nat}
    (found : variableLength? ('$' :: (signs ++ '$' :: X)) = some n) : 1 + signs.length < n := by
  rw [variableLength?, List.takeWhile_append_of_pos (List.all_eq_true.mp all),
    List.takeWhile_cons_of_pos (by rfl), Option.some.injEq] at found
  simp only [List.length_append, List.length_cons] at found
  omega

/-- Signs without a name take along further signs and a name. -/
theorem signs_endsAt :
    EndsAt variableLength? ('$' :: signs) (fun c => c == '$' || isIdentifierStart c) := by
  intro X
  have alone : variableLength? ('$' :: signs) = some ('$' :: signs).length := by
    have whole : variableLength? ('$' :: (signs ++ [])) = some (1 + signs.length + 0) :=
      variableLength_signs all rfl
    rw [List.append_nil] at whole
    rw [whole]
    simp [Nat.add_comm]
  rw [alone]
  cases X with
  | nil => simp [alone]
  | cons d X =>
      by_cases again : d = '$'
      · subst again
        refine iff_of_false (fun found => ?_) (by simp)
        have longer := lt_of_variableLength all found
        simp only [List.length_cons] at longer
        omega
      · have head : (d :: X).head?.any (· == '$') = false := by simpa using again
        rw [List.cons_append, variableLength_signs all head]
        cases start : isIdentifierStart d <;>
          simp [identifierLength?, start, again, Nat.add_comm]

/-- A name behind the signs ends where an identifier does. -/
theorem variableLength_named_iff {e : Char} {u : Text} (stop : e ≠ '$') :
    variableLength? ('$' :: (signs ++ e :: u) ++ X) = some ('$' :: (signs ++ e :: u)).length ↔
      (isIdentifierStart e = true ∧ u.all isIdentifierPart = true) ∧
        X.head?.any isIdentifierPart = false := by
  have head : (e :: (u ++ X)).head?.any (· == '$') = false := by simpa using stop
  have total (n : Nat) : 1 + signs.length + n = ('$' :: (signs ++ e :: u)).length
      ↔ n = u.length + 1 := by
    simp only [List.length_cons, List.length_append]
    omega
  rw [List.cons_append, List.append_assoc, List.cons_append, variableLength_signs all head,
    Option.some.injEq, total]
  cases start : isIdentifierStart e with
  | false => simp [identifierLength?, start]
  | true => simp [identifierLength?, start, length_takeWhile_append_iff]

end Variable

/-- The last character of an identifier is no sign of a variable. -/
theorem getLast_identifier {u : Text} {e : Char} (start : isIdentifierStart e = true)
    (parts : u.all isIdentifierPart = true) : (e :: u).getLast? ≠ some '$' := by
  intro last
  obtain rfl | mem := List.mem_cons.mp (List.mem_of_getLast? last)
  · cases start
  · cases List.all_eq_true.mp parts _ mem

theorem variableLength_endsAt (w : Text) : EndsAt variableLength? w (joinsVariable w) := by
  cases w with
  | nil =>
      intro X
      refine iff_of_false (fun found => ?_) (fun found => ?_)
      · exact absurd (variableLength_fits _ _ found).1 (Nat.lt_irrefl 0)
      · cases found.1
  | cons c v =>
      by_cases sign : c = '$'
      · subst sign
        have all : (v.takeWhile (· == '$')).all (· == '$') = true := List.all_takeWhile
        have stop := any_head_dropWhile (· == '$') v
        rw [← List.takeWhile_append_dropWhile (l := v) (p := (· == '$'))]
        generalize v.takeWhile (· == '$') = signs at all
        generalize v.dropWhile (· == '$') = id at stop
        cases id with
        | nil =>
            have last : ('$' :: signs).getLast? = some '$' := by
              rw [List.getLast?_cons]
              cases found : signs.getLast? with
              | none => rfl
              | some d =>
                  have dollar := List.all_eq_true.mp all d (List.mem_of_getLast? found)
                  exact congrArg some (beq_iff_eq.mp dollar)
            have joins : joinsVariable ('$' :: signs) = fun c => c == '$' || isIdentifierStart c :=
              funext fun c => if_pos last
            rw [List.append_nil, joins]
            exact signs_endsAt all
        | cons e u =>
            have named (X : Text) := variableLength_named_iff all (X := X) (u := u)
              (show e ≠ '$' by simpa using stop)
            have whole := named []
            rw [List.append_nil] at whole
            intro X
            rw [named, whole, and_assoc (b := [].head?.any isIdentifierPart = false)]
            refine and_congr_right fun shape => ?_
            have joins : joinsVariable ('$' :: (signs ++ e :: u)) = isIdentifierPart := by
              refine funext fun c => if_neg ?_
              have last := getLast_identifier shape.1 shape.2
              rw [List.getLast?_cons] at last
              rw [← List.cons_append, List.getLast?_append, List.getLast?_cons, Option.some_or]
              exact last
            rw [joins]
            simp
      · have none (Y : Text) : variableLength? (c :: Y) = Option.none := by
          rw [variableLength?]
          rintro s split
          exact sign (List.cons.inj split).1
        intro X
        simp [none]

section Operator

theorem continuesOperator_of_other {next : Option Char} (stop : next.any isSign = false) :
    continuesOperator c next = continuesOperator c none := by
  cases next with
  | none => rfl
  | some d =>
      have other (s : Char) (sign : isSign s = true) : (some d != some s) = true := by
        rw [bne_iff_ne]
        rintro ⟨rfl⟩
        rw [Option.any_some, sign] at stop
        cases stop
      rw [continuesOperator, other '>' (by decide), other '*' (by decide), other '/' (by decide)]
      rfl

theorem continuesOperator_none {next : Option Char} (goesOn : continuesOperator c next = true) :
    continuesOperator c none = true := by
  rw [continuesOperator] at goesOn ⊢
  split at goesOn
  · rename_i mark
    rw [if_pos mark]
    rfl
  · rename_i mark
    rw [if_neg mark]
    split at goesOn
    · rename_i slash
      rw [if_pos slash]
      rfl
    · rename_i slash
      rwa [if_neg slash]

/-- An operator ends in front of everything that is no sign of one. -/
theorem operatorRun_append_of_stop (stop : X.head?.any isSign = false) :
    operatorRun (w ++ X) = operatorRun w := by
  induction w with
  | nil =>
      cases X with
      | nil => rfl
      | cons d X =>
          have ends : continuesOperator d X.head? = false := by
            rw [← Bool.not_eq_true]
            intro goesOn
            rw [List.head?_cons, Option.any_some, isSign_of_continuesOperator goesOn] at stop
            cases stop
          simp [operatorRun, ends]
  | cons d w ih =>
      have next : continuesOperator d (w ++ X).head? = continuesOperator d w.head? := by
        cases w with
        | nil => exact continuesOperator_of_other stop
        | cons e w => rfl
      rw [List.cons_append, operatorRun, operatorRun, next, ih]

/-- What an operator takes in front of a text is an operator by itself. -/
theorem operatorRun_of_append (found : w.length ≤ operatorRun (w ++ Y)) :
    operatorRun w = w.length := by
  induction w with
  | nil => rfl
  | cons d w ih =>
      rw [List.cons_append, operatorRun] at found
      split at found
      · rename_i goesOn
        have alone : continuesOperator d w.head? = true := by
          cases w with
          | nil => exact continuesOperator_none goesOn
          | cons e w => exact goesOn
        rw [operatorRun, if_pos alone, ih (Nat.le_of_succ_le_succ found), List.length_cons]
      · cases found

end Operator

/-- An interpolated text is known by itself, whatever comes after it. -/
theorem interpolatedLength_transfer (state : Interpolation)
    (found : interpolatedLength? state (v ++ Y) = some v.length) :
    interpolatedLength? state (v ++ X) = some v.length := by
  induction hn : v.length using Nat.strongRecOn generalizing v state with
  | ind n ih =>
      subst hn
      have later (state : Interpolation) {u : Text} {k : Nat} (shorter : u.length < v.length)
          (inner : (interpolatedLength? state (u ++ Y)).map (· + k) = some (u.length + k)) :
          (interpolatedLength? state (u ++ X)).map (· + k) = some (u.length + k) := by
        obtain ⟨m, inner, length⟩ := Option.map_eq_some_iff.mp inner
        obtain rfl := Nat.add_right_cancel length
        rw [ih u.length shorter state inner rfl]
        rfl
      cases v with
      | nil => exact absurd (interpolatedLength_fits _ _ _ found).1 (Nat.lt_irrefl 0)
      | cons c r =>
          cases state with
          | inside =>
              rw [List.cons_append, interpolatedLength_inside_cons] at found ⊢
              exact later _ (Nat.lt_succ_self _) found
          | outside =>
              rw [List.cons_append, interpolatedLength_outside_cons] at found ⊢
              cases r with
              | nil =>
                  have long (o : Option Nat) : o.map (· + 2) ≠ some 1 := by
                    cases o <;> simp
                  have pos : (interpolatedLength? .outside Y).map (· + 1) ≠ some 1 := by
                    intro one
                    obtain ⟨m, inner, length⟩ := Option.map_eq_some_iff.mp one
                    have := (interpolatedLength_fits _ _ m inner).1
                    omega
                  by_cases quote : c = '"'
                  · subst quote
                    rfl
                  · rw [if_neg quote] at found
                    split at found
                    · split at found
                      · cases found
                      · exact absurd found (long _)
                    · split at found
                      · exact absurd found (long _)
                      · exact absurd found pos
              | cons d r =>
                  have shorter : r.length < (c :: d :: r).length := by
                    simp only [List.length_cons]
                    omega
                  simp only [List.cons_append, List.isEmpty_cons, Bool.false_eq_true, if_false,
                    List.tail_cons, List.head?_cons] at found ⊢
                  by_cases escape : c = '\\'
                  · rw [if_pos escape] at found ⊢
                    exact later .outside shorter found
                  · rw [if_neg escape] at found ⊢
                    by_cases opens : c = '\x7b' ∧ some d = some '$'
                    · rw [if_pos opens] at found ⊢
                      exact later .inside shorter found
                    · rw [if_neg opens] at found ⊢
                      by_cases quote : c = '"'
                      · rw [if_pos quote] at found
                        cases found
                      · rw [if_neg quote] at found ⊢
                        exact later .outside (u := d :: r) (Nat.lt_succ_self _) found

end PhpGate
