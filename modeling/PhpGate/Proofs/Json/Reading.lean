import PhpGate.Proofs.Json.Escape
import PhpGate.Proofs.Json.Spelling
import PhpGate.Proofs.Text.Digit
import PhpGate.Proofs.Text.Pieces

/-!
Every text that stands for a value is read as that value, with two steps for every character.
-/

namespace PhpGate.Json

open Text

-- The equations of the three functions are made here once, not by whichever proof comes first.
attribute [local simp] readValue? readItems? readMembers?

/-- No number goes on at the beginning of the text. -/
abbrev NoNumber (rest : Text) : Prop := rest.head?.any isNumberChar = false

/-- The value is read in front of whatever does not lengthen a number. -/
def Reads (j : Json) (t : Text) : Prop :=
  ∀ fuel rest, 2 * t.length ≤ fuel → NoNumber rest → readValue? fuel (t ++ rest) = some (j, rest)

theorem isNumberChar_of_isSpace {c : Char} (space : isSpace c = true) : isNumberChar c = false := by
  rw [isSpace] at space
  simp only [Bool.or_eq_true, beq_iff_eq] at space
  obtain ((rfl | rfl) | rfl) | rfl := space <;> rfl

theorem isSpace_of_isNumberChar {c : Char} (char : isNumberChar c = true) : isSpace c = false := by
  cases space : isSpace c with
  | false => rfl
  | true =>
      rw [isNumberChar_of_isSpace space] at char
      cases char

section Space

variable {gap : Text}

theorem skipSpace_append (space : Space gap) (t : Text) : skipSpace (gap ++ t) = skipSpace t := by
  induction gap with
  | nil => rfl
  | cons c gap ih =>
      rw [List.cons_append, skipSpace, List.dropWhile_cons, if_pos (space c List.mem_cons_self)]
      exact ih fun d mem => space d (List.mem_cons_of_mem c mem)

theorem skipSpace_cons {c : Char} (visible : isSpace c = false) (r : Text) :
    skipSpace (c :: r) = c :: r := by
  rw [skipSpace, List.dropWhile_cons, visible]
  rfl

theorem readValue_append (space : Space gap) (fuel : Nat) (t : Text) :
    readValue? fuel (gap ++ t) = readValue? fuel t := by
  cases fuel with
  | zero => rfl
  | succ fuel => rw [readValue?, readValue?, skipSpace_append space]

theorem noNumber_append (space : Space gap) {rest : Text} (stop : NoNumber rest) :
    NoNumber (gap ++ rest) := by
  cases gap with
  | nil => exact stop
  | cons c gap => exact isNumberChar_of_isSpace (space c List.mem_cons_self)

end Space

theorem reads_keyword {j : Json} {c : Char} {word : Text}
    (read : ∀ fuel rest, readValue? (fuel + 1) (c :: word ++ rest) = some (j, rest)) :
    Reads j (c :: word) := by
  rintro (- | fuel) rest enough -
  · rw [List.length_cons] at enough
    omega
  · exact read fuel rest

section Number

theorem splitSign_digit {c : Char} (digit : c.isDigit = true) (t : Text) :
    splitSign (c :: t) = (false, c :: t) := by
  rw [splitSign]
  · rintro _ same
    cases same
    cases digit
  · rintro _ same
    cases same
    cases digit

theorem readNumber_ofInt (n : Int) : readNumber? (ofInt n) = some (.int n) := by
  have whole (n : Nat) : (!(ofNat n).isEmpty && (ofNat n).all Char.isDigit) = true := by
    rw [Bool.and_eq_true, List.all_eq_true]
    exact ⟨by simp [ofNat, Nat.toDigits_ne_nil], fun _ => isDigit_of_mem_ofNat⟩
  cases n with
  | ofNat n =>
      have unsigned : splitSign (ofNat n) = (false, ofNat n) := by
        obtain ⟨c, r, number⟩ := List.exists_cons_of_ne_nil (Nat.toDigits_ne_nil (b := 10) (n := n))
        have digits : ∀ d ∈ c :: r, d.isDigit = true := number ▸ fun _ => isDigit_of_mem_ofNat (n := n)
        rw [ofNat, number, splitSign_digit (digits c List.mem_cons_self)]
      simp only [ofInt, readNumber?, unsigned, if_pos (whole n), digitsValue_ofNat]
      rfl
  | negSucc n =>
      simp only [ofInt, readNumber?, splitSign, if_pos (whole (n + 1)), digitsValue_ofNat]
      rfl

theorem isNumberChar_ofInt (n : Int) : (ofInt n).all isNumberChar = true := by
  have digits (n : Nat) : (ofNat n).all isNumberChar = true := by
    rw [List.all_eq_true]
    intro c mem
    rw [isNumberChar, isDigit_of_mem_ofNat mem, Bool.true_or]
  cases n with
  | ofNat n => exact digits n
  | negSucc n =>
      rw [ofInt, List.all_cons, digits]
      rfl

/-- A number is read up to where the characters of numbers end. -/
theorem readValue_number {number rest : Text} {j : Json} (fuel : Nat) (nonempty : number ≠ [])
    (chars : number.all isNumberChar = true) (read : readNumber? number = some j)
    (stop : NoNumber rest) : readValue? (fuel + 1) (number ++ rest) = some (j, rest) := by
  obtain ⟨c, r, rfl⟩ := List.exists_cons_of_ne_nil nonempty
  have taken := takeWhile_append_stop chars stop
  have ⟨first, later⟩ : isNumberChar c = true ∧ r.all isNumberChar = true := by
    rwa [List.all_cons, Bool.and_eq_true] at chars
  rw [readValue?, List.cons_append, skipSpace_cons (isSpace_of_isNumberChar first)]
  have other {d : Char} {u : Text} (notNumber : isNumberChar d = false)
      (same : c :: (r ++ rest) = d :: u) : False := by
    rw [List.cons.injEq] at same
    rw [same.1, notNumber] at first
    cases first
  split
  · next same => exact (other rfl same).elim
  · next same => exact (other rfl same).elim
  · next same => exact (other rfl same).elim
  · next same => exact (other rfl same).elim
  · next same => exact (other rfl same).elim
  · next same => exact (other rfl same).elim
  · next same => exact (other rfl same).elim
  · next same => exact (other rfl same).elim
  · next same =>
      rw [List.cons.injEq] at same
      obtain ⟨rfl, same⟩ := same
      cases r with
      | nil => cases read
      | cons d r =>
          rw [List.cons_append, List.cons.injEq] at same
          rw [same.1] at later
          cases later
  · rw [List.cons_append] at taken
    simp only [taken, read, Option.map_some, List.length_cons, List.drop_succ_cons,
      List.drop_left]

theorem ofInt_ne_nil (n : Int) : ofInt n ≠ [] := by
  cases n with
  | ofNat n => exact Nat.toDigits_ne_nil
  | negSucc n => exact List.cons_ne_nil _ _

theorem reads_ofInt (n : Int) : Reads (.int n) (ofInt n) := by
  intro fuel rest enough stop
  have positive := List.length_pos_iff.mpr (ofInt_ne_nil n)
  obtain ⟨fuel, rfl⟩ : ∃ m, fuel = m + 1 := ⟨fuel - 1, by omega⟩
  exact readValue_number fuel (ofInt_ne_nil n) (isNumberChar_ofInt n) (readNumber_ofInt n) stop

end Number

section Quoted

variable (ascii : Bool)

theorem escapeChar_ne_nil (c : Char) : escapeChar ascii c ≠ [] := by
  intro empty
  have read := readString_escapeChar ascii c 0 ['"']
  rw [empty] at read
  cases read

theorem length_le_escaped (t : Text) : t.length ≤ (t.flatMap (escapeChar ascii)).length := by
  induction t with
  | nil => exact Nat.le_refl 0
  | cons c t ih =>
      have positive := List.length_pos_iff.mpr (escapeChar_ne_nil ascii c)
      rw [List.flatMap_cons, List.length_cons, List.length_append]
      omega

theorem quote_append (t rest : Text) :
    quote ascii t ++ rest = '"' :: (t.flatMap (escapeChar ascii) ++ '"' :: rest) := by
  rw [quote, List.append_assoc, List.append_assoc]
  rfl

/-- The rest after an opening quote is read with a step for every character of the whole text. -/
theorem readString_rest (t rest : Text) :
    readString? ((t.flatMap (escapeChar ascii) ++ '"' :: rest).length + 1)
      (t.flatMap (escapeChar ascii) ++ '"' :: rest) = some (t, rest) := by
  apply readString_quoted
  have written := length_le_escaped ascii t
  rw [List.length_append]
  omega

theorem reads_quote (t : Text) : Reads (.string t) (quote ascii t) := by
  intro fuel rest enough _
  cases fuel with
  | zero => simp [quote] at enough
  | succ fuel =>
      rw [quote_append, readValue?, skipSpace_cons rfl]
      simp only [readString_rest, Option.map_some]

end Quoted

section Items

variable {gap t r r' rest : Text} {x : Json} {fuel : Nat}

theorem readItems_end (read : readValue? fuel t = some (x, r)) (last : skipSpace r = ']' :: r') :
    readItems? (fuel + 1) t = some ([x], r') := by
  simp only [readItems?, read, Option.bind_eq_bind, Option.bind_some, last, Option.pure_def]

theorem readItems_next {xs : List Json} (read : readValue? fuel t = some (x, r))
    (comma : skipSpace r = ',' :: r') (more : readItems? fuel r' = some (xs, rest)) :
    readItems? (fuel + 1) t = some (x :: xs, rest) := by
  simp only [readItems?, read, Option.bind_eq_bind, Option.bind_some, comma, more, Option.pure_def]

theorem readItems_append {items : List (Json × Text)} (nonempty : items ≠ []) (space : Space gap)
    (each : ∀ x t, (x, t) ∈ items → Reads x t) (fuel : Nat) (rest : Text)
    (enough : 2 * (commaSeparated (items.map Prod.snd)).length + 1 ≤ fuel) :
    readItems? fuel (commaSeparated (items.map Prod.snd) ++ (gap ++ ']' :: rest))
      = some (items.map Prod.fst, rest) := by
  induction items generalizing fuel with
  | nil => exact absurd rfl nonempty
  | cons item items ih =>
      obtain ⟨fuel, rfl⟩ : ∃ m, fuel = m + 1 := ⟨fuel - 1, by omega⟩
      obtain ⟨x, t⟩ := item
      have first := each x t List.mem_cons_self
      cases items with
      | nil =>
          simp only [List.map_cons, List.map_nil, commaSeparated] at enough ⊢
          have stop : NoNumber (gap ++ ']' :: rest) := noNumber_append space rfl
          exact readItems_end (first fuel _ (by omega) stop)
            ((skipSpace_append space _).trans (skipSpace_cons rfl rest))
      | cons next items =>
          simp only [List.map_cons, commaSeparated] at enough ⊢
          rw [List.length_append, List.length_cons] at enough
          rw [List.append_assoc, List.cons_append]
          refine readItems_next (first fuel _ (by omega) rfl) (skipSpace_cons rfl _) ?_
          refine ih (List.cons_ne_nil _ _) (fun y u mem => each y u (List.mem_cons_of_mem _ mem)) fuel ?_
          rw [List.map_cons]
          omega

end Items

section Members

variable {before gap key t r : Text} {x : Json} {fuel : Nat} (ascii : Bool)
variable (done : List (Text × Json))

/-- What stands between the members of an object is read after each of them. -/
theorem readMembers_member (space : Space before) (reads : Reads x t) (enough : 2 * t.length ≤ fuel)
    (stop : NoNumber r) :
    readMembers? (fuel + 1) done (memberText ascii before key t ++ r)
      = match skipSpace r with
        | ',' :: r => readMembers? fuel (insertKey key x done) r
        | '}' :: r => some (insertKey key x done, r)
        | _ => none := by
  have shape : memberText ascii before key t ++ r
      = before ++ '"' :: (key.flatMap (escapeChar ascii) ++ '"' :: (':' :: (t ++ r))) := by
    rw [memberText, List.append_assoc, List.append_assoc, List.cons_append, quote_append]
  rw [shape, readMembers?, skipSpace_append space, skipSpace_cons rfl]
  simp only [readString_rest, Option.bind_eq_bind, Option.bind_some, skipSpace_cons (c := ':') rfl,
    reads fuel r enough stop]
  rfl

theorem readMembers_append {members : List (Text × Json × Text)} (nonempty : members ≠ [])
    (space : Space before) (space' : Space gap)
    (each : ∀ k x t, (k, x, t) ∈ members → Reads x t)
    (unique : (done.map Prod.fst ++ members.map Prod.fst).Nodup) (fuel : Nat) (rest : Text)
    (enough : 2 * (commaSeparated
      (members.map fun m => memberText ascii before m.1 m.2.2)).length + 1 ≤ fuel) :
    readMembers? fuel done
      (commaSeparated (members.map fun m => memberText ascii before m.1 m.2.2)
        ++ (gap ++ '}' :: rest))
      = some (done ++ members.map fun m => (m.1, m.2.1), rest) := by
  induction members generalizing done fuel with
  | nil => exact absurd rfl nonempty
  | cons member members ih =>
      obtain ⟨fuel, rfl⟩ : ∃ m, fuel = m + 1 := ⟨fuel - 1, by omega⟩
      obtain ⟨key, x, t⟩ := member
      have first := each key x t List.mem_cons_self
      have fresh : key ∉ done.map Prod.fst := fun mem =>
        (List.nodup_append.mp unique).2.2 key mem key List.mem_cons_self rfl
      have short : t.length ≤ (memberText ascii before key t).length := by
        rw [memberText, List.length_append, List.length_cons]
        omega
      cases members with
      | nil =>
          simp only [List.map_cons, List.map_nil, commaSeparated] at enough ⊢
          have stop : NoNumber (gap ++ '}' :: rest) := noNumber_append space' rfl
          rw [readMembers_member ascii done space first (by omega) stop, skipSpace_append space',
            skipSpace_cons rfl, insertKey_of_not_mem fresh]
          rfl
      | cons next members =>
          simp only [List.map_cons, commaSeparated] at enough ⊢
          rw [List.length_append, List.length_cons] at enough
          rw [List.append_assoc, List.cons_append,
            readMembers_member ascii done space first (by omega) rfl, skipSpace_cons rfl,
            insertKey_of_not_mem fresh]
          have later := ih (done ++ [(key, x)]) (List.cons_ne_nil _ _)
            (fun k y u mem => each k y u (List.mem_cons_of_mem _ mem)) (by simpa using unique) fuel
            (by rw [List.map_cons]; omega)
          rwa [List.append_assoc] at later

end Members

/-- A text that stands for a value begins, after white space, with a character that closes no
array. -/
theorem Spells.exists_first {j : Json} {t : Text} (spells : Spells j t) :
    ∃ gap c r, t = gap ++ c :: r ∧ Space gap ∧ isSpace c = false ∧ c ≠ ']' := by
  induction spells with
  | null => exact ⟨[], 'n', _, rfl, space_nil, rfl, by decide⟩
  | bool b =>
      cases b with
      | true => exact ⟨[], 't', _, rfl, space_nil, rfl, by decide⟩
      | false => exact ⟨[], 'f', _, rfl, space_nil, rfl, by decide⟩
  | int n =>
      obtain ⟨c, r, number⟩ := List.exists_cons_of_ne_nil (ofInt_ne_nil n)
      have first := isNumberChar_ofInt n
      rw [number, List.all_cons, Bool.and_eq_true] at first
      refine ⟨[], c, r, number, space_nil, isSpace_of_isNumberChar first.1, ?_⟩
      rintro rfl
      cases first.1
  | string ascii t => exact ⟨[], '"', _, rfl, space_nil, rfl, by decide⟩
  | array => exact ⟨[], '[', _, rfl, space_nil, rfl, by decide⟩
  | object => exact ⟨[], '\x7b', _, rfl, space_nil, rfl, by decide⟩
  | spaced gap space spells ih =>
      obtain ⟨gap', c, r, rfl, space', visible, opens⟩ := ih
      refine ⟨gap ++ gap', c, r, (List.append_assoc _ _ _).symm, fun d mem => ?_, visible, opens⟩
      exact (List.mem_append.mp mem).elim (space d) (space' d)

section Containers

variable {c : Char} {t r rest gap : Text} {fuel : Nat}

theorem readItems_spaced (space : Space gap) :
    readItems? fuel (gap ++ t) = readItems? fuel t := by
  cases fuel with
  | zero => rfl
  | succ fuel => rw [readItems?, readItems?, readValue_append space]

theorem readMembers_spaced {done : List (Text × Json)} (space : Space gap) :
    readMembers? fuel done (gap ++ t) = readMembers? fuel done t := by
  cases fuel with
  | zero => rfl
  | succ fuel => rw [readMembers?, readMembers?, skipSpace_append space]

theorem readValue_array_nil (closes : skipSpace t = ']' :: r) :
    readValue? (fuel + 1) ('[' :: t) = some (.array [], r) := by
  rw [readValue?, skipSpace_cons rfl]
  simp only [closes]

theorem readValue_array (space : Space gap) (visible : isSpace c = false) (opens : c ≠ ']') :
    readValue? (fuel + 1) ('[' :: (gap ++ c :: r))
      = (readItems? fuel (gap ++ c :: r)).map fun s => (.array s.1, s.2) := by
  rw [readValue?, skipSpace_cons rfl]
  simp only [skipSpace_append space, skipSpace_cons visible, readItems_spaced space]
  split
  · next same =>
      cases same
      exact absurd rfl opens
  · rfl

theorem readValue_object_nil (closes : skipSpace t = '}' :: r) :
    readValue? (fuel + 1) ('{' :: t) = some (.object [], r) := by
  rw [readValue?, skipSpace_cons rfl]
  simp only [closes]

theorem readValue_object (space : Space gap) :
    readValue? (fuel + 1) ('{' :: (gap ++ '"' :: r))
      = (readMembers? fuel [] (gap ++ '"' :: r)).map fun s => (.object s.1, s.2) := by
  rw [readValue?, skipSpace_cons rfl]
  simp only [skipSpace_append space, skipSpace_cons (c := '"') rfl, readMembers_spaced space]
  rfl

end Containers

theorem Spells.reads {j : Json} {t : Text} (spells : Spells j t) : Reads j t := by
  induction spells with
  | null => exact reads_keyword fun _ _ => rfl
  | bool b =>
      cases b with
      | true => exact reads_keyword fun _ _ => rfl
      | false => exact reads_keyword fun _ _ => rfl
  | int n => exact reads_ofInt n
  | string ascii t => exact reads_quote ascii t
  | @array items gap space each ih =>
      rintro (- | fuel) rest enough -
      · rw [List.length_cons] at enough
        omega
      rw [List.length_cons, List.length_append, List.length_append] at enough
      rw [List.cons_append, List.append_assoc, List.append_assoc, List.cons_append, List.nil_append]
      cases items with
      | nil =>
          exact readValue_array_nil ((skipSpace_append space _).trans (skipSpace_cons rfl rest))
      | cons item items =>
          have read := readItems_append (List.cons_ne_nil item items) space ih fuel rest (by omega)
          obtain ⟨gap', c, r, first, space', visible, opens⟩ :=
            (each item.1 item.2 List.mem_cons_self).exists_first
          obtain ⟨r', shape⟩ : ∃ r', commaSeparated ((item :: items).map Prod.snd)
              = gap' ++ c :: r' := by
            obtain ⟨u, begins⟩ := exists_commaSeparated_cons item.2 (items.map Prod.snd)
            exact ⟨r ++ u, by rw [List.map_cons, begins, first, List.append_assoc]; rfl⟩
          rw [shape, List.append_assoc, List.cons_append] at read ⊢
          rw [readValue_array space' visible opens, read]
          rfl
  | @object members before gap ascii space space' unique each ih =>
      rintro (- | fuel) rest enough -
      · rw [List.length_cons] at enough
        omega
      rw [List.length_cons, List.length_append, List.length_append] at enough
      rw [List.cons_append, List.append_assoc, List.append_assoc, List.cons_append, List.nil_append]
      cases members with
      | nil =>
          exact readValue_object_nil ((skipSpace_append space' _).trans (skipSpace_cons rfl rest))
      | cons member members =>
          have read := readMembers_append ascii [] (List.cons_ne_nil member members) space space' ih
            unique fuel rest (by omega)
          obtain ⟨r, shape⟩ : ∃ r, commaSeparated ((member :: members).map fun m =>
              memberText ascii before m.1 m.2.2) = before ++ '"' :: r := by
            obtain ⟨u, begins⟩ := exists_commaSeparated_cons
              (memberText ascii before member.1 member.2.2)
              (members.map fun m => memberText ascii before m.1 m.2.2)
            rw [List.map_cons, begins, memberText, List.append_assoc, List.append_assoc, quote_append]
            exact ⟨_, rfl⟩
          rw [shape, List.append_assoc, List.cons_append] at read ⊢
          rw [readValue_object space, read]
          rfl
  | spaced gap space spells ih =>
      intro fuel rest enough stop
      rw [List.append_assoc, readValue_append space]
      rw [List.length_append] at enough
      exact ih fuel rest (by omega) stop

/-- A text that stands for a value is read as that value, whatever white space follows. -/
theorem read_of_spells {j : Json} {t gap : Text} (spells : Spells j t) (space : Space gap) :
    read? (t ++ gap) = some j := by
  have stop : NoNumber gap := by
    have stop : NoNumber (gap ++ []) := noNumber_append space rfl
    rwa [List.append_nil] at stop
  have all : skipSpace gap = [] := by
    have all := skipSpace_append space []
    rwa [List.append_nil] at all
  rw [read?, spells.reads _ gap (by rw [List.length_append]; omega) stop]
  simp only [all, List.isEmpty_nil, if_true]

/-- The text of a written file is read as the value with its members in order. -/
theorem read_document {j : Json} (plain : j.IsPlain) : read? j.document = some j.sorted :=
  read_of_spells (spells_indented 0 plain.sorted) (space_singleton rfl)

/-- Values have one canonical text exactly when they are the same value. -/
theorem canonical_eq_iff {j k : Json} (plain : j.IsPlain) (plain' : k.IsPlain) :
    j.canonical = k.canonical ↔ Same j k := by
  rw [← sorted_eq_iff_same plain plain']
  constructor
  · intro h
    have read := read_of_spells (spells_compact true plain.sorted) space_nil
    have read' := read_of_spells (spells_compact true plain'.sorted) space_nil
    rw [← canonical, h, canonical, read'] at read
    exact (Option.some.inj read).symm
  · intro h
    rw [canonical, canonical, h]

end PhpGate.Json
