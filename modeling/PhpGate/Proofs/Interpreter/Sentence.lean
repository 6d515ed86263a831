import PhpGate.Proofs.Interpreter.Place
import PhpGate.Proofs.Text.Digit
import PhpGate.Proofs.Text.Lines
import PhpGate.Proofs.Text.OneLine

/-!
The lines that an interpreter words: a label, a message, the place of the checked file and the number
of a line. The message is read back whatever it quotes. The number is read back unless the message
holds a phrase that gives another one, since the first such phrase counts.
-/

namespace PhpGate

open Text

namespace LintReport

variable {t u v w r : Text} {c : Char}

/-- The last character is no white space. -/
def EndsVisibly (t : Text) : Prop :=
  ∃ w c, t = w ++ [c] ∧ isBlank c = false

theorem EndsVisibly.of_append (ends : EndsVisibly (u ++ v)) (nonempty : v ≠ []) :
    EndsVisibly v := by
  obtain ⟨w, c, split, visible⟩ := ends
  obtain rfl | ⟨v, d, rfl⟩ := List.eq_nil_or_concat v
  · exact absurd rfl nonempty
  · rw [List.concat_eq_append, ← List.append_assoc] at split
    obtain ⟨-, same⟩ := List.append_inj' split rfl
    cases same
    exact ⟨v, c, List.concat_eq_append, visible⟩

theorem unbroken_of_all (visible : t.all (!isBlank ·) = true) : ∀ c ∈ t, isBlank c = false :=
  fun c mem => (Bool.not_eq_true' _).mp (List.all_eq_true.mp visible c mem)

theorem EndsVisibly.of_unbroken (nonempty : t ≠ []) (unbroken : ∀ c ∈ t, isBlank c = false) :
    EndsVisibly t := by
  obtain rfl | ⟨w, c, rfl⟩ := List.eq_nil_or_concat t
  · exact absurd rfl nonempty
  · exact ⟨w, c, List.concat_eq_append, unbroken c (by simp)⟩

/-- White space at the start is the same in front of further text. -/
theorem EndsVisibly.afterBlanks_append (ends : EndsVisibly t) (v : Text) :
    afterBlanks? (t ++ v) = (afterBlanks? t).map (· ++ v) := by
  obtain ⟨w, c, rfl, visible⟩ := ends
  have run (x : Text) : blankLength (w ++ c :: x) = blankLength w := by
    have stop : (c :: x).head?.any isBlank = false := visible
    rw [blankLength, takeWhile_append stop, blankLength]
  have within : blankLength w ≤ (w ++ [c]).length := by
    rw [List.length_append]
    exact Nat.le_trans (List.takeWhile_prefix _).length_le (Nat.le_add_right _ _)
  rw [afterBlanks?, afterBlanks?, List.append_assoc, List.singleton_append, run, run]
  split
  · rfl
  · rw [Option.map_some, ← List.singleton_append, ← List.append_assoc,
      List.drop_append_of_le_length within]

theorem EndsVisibly.of_afterBlanks (ends : EndsVisibly t) (skips : afterBlanks? t = some r) :
    EndsVisibly r := by
  obtain ⟨gap, rfl, -, blanks, -⟩ := afterBlanks_eq_some_iff.mp skips
  refine ends.of_append ?_
  rintro rfl
  obtain ⟨w, c, split, visible⟩ := ends
  have blank : isBlank c = true := by
    apply List.all_eq_true.mp blanks
    rw [← List.append_nil gap, split]
    simp
  rw [visible] at blank
  cases blank

theorem EndsVisibly.of_afterWord {word : Text} (ends : EndsVisibly t)
    (skips : afterWord? word t = some r) : EndsVisibly r := by
  rw [afterWord?, Option.ite_none_right_eq_some] at skips
  obtain ⟨-, skips⟩ := skips
  have nonempty : t.drop word.length ≠ [] := by
    intro none
    rw [none] at skips
    cases skips
  have later : EndsVisibly (t.drop word.length) :=
    EndsVisibly.of_append (u := t.take word.length) (by rwa [List.take_append_drop]) nonempty
  exact later.of_afterBlanks skips

section Gap

variable {gap : Text}

/-- A word behind which white space follows is the whole of the text in front, or stands in it
together with what follows. -/
theorem EndsVisibly.afterWord_append (ends : EndsVisibly t) {word : Text}
    (letters : word.all Char.isLower = true) (nonempty : gap ≠ []) (blanks : gap.all isBlank = true)
    (stop : r.head?.any isBlank = false) :
    (afterWord? word t = none ∧ afterWord? word (t ++ (gap ++ r)) = some r) ∨
      afterWord? word (t ++ (gap ++ r)) = (afterWord? word t).map (· ++ (gap ++ r)) := by
  have first : beginsWith word (t ++ (gap ++ r)) = beginsWith word t := by
    obtain ⟨c, gap, rfl⟩ := List.exists_cons_of_ne_nil nonempty
    exact beginsWith_append_plain letters
      (isLower_foldCase_of_isBlank (List.all_eq_true.mp blanks c List.mem_cons_self))
  rw [afterWord?, afterWord?, first]
  cases begins : beginsWith word t with
  | false => exact .inr rfl
  | true =>
      rw [if_pos rfl, if_pos rfl, List.drop_append_of_le_length (length_le_of_beginsWith begins)]
      by_cases whole : t.drop word.length = []
      · left
        rw [whole]
        exact ⟨rfl, afterBlanks_eq_some_iff.mpr ⟨gap, rfl, nonempty, blanks, stop⟩⟩
      · right
        have later : EndsVisibly (t.drop word.length) :=
          EndsVisibly.of_append (u := t.take word.length) (by rwa [List.take_append_drop]) whole
        exact later.afterBlanks_append _

variable (gap) in
/-- No phrase for a line number begins in a text and goes on behind it, unless what follows the white
space behind it could be part of the phrase. -/
theorem EndsVisibly.onLineDigits_append (ends : EndsVisibly t) (nonempty : gap ≠ [])
    (blanks : gap.all isBlank = true) (stop : r.head?.any isBlank = false)
    (other : r.head?.any (foldCase · == 'l') = false)
    (digit : r.head?.any isDecimalDigit = false) :
    onLineDigits? (t ++ (gap ++ r)) = onLineDigits? t := by
  have blank : (gap ++ r).head?.any isDecimalDigit = false := by
    obtain ⟨c, gap, rfl⟩ := List.exists_cons_of_ne_nil nonempty
    have blank : isBlank c = true := List.all_eq_true.mp blanks c List.mem_cons_self
    rw [List.cons_append, List.head?_cons, Option.any_some, ← Bool.not_eq_true]
    intro digit
    rw [isBlank_of_isWord (isWord_of_isDecimalDigit digit)] at blank
    cases blank
  have first : afterWord? "line".toList r = none := by
    cases r with
    | nil => rfl
    | cons c r =>
        have letter : (foldCase c == 'l') = false := other
        have other : beginsWith "line".toList (c :: r) = false := by simp [beginsWith, letter]
        exact if_neg (Bool.eq_false_iff.mp other)
  have onLetters : "on".toList.all Char.isLower = true := rfl
  have lineLetters : "line".toList.all Char.isLower = true := rfl
  rw [onLineDigits_eq, onLineDigits_eq, afterLineWords?, afterLineWords?]
  obtain ⟨none, found⟩ | same := ends.afterWord_append onLetters nonempty blanks stop
  · rw [none, found, Option.bind_some, first]
    rfl
  · rw [same]
    cases skipped : afterWord? "on".toList t with
    | none => rfl
    | some s =>
        have ends : EndsVisibly s := ends.of_afterWord skipped
        rw [Option.map_some, Option.bind_some, Option.bind_some]
        obtain ⟨none, found⟩ | same := ends.afterWord_append lineLetters nonempty blanks stop
        · have empty : r.takeWhile isDecimalDigit = [] := takeWhile_append (w := []) digit
          rw [none, found, Option.bind_some, empty]
          rfl
        · rw [same, Option.bind_map]
          congr 1
          funext s
          rw [Function.comp_apply, takeWhile_append blank]

end Gap

section Number

/-- Where no phrase goes on behind a text, the first one stands in it or behind it. -/
theorem firstLineNumber_or
    (apart : ∀ x y, u = x ++ y → y ≠ [] → onLineDigits? (y ++ v) = onLineDigits? y) :
    firstLineNumber? (u ++ v) = (firstLineNumber? u).or (firstLineNumber? v) := by
  induction u with
  | nil => rfl
  | cons c u ih =>
      have here := apart [] (c :: u) rfl (List.cons_ne_nil c u)
      have later := ih fun x y split nonempty => apart (c :: x) y (by rw [split]; rfl) nonempty
      rw [List.cons_append] at here ⊢
      rw [firstLineNumber?, firstLineNumber?, here, later]
      cases onLineDigits? (c :: u) <;> rfl

/-- A text holds no phrase if no part of it begins one. -/
theorem firstLineNumber_eq_none (absent : ∀ x y d, u = x ++ y → ¬ OnLine y d) :
    firstLineNumber? u = none := by
  rw [Option.eq_none_iff_forall_ne_some]
  intro d numbers
  obtain ⟨x, y, split, phrase, -⟩ := firstLineNumber_eq_some_iff.mp numbers
  exact absent x y d split phrase

theorem firstLineNumber_path {path : Text} (unbroken : ∀ c ∈ path, isBlank c = false) :
    firstLineNumber? path = none := by
  apply firstLineNumber_eq_none
  rintro x y d rfl ⟨on, gap, line, space, rest, rfl, -, nonempty, blanks, -⟩
  obtain ⟨c, gap, rfl⟩ := List.exists_cons_of_ne_nil nonempty
  have visible : isBlank c = false := unbroken c (by simp)
  rw [List.all_eq_true.mp blanks c List.mem_cons_self] at visible
  cases visible

theorem isDecimalDigit_of_isLabelChar (label : isLabelChar c = true) :
    isDecimalDigit c = false := by
  rw [isLabelChar, Bool.or_eq_true, beq_iff_eq] at label
  obtain alpha | rfl := label
  · have letter : (c.isUpper || c.isLower) = true := alpha
    rw [Bool.or_eq_true, isUpper_iff, isLower_iff] at letter
    have plain : c.toNat < 0x80 := by omega
    have other : c.isDigit = false := by
      rw [← Bool.not_eq_true, Char.isDigit_iff_toNat]
      intro range
      have range : 48 ≤ c.toNat ∧ c.toNat ≤ 57 := range
      omega
    rw [isDecimalDigit, digitValue?, if_pos plain, other]
    rfl
  · rfl

/-- No phrase begins in a label: it would have a colon in front of its digits, or digits in the
label. -/
theorem not_onLine_label {label d : Text} (words : label.all isLabelChar = true) (t : Text) :
    ¬ OnLine (label ++ ':' :: t) d := by
  rintro ⟨on, gap, line, space, rest, split, onFolded, -, gaps, lineFolded, -, spaces, nonempty,
    digits, -⟩
  have colon : ':' ∉ on ++ (gap ++ (line ++ space)) := by
    simp only [List.mem_append, not_or]
    refine ⟨fun mem => ?_, fun mem => ?_, fun mem => ?_, fun mem => ?_⟩
    · have letter := onFolded ▸ List.mem_map_of_mem (f := foldCase) mem
      exact absurd letter (by decide)
    · exact absurd (List.all_eq_true.mp gaps ':' mem) (by decide)
    · have letter := lineFolded ▸ List.mem_map_of_mem (f := foldCase) mem
      exact absurd letter (by decide)
    · exact absurd (List.all_eq_true.mp spaces ':' mem) (by decide)
  obtain ⟨e, digits', rfl⟩ := List.exists_cons_of_ne_nil nonempty
  have digit : isDecimalDigit e = true := List.all_eq_true.mp digits e List.mem_cons_self
  have split : label ++ ':' :: t = (on ++ (gap ++ (line ++ space))) ++ e :: (digits' ++ rest) := by
    rw [split]
    simp
  obtain ⟨z, front, behind⟩ | ⟨z, front, behind⟩ := List.append_eq_append_iff.mp split
  · cases z with
    | nil =>
        cases behind
        cases digit
    | cons f z =>
        cases behind
        exact colon (by rw [front]; simp)
  · cases z with
    | nil =>
        cases behind
        cases digit
    | cons f z =>
        obtain ⟨rfl, -⟩ := List.cons.inj behind
        have word : isLabelChar e = true := List.all_eq_true.mp words e (by rw [front]; simp)
        rw [isDecimalDigit_of_isLabelChar word] at digit
        cases digit

theorem firstLineNumber_label {label : Text} (words : label.all isLabelChar = true) (t : Text) :
    firstLineNumber? (label ++ ':' :: t) = firstLineNumber? t := by
  induction label with
  | nil => rfl
  | cons c label ih =>
      have absent : onLineDigits? (c :: label ++ ':' :: t) = none := by
        rw [Option.eq_none_iff_forall_ne_some]
        intro d phrase
        exact not_onLine_label words t (onLineDigits_eq_some_iff.mp phrase)
      rw [List.all_cons, Bool.and_eq_true] at words
      rw [List.cons_append] at absent ⊢
      rw [firstLineNumber?, absent]
      exact ih words.2

end Number

section Place

variable {path gap : Text}

theorem EndsVisibly.not_blank (ends : EndsVisibly t) : ¬ (t ++ v).all isBlank = true := by
  obtain ⟨w, c, rfl, visible⟩ := ends
  intro blanks
  rw [List.all_eq_true.mp blanks c (by simp)] at visible
  cases visible

/-- Where a text is cut at white space within a lead and the path behind it, the path stands in the
front, or the front ends with the word of the lead and the path stands behind that white space. -/
theorem EndsVisibly.infix_or_of_lead {lead s : Text} (ends : EndsVisibly t) (leads : IsLead lead)
    (present : path ≠ []) (unbroken : ∀ c ∈ path, isBlank c = false) (nonempty : gap ≠ [])
    (blanks : gap.all isBlank = true) (stop : r.head?.any isBlank = false)
    (split : t ++ (gap ++ r) = lead ++ (path ++ s)) :
    path <:+: t ∨ "in".toList <:+ t ∧ r = path ++ s := by
  obtain ⟨before, space, rfl, -, blanks', -, spaces⟩ := leads
  obtain ⟨b, gap', rfl⟩ := List.exists_cons_of_ne_nil nonempty
  have blank : isBlank b = true := List.all_eq_true.mp blanks b List.mem_cons_self
  have start {z x : Text} (same : b :: gap' ++ r = z ++ x) : z = [] ∨ b ∈ z := by
    cases z with
    | nil => exact .inl rfl
    | cons c z => exact .inr ((List.cons.inj same).1 ▸ List.mem_cons_self)
  have skip {g x : Text} (blanks : g.all isBlank = true) (stop : x.head?.any isBlank = false) :
      (g ++ x).dropWhile isBlank = x := by
    rw [List.dropWhile_append_of_pos (List.all_eq_true.mp blanks)]
    cases x with
    | nil => rfl
    | cons c x => exact List.dropWhile_cons_of_neg (Bool.eq_false_iff.mp stop)
  have behind_of (same : b :: gap' ++ r = space ++ (path ++ s)) : r = path ++ s := by
    have visible : (path ++ s).head?.any isBlank = false := by
      obtain ⟨c, path, rfl⟩ := List.exists_cons_of_ne_nil present
      exact unbroken c List.mem_cons_self
    rw [← skip blanks stop, same, skip spaces visible]
  rw [List.append_assoc, List.append_assoc] at split
  obtain ⟨z, rfl, -⟩ | ⟨t', rfl, behind⟩ := List.append_eq_append_iff.mp split
  · exact absurd blanks' ends.not_blank
  obtain ⟨z, word, further⟩ | ⟨t', rfl, further⟩ := List.append_eq_append_iff.mp behind.symm
  · obtain rfl | mem := start further
    · rw [word, List.append_nil]
      exact .inr ⟨List.suffix_append _ _, behind_of further⟩
    · have letter : b ∈ "in".toList := by
        rw [word]
        exact List.mem_append_right t' mem
      obtain rfl | rfl : b = 'i' ∨ b = 'n' := by simpa using letter
      · cases blank
      · cases blank
  · obtain ⟨t', rfl, rest⟩ | ⟨z, rfl, rest⟩ := List.append_eq_append_iff.mp further
    · left
      obtain ⟨z, rfl, -⟩ | ⟨z, rfl, last⟩ := List.append_eq_append_iff.mp rest
      · exact ⟨before ++ ("in".toList ++ space), z, by simp⟩
      · obtain rfl | mem := start last
        · exact ⟨before ++ ("in".toList ++ space), [], by simp⟩
        · rw [unbroken b (List.mem_append_right t' mem)] at blank
          cases blank
    · obtain rfl | present' := Decidable.em (t' = [])
      · rw [List.append_nil]
        exact .inr ⟨List.suffix_append _ _, behind_of rest⟩
      · have ends : EndsVisibly t' :=
          EndsVisibly.of_append (u := before ++ "in".toList) (by simpa using ends) present'
        exact absurd spaces ends.not_blank

/-- A place does not begin in a message that ends visibly and does not hold the path. -/
theorem EndsVisibly.placePattern_none (ends : EndsVisibly t) (present : path ≠ [])
    (unbroken : ∀ c ∈ path, isBlank c = false) (elsewhere : ¬ path <:+: t) (before v : Text) :
    placePattern path before (t ++ (" in ".toList ++ v)) = none := by
  rw [Option.eq_none_iff_forall_ne_some]
  intro n found
  obtain ⟨lead, s, leads, split⟩ := exists_of_placePattern found
  have split : t ++ ([' '] ++ ("in".toList ++ ' ' :: v)) = lead ++ (path ++ s) := split
  obtain within | ⟨word, behind⟩ :=
    ends.infix_or_of_lead leads present unbroken (List.cons_ne_nil _ _) rfl rfl split
  · exact elsewhere within
  · have part : path <+: "in".toList := by
      obtain ⟨z, rfl, last⟩ | ⟨z, word, -⟩ := List.append_eq_append_iff.mp behind
      · cases z with
        | nil => exact ⟨[], by simp⟩
        | cons c z =>
            obtain ⟨rfl, -⟩ := List.cons.inj last
            have visible : isBlank ' ' = false := unbroken ' ' (by simp)
            cases visible
      · exact ⟨z, word.symm⟩
    exact elsewhere (part.isInfix.trans word.isInfix)

theorem lineSuffixLength_line {digits : Text} (nonempty : digits ≠ [])
    (digit : digits.all isDecimalDigit = true) :
    lineSuffixLength (" on line ".toList ++ digits) = (" on line ".toList ++ digits).length := by
  obtain ⟨c, digits, rfl⟩ := List.exists_cons_of_ne_nil nonempty
  have visible : isBlank c = false := by
    rw [List.all_cons, Bool.and_eq_true] at digit
    exact isBlank_of_isWord (isWord_of_isDecimalDigit digit.1)
  have behind : afterBlanks? (' ' :: c :: digits) = some (c :: digits) :=
    afterBlanks_eq_some_iff.mpr ⟨[' '], rfl, List.cons_ne_nil _ _, rfl, visible⟩
  have skips : Outline.afterLinePhrase? (" on line ".toList ++ c :: digits) = some (c :: digits) :=
    behind
  have run : (c :: digits).takeWhile isDecimalDigit = c :: digits := by
    simpa using takeWhile_append_stop (r := []) digit rfl
  rw [Outline.lineSuffixLength_eq, skips, Option.bind_some, run,
    if_neg (mt List.length_eq_zero_iff.mp nonempty)]
  exact Nat.sub_add_cancel (by rw [List.length_append]; exact Nat.le_add_left _ _)

/-- The place is taken away behind a message, together with the line. -/
theorem EndsVisibly.dropPlace_eq {message digits : Text} (ends : EndsVisibly message)
    (present : path ≠ []) (unbroken : ∀ c ∈ path, isBlank c = false)
    (elsewhere : ¬ path <:+: message) (nonempty : digits ≠ [])
    (digit : digits.all isDecimalDigit = true) :
    dropPlace path (message ++ (" in ".toList ++ (path ++ (" on line ".toList ++ digits))))
      = message := by
  have kept (u : Text) (c : Char) (v : Text) (split : message = u ++ c :: v) :
      placePattern path (u.reverse ++ [])
        (c :: (v ++ (" in ".toList ++ (path ++ (" on line ".toList ++ digits))))) = none := by
    rw [← List.cons_append]
    refine EndsVisibly.placePattern_none ?_ present unbroken ?_ _ _
    · exact EndsVisibly.of_append (u := u) (by rwa [← split]) (List.cons_ne_nil c v)
    · exact fun within => elsewhere (within.trans (split ▸ (List.suffix_append u (c :: v)).isInfix))
  have leads : IsLead " in ".toList :=
    ⟨[' '], [' '], rfl, List.cons_ne_nil _ _, rfl, List.cons_ne_nil _ _, rfl⟩
  have found : placePattern path (message.reverse ++ [])
      (" in ".toList ++ (path ++ (" on line ".toList ++ digits)))
        = some (" in ".toList ++ (path ++ (" on line ".toList ++ digits))).length := by
    rw [placePattern_lead leads present unbroken, lineSuffixLength_line nonempty digit]
    simp only [List.length_append, Nat.add_assoc]
  have nonempty' : " in ".toList ++ (path ++ (" on line ".toList ++ digits)) ≠ [] :=
    List.append_ne_nil_of_left_ne_nil (List.cons_ne_nil _ _) _
  rw [dropPlace, substitute, cut, cutAfter_kept kept, cutAfter_whole nonempty' found,
    List.flatMap_append, flatMap_substitute_kept]
  exact List.append_nil message

end Place

/-- A label, a message, the place of the checked file and the number of a line. -/
def sentence (label message path : Text) (line : Nat) : Text :=
  label ++ (":  ".toList ++
    (message ++ (" in ".toList ++ (path ++ (" on line ".toList ++ ofNat line)))))

/-- What the parts of a sentence are like: the label begins with a letter and has only letters and
spaces, the message is one line without white space at its ends and does not hold the path, the path
has no white space, and the line has no more digits than can be read. -/
structure IsSentence (label message path : Text) (line : Nat) : Prop where
  letter : label.head?.any Char.isAlpha = true
  words : label.all isLabelChar = true
  present : message ≠ []
  single : IsOneLine message
  start : message.head?.any isBlank = false
  stop : message.getLast?.any isBlank = false
  elsewhere : ¬ path <:+: message
  unbroken : ∀ c ∈ path, isBlank c = false
  readable : line < Nat.pow 10 digitLimit

namespace IsSentence

variable {label message path further : Text} {line : Nat}

theorem endsVisibly (well : IsSentence label message path line) : EndsVisibly message := by
  obtain rfl | ⟨w, c, rfl⟩ := List.eq_nil_or_concat message
  · exact absurd rfl well.present
  · rw [List.concat_eq_append] at well ⊢
    have stop := well.stop
    rw [List.getLast?_concat] at stop
    exact ⟨w, c, rfl, stop⟩

theorem exists_letter (well : IsSentence label message path line) :
    ∃ c r, label = c :: r ∧ c.isAlpha = true := by
  have letter := well.letter
  cases label with
  | nil => cases letter
  | cons c r => exact ⟨c, r, rfl, letter⟩

theorem ne_nil (well : IsSentence label message path line) :
    sentence label message path line ≠ [] := by
  obtain ⟨c, r, rfl, -⟩ := well.exists_letter
  exact List.cons_ne_nil _ _

theorem path_ne_nil (well : IsSentence label message path line) : path ≠ [] := by
  rintro rfl
  exact well.elsewhere List.nil_infix

theorem isOneLine_sentence (well : IsSentence label message path line) :
    IsOneLine (sentence label message path line) := by
  have words : IsOneLine label := by
    intro c mem
    have word := List.all_eq_true.mp well.words c mem
    rw [isLabelChar, Bool.or_eq_true, beq_iff_eq] at word
    obtain alpha | rfl := word
    · exact isLineBreak_of_not_isBlank (isBlank_of_isAlpha alpha)
    · rfl
  have path : IsOneLine path := fun c mem => isLineBreak_of_not_isBlank (well.unbroken c mem)
  exact words.append ((by decide : IsOneLine _).append (well.single.append
    ((by decide : IsOneLine _).append (path.append
      ((by decide : IsOneLine _).append (isOneLine_ofNat line))))))

/-- Nothing is trimmed off a sentence: it begins with a letter and ends with a digit. -/
theorem trim_sentence (well : IsSentence label message path line) :
    trim (sentence label message path line) = sentence label message path line := by
  apply trim_of_ends
  · obtain ⟨c, label, rfl, alpha⟩ := well.exists_letter
    exact isBlank_of_isAlpha alpha
  · obtain ⟨w, d, number⟩ : ∃ w d, ofNat line = w ++ [d] := by
      obtain none | ⟨w, d, number⟩ := List.eq_nil_or_concat (ofNat line)
      · exact absurd none Nat.toDigits_ne_nil
      · exact ⟨w, d, by rw [number, List.concat_eq_append]⟩
    have digit : d.isDigit = true := isDigit_of_mem_ofNat (n := line) (by rw [number]; simp)
    have last : (sentence label message path line).getLast? = some d := by
      simp only [sentence, number, ← List.append_assoc, List.getLast?_concat]
    rw [last]
    exact isBlank_of_isDigit digit

theorem firstLine_sentence (well : IsSentence label message path line)
    (behind : further.head?.all isLineBreak = true) :
    firstLine (sentence label message path line ++ further)
      = sentence label message path line := by
  have present := well.ne_nil
  have started : (sentence label message path line).reverse ≠ [] := by simpa using present
  obtain ⟨ls, first⟩ := exists_linesAfter_of_break started behind
  rw [List.reverse_reverse] at first
  have shown : (!(sentence label message path line).isEmpty) = true := by simpa using present
  rw [firstLine, lines, linesAfter_append well.isOneLine_sentence, List.append_nil, first,
    List.map_cons, well.trim_sentence, List.find?_cons, shown]
  rfl

theorem firstLineNumber_sentence (well : IsSentence label message path line) :
    firstLineNumber? (sentence label message path line)
      = (firstLineNumber? message).or (some (ofNat line)) := by
  have colon (t : Text) : ":  ".toList ++ t = ':' :: ("  ".toList ++ t) := rfl
  have spaces (t : Text) : firstLineNumber? ("  ".toList ++ t) = firstLineNumber? t := rfl
  have word (t : Text) : firstLineNumber? (" in ".toList ++ t) = firstLineNumber? t := rfl
  have behind (v : Text) : firstLineNumber? (message ++ (" in ".toList ++ v))
      = (firstLineNumber? message).or (firstLineNumber? v) := by
    rw [← word v]
    refine firstLineNumber_or fun x y split nonempty => ?_
    have ends : EndsVisibly y := EndsVisibly.of_append (split ▸ well.endsVisibly) nonempty
    exact ends.onLineDigits_append [' '] (List.cons_ne_nil _ _) rfl rfl rfl rfl
  have phrase : OnLine ("on line ".toList ++ ofNat line) (ofNat line) :=
    ⟨"on".toList, [' '], "line".toList, [' '], [], by simp, rfl, List.cons_ne_nil _ _, rfl, rfl,
      List.cons_ne_nil _ _, rfl, Nat.toDigits_ne_nil, isDecimalDigit_ofNat line, rfl⟩
  have number : firstLineNumber? (path ++ (" on line ".toList ++ ofNat line))
      = some (ofNat line) := by
    rw [firstLineNumber_or, firstLineNumber_path well.unbroken, Option.none_or]
    · have space (t : Text) : firstLineNumber? (" on line ".toList ++ t)
          = firstLineNumber? ("on line ".toList ++ t) := rfl
      rw [space]
      exact firstLineNumber_eq_some_iff.mpr phrase.numbersLine
    · intro x y split nonempty
      have ends : EndsVisibly y := EndsVisibly.of_unbroken nonempty fun c mem =>
        well.unbroken c (split ▸ List.mem_append_right x mem)
      exact ends.onLineDigits_append [' '] (List.cons_ne_nil _ _) rfl rfl rfl rfl
  rw [sentence, colon, firstLineNumber_label well.words, spaces, behind, number]

theorem dropLabel_sentence (well : IsSentence label message path line) :
    dropLabel (sentence label message path line)
      = message ++ (" in ".toList ++ (path ++ (" on line ".toList ++ ofNat line))) := by
  have taken : (sentence label message path line).takeWhile isLabelChar = label :=
    takeWhile_append_stop well.words rfl
  have letter : (sentence label message path line).head?.any Char.isAlpha = true := by
    obtain ⟨c, label, rfl, alpha⟩ := well.exists_letter
    exact alpha
  have colon : ((sentence label message path line).drop label.length).head? = some ':' := by
    rw [sentence, List.drop_left]
    rfl
  have visible : (message ++ (" in ".toList ++
      (path ++ (" on line ".toList ++ ofNat line)))).head?.any isBlank = false := by
    obtain ⟨c, message, rfl⟩ := List.exists_cons_of_ne_nil well.present
    exact well.start
  have skips : afterBlanks? ((sentence label message path line).drop (label.length + 1))
      = some (message ++ (" in ".toList ++ (path ++ (" on line ".toList ++ ofNat line)))) := by
    rw [← List.drop_drop, sentence, List.drop_left]
    exact afterBlanks_eq_some_iff.mpr ⟨"  ".toList, rfl, List.cons_ne_nil _ _, rfl, visible⟩
  rw [dropLabel, taken, letter, colon, skips]
  rfl

end IsSentence

/-- A sentence is read back just when a number that its message itself gives is that of the line,
whatever follows in further lines. Else the message is read back with the number it gives. -/
theorem read_sentence {label message path further : Text} {line : Nat}
    (well : IsSentence label message path line) (behind : further.head?.all isLineBreak = true) :
    (read? path (sentence label message path line ++ further) = some ⟨message, line⟩ ↔
      ∀ digits, NumbersLine message digits → readDigits? digits = some line) ∧
    ∀ digits, NumbersLine message digits →
      read? path (sentence label message path line ++ further)
        = (readDigits? digits).map (⟨message, ·⟩) := by
  have kept : trim message = message := trim_of_ends well.start well.stop
  have present : ofNat line ≠ [] := Nat.toDigits_ne_nil
  have place := well.endsVisibly.dropPlace_eq well.path_ne_nil well.unbroken well.elsewhere present
    (isDecimalDigit_ofNat line)
  have number : readDigits? (ofNat line) = some line := readDigits_ofNat well.readable
  have read := read_of_firstLine path (well.firstLine_sentence behind) well.ne_nil
  rw [well.firstLineNumber_sentence, well.dropLabel_sentence, place, kept] at read
  simp only [read, ← firstLineNumber_eq_some_iff]
  cases firstLineNumber? message with
  | none => simp [number]
  | some digits => simp

/-- Words such as `in`, `on line` and a colon in the message do no harm. -/
theorem read_sentence_words :
    let message := "syntax error, unexpected ': in on line', expecting \")\"".toList
    let path := "/tmp/phpcheck_a.php".toList
    let further := "\nErrors parsing /tmp/phpcheck_a.php\n".toList
    IsSentence "PHP Parse error".toList message path 7 ∧
      read? path (sentence "PHP Parse error".toList message path 7 ++ further)
        = some ⟨message, 7⟩ := by
  intro message path further
  have elsewhere : ¬ path <:+: message := fun within =>
    absurd (within.subset (List.mem_cons_self : '/' ∈ path)) (by decide)
  have readable : 7 < Nat.pow 10 digitLimit :=
    (length_ofNat_le_iff 7 digitLimit (by decide)).mp (by decide)
  have well : IsSentence "PHP Parse error".toList message path 7 :=
    ⟨by decide, by decide, by decide, by decide, by decide, by decide, elsewhere,
      unbroken_of_all rfl, readable⟩
  refine ⟨well, (read_sentence well (by decide)).1.mpr fun digits numbers => ?_⟩
  have none : firstLineNumber? message = none := by decide
  rw [← firstLineNumber_eq_some_iff, none] at numbers
  cases numbers

/-- A message that quotes a line number is read back with that number. -/
theorem read_sentence_quoted_line :
    let message := "syntax error, unexpected 'on line 12'".toList
    let path := "/tmp/phpcheck_a.php".toList
    IsSentence "PHP Parse error".toList message path 3 ∧
      read? path (sentence "PHP Parse error".toList message path 3 ++ ['\n'])
        = some ⟨message, 12⟩ := by
  intro message path
  have elsewhere : ¬ path <:+: message := fun within =>
    absurd (within.subset (List.mem_cons_self : '/' ∈ path)) (by decide)
  have readable : 3 < Nat.pow 10 digitLimit :=
    (length_ofNat_le_iff 3 digitLimit (by decide)).mp (by decide)
  exact ⟨⟨by decide, by decide, by decide, by decide, by decide, by decide, elsewhere,
    unbroken_of_all rfl, readable⟩, by decide⟩

end LintReport
end PhpGate
