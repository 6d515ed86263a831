import PhpGate.Text.Digit
import PhpGate.Text.Word

/-!
Letters that are compared without case, decimal digits and white space, against the word characters:
the first two are word characters in every script, and white space never is.
-/

namespace PhpGate.Text

variable {c : Char} {word t r : Text}

theorem isUpper_iff : c.isUpper = true ↔ 0x41 ≤ c.toNat ∧ c.toNat ≤ 0x5a :=
  decide_eq_true_iff

theorem isLower_iff : c.isLower = true ↔ 0x61 ≤ c.toNat ∧ c.toNat ≤ 0x7a :=
  Bool.and_eq_true_iff.trans (and_congr decide_eq_true_iff decide_eq_true_iff)

theorem toLower_cases (c : Char) :
    c.toLower = c ∨ (c.isUpper = true ∧ c.toLower.toNat = c.toNat + 0x20) := by
  by_cases upper : c.val ≥ 'A'.val ∧ c.val ≤ 'Z'.val
  · have isUpper : c.isUpper = true := decide_eq_true upper
    have range := isUpper_iff.mp isUpper
    have shift : (32 : UInt32).toNat = 0x20 := rfl
    have lowered : c.toLower.val = c.val + 32 := congrArg Char.val (dif_pos upper)
    refine .inr ⟨isUpper, ?_⟩
    rw [← Char.toNat_val] at range
    rw [← Char.toNat_val, ← Char.toNat_val, lowered, UInt32.toNat_add, Nat.mod_eq_of_lt] <;> omega
  · exact .inl (dif_neg upper)

theorem isAlpha_of_isLower_toLower (letter : c.toLower.isLower = true) : c.isAlpha = true := by
  refine Bool.or_eq_true_iff.mpr ?_
  obtain same | ⟨upper, -⟩ := toLower_cases c
  · exact .inr (same ▸ letter)
  · exact .inl upper

/-- What stands for a letter is a letter of ASCII or one of four others. -/
theorem foldCase_cases (letter : (foldCase c).isLower = true) :
    c = 'ſ' ∨ c = '\u212a' ∨ c = 'İ' ∨ c = 'ı' ∨ c.isAlpha = true := by
  rw [foldCase] at letter
  split at letter
  · exact .inl ‹_›
  · split at letter
    · exact .inr (.inl ‹_›)
    · split at letter
      · rename_i dotted
        exact .inr (.inr (dotted.imp_right .inl))
      · exact .inr (.inr (.inr (.inr (isAlpha_of_isLower_toLower letter))))

section Ranges

variable {ranges others : List (Nat × Nat)} {n : Nat}

theorem inRanges_append : inRanges (ranges ++ others) n = (inRanges ranges n || inRanges others n) :=
  List.any_append

theorem inRanges_of_covered (h : inRanges ranges n = true)
    (covered : ranges.all (fun a => others.any fun b => b.1.ble a.1 && a.2.ble b.2) = true) :
    inRanges others n = true := by
  simp only [inRanges, List.any_eq_true, List.all_eq_true, Bool.and_eq_true, Nat.ble_eq,
    decide_eq_true_eq] at *
  obtain ⟨a, mem, low, high⟩ := h
  obtain ⟨b, mem', low', high'⟩ := covered a mem
  exact ⟨b, mem', Nat.le_trans low' low, Nat.le_trans high high'⟩

theorem inRanges_of_disjoint (others : List (Nat × Nat)) (h : inRanges ranges n = true)
    (disjoint : ranges.all (fun a => others.all fun b => a.2.blt b.1 || b.2.blt a.1) = true) :
    inRanges others n = false := by
  rw [← Bool.not_eq_true]
  simp only [inRanges, List.any_eq_true, List.all_eq_true, Bool.and_eq_true, Bool.or_eq_true,
    Nat.blt_eq, decide_eq_true_eq] at *
  rintro ⟨b, mem', within⟩
  obtain ⟨a, mem, low, high⟩ := h
  have apart := disjoint a mem b mem'
  omega

end Ranges

/-- The codes of the word characters of ASCII. -/
def plainWords : List (Nat × Nat) :=
  [(0x30, 0x39), (0x41, 0x5a), (0x5f, 0x5f), (0x61, 0x7a)]

/-- The codes of all word characters. -/
def wordRanges : List (Nat × Nat) :=
  plainWords ++ (alphabeticWords ++ ideographicWords ++ supplementaryWords)

theorem isAlphanum_or_eq : (c.isAlphanum || c == '_') = inRanges plainWords c.toNat := by
  have code : c = '_' ↔ c.toNat = 0x5f :=
    ⟨fun e => e ▸ rfl, fun e => by rw [← Char.ofNat_toNat c, e]⟩
  have digits : '0'.toNat = 0x30 ∧ '9'.toNat = 0x39 := ⟨rfl, rfl⟩
  change (c.isUpper || c.isLower || c.isDigit || c == '_') = _
  rw [Bool.eq_iff_iff]
  simp only [plainWords, inRanges, List.any_cons, List.any_nil,
    Bool.or_eq_true, Bool.and_eq_true, decide_eq_true_eq, beq_iff_eq, Bool.or_false, isUpper_iff,
    isLower_iff, Char.isDigit_iff_toNat, code]
  omega

theorem isWord_eq (c : Char) : isWord c = inRanges wordRanges c.toNat := by
  rw [isWord, isAlphanum_or_eq, wordRanges, inRanges_append, inRanges_append, inRanges_append]
  split
  · rename_i ascii
    have low : inRanges [(0, 0x7f)] c.toNat = true := by
      simp only [inRanges, List.any_cons, List.any_nil, Bool.or_false, Bool.and_eq_true,
        decide_eq_true_eq]
      omega
    rw [inRanges_of_disjoint alphabeticWords low (by decide +kernel),
      inRanges_of_disjoint ideographicWords low (by decide +kernel),
      inRanges_of_disjoint supplementaryWords low (by decide +kernel),
      Bool.or_false, Bool.or_false, Bool.or_false]
  · rename_i wide
    have high : inRanges plainWords c.toNat = false := by
      simp only [plainWords, inRanges, List.any_cons, List.any_nil, Bool.or_false,
        Bool.or_eq_false_iff, Bool.and_eq_false_iff, decide_eq_false_iff_not]
      omega
    rw [high, Bool.false_or]

theorem isWord_of_isAlphanum (h : c.isAlphanum = true) : isWord c = true := by
  rw [isWord_eq, wordRanges, inRanges_append, ← isAlphanum_or_eq, h]
  rfl

theorem isWord_of_foldCase (letter : (foldCase c).isLower = true) : isWord c = true := by
  obtain rfl | rfl | rfl | rfl | alpha := foldCase_cases letter
  · decide +kernel
  · decide +kernel
  · decide +kernel
  · decide +kernel
  · exact isWord_of_isAlphanum (by rw [Char.isAlphanum, alpha, Bool.true_or])

theorem isWord_of_isDecimalDigit (digit : isDecimalDigit c = true) : isWord c = true := by
  rw [isDecimalDigit, digitValue?] at digit
  split at digit
  · by_cases number : c.isDigit = true
    · exact isWord_of_isAlphanum (by rw [Char.isAlphanum, number, Bool.or_true])
    · rw [if_neg number] at digit
      cases digit
  · rw [Option.isSome_map, List.find?_isSome] at digit
    have coded : inRanges (scriptZeros.map fun z => (z, z + 9)) c.toNat = true := by
      simpa [inRanges] using digit
    rw [isWord_eq]
    exact inRanges_of_covered coded (by decide +kernel)

theorem isWord_of_isBlank (blank : isBlank c = true) : isWord c = false := by
  rw [isWord_eq]
  exact inRanges_of_disjoint wordRanges blank (by decide +kernel)

theorem isBlank_of_isWord {c : Char} (word : isWord c = true) : isBlank c = false := by
  rw [← Bool.not_eq_true]
  intro blank
  rw [isWord_of_isBlank blank] at word
  cases word

theorem isBlank_of_isAlpha (alpha : c.isAlpha = true) : isBlank c = false :=
  isBlank_of_isWord (isWord_of_isAlphanum (by rw [Char.isAlphanum, alpha, Bool.true_or]))

theorem isLower_foldCase_of_isBlank (blank : isBlank c = true) : (foldCase c).isLower = false := by
  rw [← Bool.not_eq_true]
  intro letter
  rw [isBlank_of_isWord (isWord_of_foldCase letter)] at blank
  cases blank

/-- A text begins with a word if it does so once case is folded. -/
theorem beginsWith_iff : beginsWith word t = true ↔ (t.take word.length).map foldCase = word := by
  induction word generalizing t with
  | nil => simp [beginsWith]
  | cons w word ih =>
      cases t with
      | nil => simp [beginsWith]
      | cons c t => simp [beginsWith, ih]

theorem length_le_of_beginsWith (begins : beginsWith word t = true) :
    word.length ≤ t.length := by
  fun_induction beginsWith word t with
  | case1 t => exact Nat.zero_le _
  | case2 => cases begins
  | case3 w ws c cs ih => exact Nat.succ_le_succ (ih (Bool.and_eq_true_iff.mp begins).2)

/-- No word goes on with a character that is no letter. -/
theorem beginsWith_append_plain (letters : word.all Char.isLower = true)
    (plain : (foldCase c).isLower = false) :
    beginsWith word (t ++ c :: r) = beginsWith word t := by
  induction word generalizing t with
  | nil => simp [beginsWith]
  | cons w word ih =>
      simp only [List.all_cons, Bool.and_eq_true] at letters
      cases t with
      | nil =>
          have other : foldCase c ≠ w := by
            rintro rfl
            rw [plain] at letters
            cases letters.1
          simp [beginsWith, other]
      | cons d t => simp [beginsWith, ih letters.2]

end PhpGate.Text
