import PhpGate.Proofs.Source.Declaration

/-!
Paths of declarations: identifiers with single backslashes between them, and perhaps one in front.
The check takes just these, and besides each of them with one line feed behind it. No declaration
holds white space in its path, so declarations are rejected just where their path is none.
-/

namespace PhpGate.Source

open Text

/-- A letter of ASCII or an underscore. -/
def BeginsPart (c : Char) : Prop :=
  ('A' ≤ c ∧ c ≤ 'Z') ∨ ('a' ≤ c ∧ c ≤ 'z') ∨ c = '_'

/-- The same, or a digit of ASCII. -/
def ContinuesPart (c : Char) : Prop :=
  BeginsPart c ∨ ('0' ≤ c ∧ c ≤ '9')

/-- An identifier. -/
inductive IsPart : Text → Prop
  | mk {c : Char} {v : Text} (head : BeginsPart c) (tail : ∀ d ∈ v, ContinuesPart d) :
      IsPart (c :: v)

/-- Identifiers, each two of them with a backslash between them. -/
inductive AreParts : Text → Prop
  | single {w : Text} (part : IsPart w) : AreParts w
  | cons {w p : Text} (part : IsPart w) (rest : AreParts p) : AreParts (w ++ '\\' :: p)

/-- The grammar of paths. -/
inductive IsPath : Text → Prop
  | relative {p : Text} (parts : AreParts p) : IsPath p
  | absolute {p : Text} (parts : AreParts p) : IsPath ('\\' :: p)

variable {p r t w : Text} {c : Char} {opens : Bool}

theorem isIdentifierHead_iff : isIdentifierHead c = true ↔ BeginsPart c := by
  have letter : c.isAlpha = true ↔ ('A' ≤ c ∧ c ≤ 'Z') ∨ ('a' ≤ c ∧ c ≤ 'z') := by
    refine (Bool.or_eq_true_iff.trans (or_congr isUpper_iff isLower_iff)).trans ?_
    simp only [Char.le_def, UInt32.le_iff_toNat_le]
    rfl
  rw [isIdentifierHead, BeginsPart, Bool.or_eq_true, beq_iff_eq, letter, or_assoc]

theorem isIdentifierTail_iff : isIdentifierTail c = true ↔ ContinuesPart c := by
  have digit : c.isDigit = true ↔ '0' ≤ c ∧ c ≤ '9' := by
    rw [Char.isDigit_iff_toNat, Char.le_def, Char.le_def, UInt32.le_iff_toNat_le,
      UInt32.le_iff_toNat_le]
    rfl
  rw [ContinuesPart, ← isIdentifierHead_iff, ← digit]
  simp only [isIdentifierTail, isIdentifierHead, Char.isAlphanum, Bool.or_eq_true, beq_iff_eq,
    or_right_comm]

section Completeness

theorem isPathFrom_tail (tail : ∀ d ∈ w, ContinuesPart d) :
    isPathFrom false (w ++ r) = isPathFrom false r := by
  induction w with
  | nil => rfl
  | cons d w ih =>
      obtain ⟨here, later⟩ := List.forall_mem_cons.mp tail
      have letter : isIdentifierTail d = true := isIdentifierTail_iff.mpr here
      have visible : d ≠ '\\' ∧ d ≠ '\n' := by
        constructor <;>
        · rintro rfl
          cases letter
      rw [List.cons_append, isPathFrom, if_neg Bool.false_ne_true, if_neg visible.1,
        if_neg visible.2, letter, Bool.true_and, ih later]

/-- What is read as identifiers leaves the verdict to the text behind them. -/
theorem AreParts.isPathFrom_append (parts : AreParts p) :
    isPathFrom true (p ++ r) = isPathFrom false r := by
  have behind {w r : Text} (part : IsPart w) :
      isPathFrom true (w ++ r) = isPathFrom false r := by
    obtain ⟨head, tail⟩ := part
    rw [List.cons_append, isPathFrom, if_pos rfl, isIdentifierHead_iff.mpr head, Bool.true_and,
      isPathFrom_tail tail]
  induction parts with
  | single part => exact behind part
  | @cons w p part _ ih =>
      rw [List.append_assoc, behind part, List.cons_append, isPathFrom, if_neg Bool.false_ne_true,
        if_pos rfl, ih]

theorem AreParts.exists_head (parts : AreParts p) : ∃ c v, p = c :: v ∧ BeginsPart c := by
  cases parts with
  | single part =>
      obtain ⟨head, -⟩ := part
      exact ⟨_, _, rfl, head⟩
  | cons part _ =>
      obtain ⟨head, -⟩ := part
      exact ⟨_, _, rfl, head⟩

theorem IsPath.isValidPath_append (path : IsPath p) :
    isValidPath (p ++ r) = isPathFrom false r := by
  cases path with
  | absolute parts => exact parts.isPathFrom_append
  | relative parts =>
      have relative : ∀ s, p ++ r = '\\' :: s → False := by
        obtain ⟨c, v, rfl, head⟩ := parts.exists_head
        rintro s split
        rw [(List.cons.inj split).1, ← isIdentifierHead_iff] at head
        cases head
      rw [isValidPath.eq_2 _ relative, parts.isPathFrom_append]

end Completeness

section Soundness

/-- Behind the start of an identifier, or at the start of one, what is read is identifiers and at
most one line feed. -/
theorem exists_of_isPathFrom (read : isPathFrom opens t = true) (front : Text)
    (begun : if opens then front = [] else IsPart front) :
    ∃ p, AreParts p ∧ (front ++ t = p ∨ front ++ t = p ++ ['\n']) := by
  -- `front` is what has been read of the identifier that the reading is within
  fun_induction isPathFrom opens t generalizing front with
  | case1 opens =>
      obtain rfl : opens = false := by simpa using read
      exact ⟨front, .single begun, .inl (List.append_nil _)⟩
  | case2 c r ih =>
      obtain rfl : front = [] := begun
      obtain ⟨head, rest⟩ := Bool.and_eq_true_iff.mp read
      exact ih rest [c] (.mk (isIdentifierHead_iff.mp head) (by simp))
  | case3 opens r inside ih =>
      rw [if_neg inside] at begun
      obtain ⟨p, parts, ends⟩ := ih read [] rfl
      refine ⟨front ++ '\\' :: p, .cons begun parts, ?_⟩
      obtain rfl | rfl := ends
      · exact .inl rfl
      · exact .inr (List.append_assoc front ('\\' :: p) _).symm
  | case4 opens r inside _ =>
      rw [if_neg inside] at begun
      obtain rfl := List.isEmpty_iff.mp read
      exact ⟨front, .single begun, .inr rfl⟩
  | case5 opens c r inside _ _ ih =>
      rw [if_neg inside] at begun
      obtain ⟨letter, rest⟩ := Bool.and_eq_true_iff.mp read
      have longer : IsPart (front ++ [c]) := by
        obtain ⟨head, tail⟩ := begun
        refine .mk head (List.forall_mem_append.mpr ⟨tail, ?_⟩)
        simpa using isIdentifierTail_iff.mp letter
      simpa using ih rest (front ++ [c]) longer

theorem exists_of_isValidPath (valid : isValidPath t = true) :
    ∃ p, IsPath p ∧ (t = p ∨ t = p ++ ['\n']) := by
  fun_cases isValidPath t with
  | case1 r =>
      obtain ⟨p, parts, ends⟩ := exists_of_isPathFrom valid [] rfl
      exact ⟨'\\' :: p, .absolute parts, ends.imp (congrArg _) (congrArg _)⟩
  | case2 t relative =>
      rw [isValidPath.eq_2 _ relative] at valid
      obtain ⟨p, parts, ends⟩ := exists_of_isPathFrom valid [] rfl
      exact ⟨p, .relative parts, ends⟩

end Soundness

section Verdict

theorem AreParts.all (parts : AreParts p) : ∀ c ∈ p, ContinuesPart c ∨ c = '\\' := by
  have here {w : Text} (part : IsPart w) : ∀ c ∈ w, ContinuesPart c := by
    obtain ⟨head, tail⟩ := part
    exact List.forall_mem_cons.mpr ⟨.inl head, tail⟩
  induction parts with
  | single part => exact fun c mem => .inl (here part c mem)
  | cons part _ ih =>
      intro c mem
      obtain front | rfl | back := by simpa using mem
      · exact .inl (here part c front)
      · exact .inr rfl
      · exact ih c back

theorem IsPath.newline_not_mem (path : IsPath p) : '\n' ∉ p := by
  have visible {p : Text} (parts : AreParts p) : '\n' ∉ p := by
    intro mem
    obtain letter | separator := parts.all '\n' mem
    · rw [← isIdentifierTail_iff] at letter
      cases letter
    · cases separator
  cases path with
  | relative parts => exact visible parts
  | absolute parts => simpa using visible parts

/-- What is taken for a path is a path, or a path with one line feed behind it. The verdict is that
of the grammar on all texts but the latter. -/
theorem isValidPath_iff (t : Text) :
    (isValidPath t = true ↔ IsPath t ∨ ∃ p, IsPath p ∧ t = p ++ ['\n']) ∧
      ((isValidPath t = true ↔ IsPath t) ↔ ¬ ∃ p, IsPath p ∧ t = p ++ ['\n']) := by
  have taken : isValidPath t = true ↔ IsPath t ∨ ∃ p, IsPath p ∧ t = p ++ ['\n'] := by
    constructor
    · intro valid
      obtain ⟨p, path, rfl | ends⟩ := exists_of_isValidPath valid
      · exact .inl path
      · exact .inr ⟨p, path, ends⟩
    · rintro (path | ⟨p, path, rfl⟩)
      · simpa [isPathFrom] using path.isValidPath_append (r := [])
      · exact path.isValidPath_append
  have apart : (∃ p, IsPath p ∧ t = p ++ ['\n']) → ¬ IsPath t := by
    rintro ⟨p, -, rfl⟩ path
    exact path.newline_not_mem (by simp)
  refine ⟨taken, ?_⟩
  rw [taken]
  constructor
  · exact fun same longer => apart longer (same.mp (.inr longer))
  · exact fun none => or_iff_left none

/-- A line feed behind a path. -/
theorem not_isValidPath_lineFeed :
    ¬ (isValidPath "A\n".toList = true ↔ IsPath "A\n".toList) := by
  intro claim
  exact (claim.mp rfl).newline_not_mem (by decide)

variable {stripped full : Text} {file : Option Text}

/-- A declaration holds no white space in its path, so its path is judged by the grammar. -/
theorem isValidPath_path_iff {d : Declaration} {n : Nat} (found : (n, d) ∈ Declaration.all t) :
    isValidPath d.path = true ↔ IsPath d.path := by
  obtain ⟨u, s, -, -, read⟩ := Declaration.exists_of_mem_all found
  have chars := (Declaration.read_sound read).1.path.2
  rw [(isValidPath_iff _).1, or_iff_left]
  rintro ⟨p, -, ends⟩
  have mem : '\n' ∈ d.path := by simp [ends]
  cases List.all_eq_true.mp chars _ mem

/-- Declarations pass just when each of their paths is one. -/
theorem checkDeclarations_eq_ok_iff :
    checkDeclarations stripped full file = .ok () ↔
      ∀ n d, (n, d) ∈ Declaration.all (blankStrings stripped) → IsPath d.path := by
  rw [checkDeclarations]
  split
  · rename_i none
    refine iff_of_true rfl fun n d listed => (isValidPath_path_iff listed).mp ?_
    simpa using List.find?_eq_none.mp none _ listed
  · rename_i n d found
    have listed := List.mem_of_find?_eq_some found
    have invalid := List.find?_some found
    refine iff_of_false (fun passed => by cases passed) fun paths => ?_
    simp [(isValidPath_path_iff listed).mpr (paths n d listed)] at invalid

end Verdict

end PhpGate.Source
