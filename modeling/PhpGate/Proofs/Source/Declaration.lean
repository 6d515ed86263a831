import PhpGate.Proofs.Text.Letter
import PhpGate.Proofs.Text.Pieces
import PhpGate.Source.Declaration

/-!
What is read as a declaration. A declaration is read exactly where its text stands, and one that is
rejected stands in the filtered text where no name is going on.
-/

namespace PhpGate.Source

open Text

variable {t : Text} {d : Declaration}

namespace Declaration

/-- A keyword, white space, a path, and a semicolon that white space may stand before. -/
structure IsWellFormed (d : Declaration) : Prop where
  keyword : d.keyword.map foldCase ∈ declarationKeywords
  space : d.space ≠ [] ∧ d.space.all isBlank = true
  path : d.path ≠ [] ∧ d.path.all isPathChar = true
  tail : ∃ gap, gap.all isBlank = true ∧ d.tail = gap ++ [';']

theorem read_sound (h : read? t = some d) : d.IsWellFormed ∧ d.text <+: t := by
  obtain ⟨word, found, h⟩ := Option.bind_eq_some_iff.mp h
  have listed : word ∈ declarationKeywords := List.mem_of_find?_eq_some found
  have stands : beginsWith word t = true := List.find?_some (p := fun w => beginsWith w t) found
  rw [beginsWith_iff] at stands
  dsimp only at h
  -- Each part is split off the text by the equation that puts it back.
  have atKeyword := List.take_append_drop word.length t
  generalize t.take word.length = keyword at h atKeyword stands
  generalize t.drop word.length = s at h atKeyword
  have atSpace := takeWhile_append_drop isBlank s
  have blanks : (s.takeWhile isBlank).all isBlank = true := List.all_takeWhile
  generalize s.takeWhile isBlank = space at h atSpace blanks
  generalize s.drop space.length = s at h atSpace
  have atPath := takeWhile_append_drop isPathChar s
  have chars : (s.takeWhile isPathChar).all isPathChar = true := List.all_takeWhile
  generalize s.takeWhile isPathChar = path at h atPath chars
  generalize s.drop path.length = s at h atPath
  have atGap := takeWhile_append_drop isBlank s
  have gaps : (s.takeWhile isBlank).all isBlank = true := List.all_takeWhile
  generalize s.takeWhile isBlank = gap at h atGap gaps
  generalize s.drop gap.length = s at h atGap
  split at h
  · cases h
  · rename_i shape
    cases h
    simp only [Bool.or_eq_true, List.isEmpty_iff, bne_iff_ne, not_or, ne_eq,
      Decidable.not_not] at shape
    obtain ⟨⟨spaced, named⟩, closed⟩ := shape
    obtain ⟨r, rfl⟩ : ∃ r, s = ';' :: r := List.head?_eq_some_iff.mp closed
    refine ⟨⟨by rwa [stands], ⟨spaced, blanks⟩, ⟨named, chars⟩, gap, gaps, rfl⟩, r, ?_⟩
    rw [← atKeyword, ← atSpace, ← atPath, ← atGap]
    simp [text]

/-- No keyword of a declaration begins with another. -/
theorem find_keyword {keyword r : Text} (listed : keyword.map foldCase ∈ declarationKeywords) :
    declarationKeywords.find? (fun word => beginsWith word (keyword ++ r))
      = some (keyword.map foldCase) := by
  have stands : beginsWith (keyword.map foldCase) (keyword ++ r) = true := by
    rw [beginsWith_iff, List.length_map, List.take_left]
  simp only [declarationKeywords, List.map_cons, List.map_nil, List.mem_cons, List.not_mem_nil,
    or_false] at listed ⊢
  obtain named | used := listed
  · rw [named] at stands ⊢
    simp only [List.find?_cons, stands]
  · rw [used] at stands ⊢
    have other : beginsWith "namespace".toList (keyword ++ r) = false := by
      cases keyword with
      | nil => cases used
      | cons c keyword =>
          have letter : foldCase c = 'u' := (List.cons.inj used).1
          simp [beginsWith, letter]
    simp only [List.find?_cons, other, stands]

theorem read_complete (h : d.IsWellFormed) (stands : d.text <+: t) : read? t = some d := by
  obtain ⟨keyword, space, path, tail⟩ := d
  obtain ⟨⟨listed, ⟨spaced, blanks⟩, ⟨named, chars⟩, gap, gaps, rfl⟩, r, rfl⟩ := And.intro h stands
  dsimp only at *
  have atSpace : (space ++ (path ++ (gap ++ ';' :: r))).takeWhile isBlank = space := by
    refine takeWhile_append_stop blanks ?_
    obtain ⟨c, path, rfl⟩ := List.exists_cons_of_ne_nil named
    simp only [List.all_cons, isPathChar, Bool.and_eq_true, Bool.not_eq_true'] at chars
    exact chars.1.1
  have atPath : (path ++ (gap ++ ';' :: r)).takeWhile isPathChar = path := by
    refine takeWhile_append_stop chars ?_
    cases gap with
    | nil => rfl
    | cons c gap =>
        simp only [List.all_cons, Bool.and_eq_true] at gaps
        simp [isPathChar, gaps.1]
  have atGap : (gap ++ ';' :: r).takeWhile isBlank = gap :=
    takeWhile_append_stop gaps rfl
  have parts : text ⟨keyword, space, path, gap ++ [';']⟩ ++ r
      = keyword ++ (space ++ (path ++ (gap ++ ';' :: r))) := by simp [text]
  rw [parts, read?, find_keyword listed, Option.bind_some]
  simp [atSpace, atPath, atGap, spaced, named]

theorem read_eq_some_iff : read? t = some d ↔ d.IsWellFormed ∧ d.text <+: t :=
  ⟨read_sound, fun h => read_complete h.1 h.2⟩

/-- Characters of a word, a variable or a qualified name, behind which no declaration begins. -/
def continuesName (c : Char) : Bool :=
  isWord c || c == '$' || c == '\\'

theorem pattern_eq_some_iff {before : Text} {n : Nat} :
    pattern before t = some n ↔
      before.head?.any continuesName = false ∧ ∃ d, read? t = some d ∧ d.text.length = n := by
  rw [pattern, Option.ite_none_left_eq_some, Option.map_eq_some_iff, Bool.not_eq_true]
  rfl

/-- Every declaration of a text is read at a place behind which no name goes on. -/
theorem exists_of_mem_all {n : Nat} (mem : (n, d) ∈ all t) :
    ∃ u s, t = u ++ s ∧ u.getLast?.any continuesName = false ∧ read? s = some d := by
  obtain ⟨⟨n, w⟩, hit, read⟩ := List.mem_filterMap.mp mem
  obtain ⟨d, again, placed⟩ := Option.map_eq_some_iff.mp read
  cases placed
  obtain ⟨u, s, m, split, found, rfl⟩ := exists_of_mem_cutAfter (hit_mem_of_mem_hitsFrom hit)
  rw [List.append_nil, pattern_eq_some_iff, List.head?_reverse] at found
  obtain ⟨free, d', here, rfl⟩ := found
  obtain ⟨wellFormed, stands⟩ := read_eq_some_iff.mp here
  rw [← List.prefix_iff_eq_take.mp stands,
    read_eq_some_iff.mpr ⟨wellFormed, List.prefix_refl _⟩] at again
  exact ⟨u, s, split, free, here.trans again⟩

theorem continuesName_of_isWord {c : Char} (word : isWord c = true) : continuesName c = true := by
  rw [continuesName, word, Bool.true_or, Bool.true_or]

theorem isWord_of_mem_keyword {keyword : Text} {c : Char}
    (listed : keyword.map foldCase ∈ declarationKeywords) (mem : c ∈ keyword) :
    isWord c = true := by
  have lower : ∀ word ∈ declarationKeywords, word.all Char.isLower = true := by decide
  exact isWord_of_foldCase
    (List.all_eq_true.mp (lower _ listed) _ (List.mem_map_of_mem mem))

theorem isPathChar_of_isWord {c : Char} (word : isWord c = true) : isPathChar c = true := by
  have sign : ";{}(),".toList.contains c = false := by
    rw [← Bool.not_eq_true, List.contains_iff_mem]
    intro mem
    have signs : ";{}(),".toList.all (fun d => !isWord d) = true := by decide
    have unlike := List.all_eq_true.mp signs c mem
    rw [word] at unlike
    cases unlike
  rw [isPathChar, isBlank_of_isWord word, sign]
  rfl

/-- What is read of a declaration from a letter on, behind some of it, is the rest of its path with
its tail. -/
theorem exists_path_of_text {u v : Text} {c : Char} (wellFormed : d.IsWellFormed)
    (text : d.text = u ++ c :: v) (word : isWord c = true) (nonempty : u ≠ [])
    (free : u.getLast?.any continuesName = false) :
    ∃ path, path.all isPathChar = true ∧ c :: v = path ++ d.tail := by
  obtain ⟨listed, ⟨-, blanks⟩, ⟨-, chars⟩, gap, gaps, tail⟩ := wellFormed
  have blank := isBlank_of_isWord word
  have parts : d.keyword ++ (d.space ++ (d.path ++ d.tail)) = u ++ c :: v := by
    rw [← text]
    simp [Declaration.text]
  obtain ⟨u, rfl, atSpace⟩ | ⟨k, within, -⟩ := List.append_eq_append_iff.mp parts
  · obtain ⟨u, rfl, atPath⟩ | ⟨s, within, atPath⟩ := List.append_eq_append_iff.mp atSpace
    · obtain ⟨u, rfl, atTail⟩ | ⟨p, within, atTail⟩ := List.append_eq_append_iff.mp atPath
      · have mem : c ∈ gap ++ [';'] := by
          rw [← tail, atTail]
          simp
        obtain inGap | inTail := List.mem_append.mp mem
        · rw [List.all_eq_true.mp gaps c inGap] at blank
          cases blank
        · obtain rfl := List.mem_singleton.mp inTail
          exact absurd word (by decide +kernel)
      · rw [within, List.all_append, Bool.and_eq_true] at chars
        exact ⟨p, chars.2, atTail⟩
    · cases s with
      | nil => exact ⟨d.path, chars, atPath⟩
      | cons e s =>
          obtain rfl : c = e := (List.cons.inj atPath).1
          rw [List.all_eq_true.mp blanks c (by simp [within])] at blank
          cases blank
  · obtain ⟨u, e, rfl⟩ := (List.eq_nil_or_concat u).resolve_left nonempty
    have letter := isWord_of_mem_keyword (c := e) listed (by simp [within])
    simp [continuesName_of_isWord letter] at free

/-- A declaration that is read in front of a keyword without a path behind it ends there. -/
theorem length_le_of_read {u keyword gap r : Text}
    (nonempty : u ≠ []) (free : u.getLast?.any continuesName = false)
    (listed : keyword.map foldCase ∈ declarationKeywords)
    (blanks : gap ≠ [] ∧ gap.all isBlank = true)
    (after : r.head?.any (fun c => isBlank c || c == ';') = false)
    (h : read? (u ++ (keyword ++ (gap ++ r))) = some d) : d.text.length ≤ u.length := by
  obtain ⟨wellFormed, rest, stands⟩ := read_eq_some_iff.mp h
  obtain ⟨v, rfl, -⟩ | ⟨v, text, split⟩ := List.append_eq_append_iff.mp stands
  · simp
  · cases v with
    | nil => simp [text]
    | cons c v =>
        exfalso
        cases keyword with
        | nil => simp [declarationKeywords] at listed
        | cons k keyword =>
            have words := fun e mem => isWord_of_mem_keyword (c := e) listed mem
            obtain rfl : k = c := (List.cons.inj split).1
            obtain ⟨path, chars, within⟩ := exists_path_of_text wellFormed text
              (words k List.mem_cons_self) nonempty free
            obtain ⟨gap', gaps', tail⟩ := wellFormed.tail
            rw [within, tail, List.append_assoc, List.append_assoc] at split
            -- The path reaches as far as the keyword, and behind its blanks a semicolon would stand.
            have atPath : (k :: keyword ++ (gap ++ r)).takeWhile isPathChar = k :: keyword := by
              apply takeWhile_append_stop
              · exact List.all_eq_true.mpr fun e mem => isPathChar_of_isWord (words e mem)
              · obtain ⟨b, gap, rfl⟩ := List.exists_cons_of_ne_nil blanks.1
                have blank := List.all_eq_true.mp blanks.2 b List.mem_cons_self
                simp [isPathChar, blank]
            have atPath' : (path ++ (gap' ++ ([';'] ++ rest))).takeWhile isPathChar = path := by
              apply takeWhile_append_stop chars
              cases gap' with
              | nil => rfl
              | cons b gap' =>
                  have blank := List.all_eq_true.mp gaps' b List.mem_cons_self
                  simp [isPathChar, blank]
            rw [split, atPath'] at atPath
            rw [atPath] at split
            have behind := List.append_cancel_left split
            have atGap : (gap ++ r).takeWhile isBlank = gap := by
              apply takeWhile_append_stop blanks.2
              cases r with
              | nil => rfl
              | cons e r =>
                  rw [List.head?_cons, Option.any_some, Bool.or_eq_false_iff] at after
                  exact after.1
            have atGap' : (gap' ++ ([';'] ++ rest)).takeWhile isBlank = gap' :=
              takeWhile_append_stop gaps' rfl
            rw [behind, atGap'] at atGap
            rw [atGap] at behind
            rw [List.append_cancel_left behind] at after
            simp at after

/-- A declaration that stands behind no name is found, unless one that begins in front of it runs
over that place. -/
theorem exists_mem_all {u v : Text} (read : read? v = some d)
    (free : u.getLast?.any continuesName = false)
    (clear : ∀ x y d', u = x ++ y → y ≠ [] → read? (y ++ v) = some d' →
      d'.text.length ≤ y.length) : ∃ n, (n, d) ∈ all (u ++ v) := by
  obtain ⟨wellFormed, r, rfl⟩ := read_eq_some_iff.mp read
  have nonempty : d.text ≠ [] := by
    obtain ⟨gap, -, tail⟩ := wellFormed.tail
    simp [Declaration.text, tail]
  have found : pattern u.reverse (d.text ++ r) = some d.text.length := by
    rw [pattern_eq_some_iff, List.head?_reverse]
    exact ⟨free, d, read, rfl⟩
  have hit : .hit d.text ∈ cut pattern (u ++ (d.text ++ r)) := by
    obtain ⟨front, split, -⟩ : ∃ front, cut pattern (u ++ (d.text ++ r))
        = front ++ cutAfter pattern (u.reverse ++ []) 0 (d.text ++ r) ∧ _ := by
      apply cutAfter_append
      intro x y n split rest found
      obtain ⟨-, d', here, rfl⟩ := pattern_eq_some_iff.mp found
      exact clear x y d' split rest here
    rw [split, List.append_nil, cutAfter_hit nonempty found]
    simp
  obtain ⟨n, listed⟩ := exists_mem_hitsFrom hit 0
  have whole : read? d.text = some d := read_complete wellFormed (List.prefix_refl _)
  exact ⟨n, List.mem_filterMap.mpr ⟨_, listed, by simp [whole]⟩⟩

end Declaration

/-- A rejection quotes a declaration of the filtered text whose path is none. -/
theorem checkDeclarations_eq_error {stripped full : Text} {file : Option Text}
    {rejection : Rejection} (h : checkDeclarations stripped full file = .error rejection) :
    ∃ u s d, blankStrings stripped = u ++ s ∧
      u.getLast?.any Declaration.continuesName = false ∧ Declaration.read? s = some d ∧
      isValidPath d.path = false ∧
      rejection = Rejection.of .parse ("Error syntax on: \x60".toList ++ d.text ++ "\x60".toList)
        file (lineOf d.text full) := by
  rw [checkDeclarations] at h
  split at h
  · cases h
  · rename_i n d found
    cases h
    have listed := List.mem_of_find?_eq_some found
    have invalid := List.find?_some found
    obtain ⟨u, s, split, free, read⟩ := Declaration.exists_of_mem_all listed
    exact ⟨u, s, d, split, free, read, by simpa using invalid, rfl⟩

/-- A declaration that is found and whose path is none is rejected, if none in front of it is. -/
theorem checkDeclarations_ne_ok {stripped full : Text} {file : Option Text} {n : Nat}
    (found : (n, d) ∈ Declaration.all (blankStrings stripped))
    (invalid : isValidPath d.path = false) :
    ∃ rejection, checkDeclarations stripped full file = .error rejection := by
  rw [checkDeclarations]
  split
  · rename_i none
    have valid := List.find?_eq_none.mp none _ found
    simp [invalid] at valid
  · exact ⟨_, rfl⟩

end PhpGate.Source
