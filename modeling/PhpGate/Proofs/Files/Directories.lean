import PhpGate.Proofs.Files.Change

/-!
Paths below other paths, and the making of directories. It adds directories and changes nothing
else, and it succeeds just when the directory is there afterwards.
-/

namespace PhpGate

open Text

theorem Text.length_encode_le_append (t u : Text) : (encode t).length ≤ (encode (t ++ u)).length := by
  rw [encode, encode, List.flatMap_append, List.length_append]
  exact Nat.le_add_right _ _

namespace Path

variable {p : Path} {name : Text}

theorem join_parent {parts : List Text} (split : p.parts = parts ++ [name]) :
    p.parent.join [name] = p := by
  rw [parent, join, split, List.dropLast_concat, ← split]

theorem joinWith_append (separator : Text) {front back : List Text} (first : front ≠ [])
    (last : back ≠ []) : joinWith separator (front ++ back)
      = joinWith separator front ++ (separator ++ joinWith separator back) := by
  obtain ⟨name, back, rfl⟩ := List.exists_cons_of_ne_nil last
  induction front with
  | nil => exact absurd rfl first
  | cons part rest ih =>
      cases rest with
      | nil => simp [joinWith]
      | cons next rest =>
          have later := ih (List.cons_ne_nil _ _)
          rw [List.cons_append] at later
          simp [joinWith, later]

/-- The text of a path goes on from that of the path above it; the name of the current directory is
left out. -/
theorem text_join (p : Path) : ∃ lead,
    (lead = [] ∧ p.text = ['.'] ∨ lead = p.text ∨ lead = p.text ++ ['/']) ∧
      ∀ names ≠ [], (p.join names).text = lead ++ joinWith ['/'] names := by
  obtain ⟨root, parts⟩ := p
  by_cases nonempty : parts = []
  · subst nonempty
    cases root with
    | nil => exact ⟨[], .inl ⟨rfl, rfl⟩, fun names some => by simp [text, join, some]⟩
    | cons c root =>
        exact ⟨c :: root, .inr (.inl (by simp [text, joinWith])), fun names _ => by
          simp [text, join]⟩
  · refine ⟨_, .inr (.inr rfl), fun names some => ?_⟩
    simp [text, join, joinWith_append _ nonempty some, nonempty]

theorem text_join_name (p : Path) : ∃ lead,
    (lead = [] ∧ p.text = ['.'] ∨ lead = p.text ∨ lead = p.text ++ ['/']) ∧
      ∀ name, (p.join [name]).text = lead ++ name := by
  obtain ⟨lead, cases, joined⟩ := p.text_join
  exact ⟨lead, cases, fun name => joined [name] (List.cons_ne_nil name [])⟩

theorem hasNull_join (p : Path) (name : Text) :
    (p.join [name]).hasNull = (p.hasNull || name.contains (Char.ofNat 0)) := by
  obtain ⟨lead, cases, joined⟩ := p.text_join_name
  rw [hasNull, hasNull, joined, List.contains_append]
  obtain ⟨rfl, current⟩ | rfl | rfl := cases
  · rw [current]
    rfl
  · rfl
  · rw [List.contains_append, Bool.or_assoc]
    rfl

theorem length_text_join (p : Path) (name : Text) :
    (encode p.text).length ≤ max 1 (encode (p.join [name]).text).length := by
  obtain ⟨lead, cases, joined⟩ := p.text_join_name
  obtain ⟨rfl, current⟩ | rfl | rfl := cases
  · rw [current]
    exact Nat.le_max_left _ _
  · rw [joined]
    exact Nat.le_trans (length_encode_le_append _ name) (Nat.le_max_right _ _)
  · rw [joined, List.append_assoc]
    exact Nat.le_trans (length_encode_le_append _ _) (Nat.le_max_right _ _)

end Path

namespace Store

variable {s s' s'' : Store} {l m : Location} {p : Path} {name : Text}

/-- A path leads to an entry of the directory that the path above it leads to. -/
theorem locateEntry_join_iff : s.locateEntry (p.join [name]) = .ok l ↔
    name.contains (Char.ofNat 0) = false ∧ (encode name).length ≤ longestName ∧
      (encode (p.join [name]).text).length ≤ longestPath ∧
      ∃ k, s.locate p = .ok k ∧ s.node? k = some .directory ∧ k.step name = l := by
  constructor
  · intro located
    obtain ⟨possible, short, leads⟩ := locateBy_eq_ok_iff.mp located
    obtain ⟨fits, k, above, directory, reached⟩ := leads.exists_directory
    rw [Path.hasNull_join, Bool.or_eq_false_iff] at possible
    have short' := Nat.le_trans (p.length_text_join name) (Nat.max_le.mpr ⟨by decide, short⟩)
    exact ⟨possible.2, fits, short, k, locateBy_eq_ok_iff.mpr ⟨possible.1, short', above⟩, directory,
      reached⟩
  · rintro ⟨clean, fits, short, k, above, directory, rfl⟩
    obtain ⟨possible, -, leads⟩ := locateBy_eq_ok_iff.mp above
    refine locateBy_eq_ok_iff.mpr ⟨?_, short, leads.concat directory fits⟩
    rw [Path.hasNull_join, possible, clean]
    rfl

theorem find_eq_directory_iff : s.find p = .ok .directory ↔
    ∃ l, s.locate p = .ok l ∧ s.node? l = some .directory := by
  rw [find_eq_ok_iff]
  exact exists_congr fun l => and_congr_right fun _ => entry_eq_directory_iff

/-- An entry is found only in a directory. -/
theorem find_of_locateEntry_join (located : s.locateEntry (p.join [name]) = .ok l) :
    s.find p = .ok .directory := by
  obtain ⟨-, -, -, k, above, directory, -⟩ := locateEntry_join_iff.mp located
  exact find_eq_directory_iff.mpr ⟨k, above, directory⟩

/-- What stands at a location is what has stood there, or a directory that has been made. -/
def IsKeptAt (s s' : Store) (l : Location) : Prop :=
  s'.stored? l = s.stored? l ∨ s.node? l = none ∧ s'.node? l = some .directory

/-- Some directories have been made and nothing else has changed. -/
structure AddsDirectories (s s' : Store) : Prop where
  start : s'.workingDirectory = s.workingDirectory
  contents : s'.contents = s.contents
  kept : ∀ l, s'.node? l = s.node? l ∨ s.node? l = none ∧ s'.node? l = some .directory

namespace AddsDirectories

theorem refl (s : Store) : AddsDirectories s s := ⟨rfl, rfl, fun _ => .inl rfl⟩

theorem trans (first : AddsDirectories s s') (second : AddsDirectories s' s'') :
    AddsDirectories s s'' := by
  refine ⟨second.start.trans first.start, second.contents.trans first.contents, fun l => ?_⟩
  obtain same | ⟨absent, made⟩ := first.kept l
  · rw [← same]
    exact second.kept l
  · obtain same' | ⟨absent', -⟩ := second.kept l
    · exact .inr ⟨absent, same'.trans made⟩
    · rw [made] at absent'
      cases absent'

theorem node_of_stands (adds : AddsDirectories s s') {n : Node} (stands : s.node? l = some n) :
    s'.node? l = some n := by
  obtain same | ⟨absent, -⟩ := adds.kept l
  · rw [same, stands]
  · rw [stands] at absent
    cases absent

theorem isKeptAt (adds : AddsDirectories s s') (l : Location) : s.IsKeptAt s' l := by
  obtain same | made := adds.kept l
  · refine .inl (entry_congr same fun id _ => ?_)
    rw [Store.data, adds.contents, ← Store.data]
  · exact .inr made

theorem keepsWays (adds : AddsDirectories s s') : KeepsWays s s' := by
  refine ⟨adds.start, fun l directory => adds.node_of_stands directory, fun l => ?_⟩
  obtain same | ⟨absent, made⟩ := adds.kept l
  · rw [link?, same, link?]
  · rw [link_of_directory made, link?, absent]

theorem of_setNode (absent : s.node? l = none) : AddsDirectories s (s.setNode l .directory) := by
  refine ⟨rfl, rfl, fun m => ?_⟩
  by_cases here : m = l
  · subst here
    exact .inr ⟨absent, node_setNode_self (below_root_of_absent absent)⟩
  · exact .inl (node_setNode_ne here)

end AddsDirectories

theorem makeDirectory_eq_ok_iff : s.makeDirectory p = .ok s' ↔
    ∃ l, s.locateEntry p = .ok l ∧ s.node? l = none ∧ s.setNode l .directory = s' := by
  rw [makeDirectory, bind_eq_ok_iff]
  refine exists_congr fun l => and_congr_right fun _ => ?_
  cases s.node? l <;> simp

theorem makeDirectory_adds (made : s.makeDirectory p = .ok s') : AddsDirectories s s' := by
  obtain ⟨l, -, absent, rfl⟩ := makeDirectory_eq_ok_iff.mp made
  exact .of_setNode absent

theorem find_of_makeDirectory (made : s.makeDirectory p = .ok s') :
    s'.find p = .ok .directory := by
  have keeps := (makeDirectory_adds made).keepsWays
  obtain ⟨l, located, absent, rfl⟩ := makeDirectory_eq_ok_iff.mp made
  have stands := node_setNode_self (s := s) (n := .directory) (below_root_of_absent absent)
  exact find_eq_directory_iff.mpr ⟨l, locate_of_locateEntry (keeps.locateBy located)
    (link_of_directory stands), stands⟩

theorem tryDirectory_adds (s : Store) (p : Path) : AddsDirectories s (s.tryDirectory p).2 := by
  rw [tryDirectory]
  cases made : s.makeDirectory p with
  | ok s' => exact makeDirectory_adds made
  | error =>
      dsimp only
      split <;> exact .refl s

theorem tryDirectory_ok_iff (s : Store) (p : Path) :
    (s.tryDirectory p).1 = .ok () ↔ (s.tryDirectory p).2.find p = .ok .directory := by
  rw [tryDirectory]
  cases made : s.makeDirectory p with
  | ok s' => simp [find_of_makeDirectory made]
  | error e =>
      dsimp only
      rw [find?]
      cases found : s.find p with
      | ok entry => cases entry <;> simp [found]
      | error e =>
          cases e with
          | denied | embeddedNull => simp [found]
          | fault f => cases f <;> simp [found]

/-- A directory that cannot be made because a part of its path is missing is not there. -/
theorem find_of_makeDirectory_notFound {path : Text} {target : Option Text}
    (failed : s.makeDirectory p = .error (.fault .notFound path target)) :
    s.find p ≠ .ok .directory := by
  intro found
  obtain ⟨l, located, -⟩ := find_eq_directory_iff.mp found
  obtain ⟨k, entry⟩ := exists_locateEntry located
  rw [makeDirectory, entry] at failed
  cases stands : s.node? k <;> simp [stands, bind, Except.bind] at failed

/-- Something below a path is found only where the path is a directory. -/
theorem find_parent {e : Entry} (found : s.find (p.join [name]) = .ok e) :
    s.find p = .ok .directory := by
  obtain ⟨l, located, -⟩ := find_eq_ok_iff.mp found
  obtain ⟨k, entry⟩ := exists_locateEntry located
  exact find_of_locateEntry_join entry

/-- The making of directories changes nothing else, and it succeeds just when the directory is there
afterwards. -/
theorem makeDirectories_spec (s : Store) (p : Path) (depth : Nat) :
    AddsDirectories s (s.makeDirectories p depth).2 ∧
      ((s.makeDirectories p depth).1 = .ok () ↔
        (s.makeDirectories p depth).2.find p = .ok .directory) := by
  induction depth generalizing p with
  | zero => exact ⟨tryDirectory_adds s p, tryDirectory_ok_iff s p⟩
  | succ depth ih =>
      have once := And.intro (tryDirectory_adds s p) (tryDirectory_ok_iff s p)
      rw [makeDirectories]
      cases made : s.makeDirectory p with
      | ok => exact once
      | error e =>
          cases e with
          | denied | embeddedNull => exact once
          | fault f path target =>
              cases f with
              | permissionDenied | alreadyExists | notDirectory | isDirectory | nameTooLong
              | tooManyLinks => exact once
              | notFound =>
                  obtain empty | ⟨parts, name, split⟩ := List.eq_nil_or_concat p.parts
                  · have absent := find_of_makeDirectory_notFound made
                    simp [empty, AddsDirectories.refl, absent]
                  · rw [List.concat_eq_append] at split
                    obtain ⟨adds, above⟩ := ih p.parent
                    have nonempty : p.parts.isEmpty = false := by simp [split]
                    simp only [nonempty, Bool.false_eq_true, if_false]
                    generalize s.makeDirectories p.parent depth = result at adds above
                    obtain ⟨outcome, s'⟩ := result
                    cases outcome with
                    | ok => exact ⟨adds.trans (tryDirectory_adds s' p), tryDirectory_ok_iff s' p⟩
                    | error e =>
                        refine ⟨adds, iff_of_false nofun fun found => ?_⟩
                        rw [← Path.join_parent split] at found
                        cases above.mpr (find_parent found)

end Store
end PhpGate
