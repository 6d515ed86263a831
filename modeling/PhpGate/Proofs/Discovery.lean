import PhpGate.Discovery
import PhpGate.Proofs.Files.Tree
import PhpGate.Proofs.Json.Members

/-!
What is found below a directory of a tree: every file whose name matches, once, in the order of the
texts of their paths, which is not the order of a walk. A link counts as the file it leads to. A path
that the operating system cannot follow, as one that is too long, ends the search with an error.
-/

namespace PhpGate

open Text

namespace Candidate

/-- Whether a path can be followed, be it to nothing. -/
def Answers (files : Store) (path : Path) : Prop :=
  ∃ found, files.find? path = .ok found

instance (files : Store) (path : Path) : Decidable (Answers files path) :=
  match seen : files.find? path with
  | .ok found => .isTrue ⟨found, seen⟩
  | .error _ => .isFalse fun ⟨_, same⟩ => nomatch seen.symm.trans same

/-- The candidates below a directory: every file whose name matches a pattern, in the strict order of
the texts of their paths. -/
structure IsListing (files : Store) (root : Path) (l : Location) (patterns : List Text)
    (found : List Candidate) : Prop where
  mem_iff : ∀ candidate, candidate ∈ found ↔ ∃ names n data,
    files.Below l names n ∧ files.find (root.join names) = .ok (.file data) ∧
    (∃ name, names.getLast? = some name ∧ ∃ pattern ∈ patterns, Glob.matchesName pattern name = true) ∧
    candidate = ⟨root.join names, Sha256.hexDigest (if data.readable then data.content else [])⟩
  ordered : found.Pairwise fun a b =>
    a.path.text ≠ b.path.text ∧ before a.path.text b.path.text = true

/-- What is seen of an entry below a directory: a file or a directory itself, but nothing whose path
is too long. -/
structure IsSeen (files : Store) (root : Path) (l : Location) (names : List Text) : Prop where
  short : (root.join names).IsShort → files.link? (l ++ names) = none →
    ∃ e, files.stored? (l ++ names) = some e ∧ files.find (root.join names) = .ok e
  long : ¬ (root.join names).IsShort → ¬ Answers files (root.join names)

variable {files : Store} {root path : Path} {l : Location} {patterns patterns' : List Text}
  {names : List Text} {n : Node} {candidate : Candidate} {candidates : List Candidate}

theorem matchesAny_eq_true_iff {name : Text} : matchesAny patterns name = true ↔
    ∃ pattern ∈ patterns, Glob.matchesName pattern name = true := by
  rw [matchesAny, List.any_eq_true]

theorem matchesAny_congr (same : ∀ pattern, pattern ∈ patterns' ↔ pattern ∈ patterns) :
    matchesAny patterns' = matchesAny patterns := by
  funext name
  rw [Bool.eq_iff_iff, matchesAny_eq_true_iff, matchesAny_eq_true_iff]
  simp only [same]

/-- Neither the order of the patterns nor their repetition matters. -/
theorem discover_congr (same : ∀ pattern, pattern ∈ patterns' ↔ pattern ∈ patterns) (files : Store)
    (root : Path) : discover files root patterns' = discover files root patterns := by
  have entries : ofEntry files patterns' = ofEntry files patterns := by
    funext path
    rw [ofEntry, ofEntry, matchesAny_congr same]
  simp only [discover, below, entries]

theorem name_join (root : Path) (nonempty : names ≠ []) :
    names.getLast? = some (root.join names).name := by
  rw [Path.name, Path.join, List.getLast?_append]
  cases last : names.getLast? with
  | none => exact absurd (List.getLast?_eq_none_iff.mp last) nonempty
  | some name => rfl

/-- The candidate that stands at a path that can be followed. -/
def atPath (files : Store) (patterns : List Text) (path : Path) : Option Candidate :=
  match files.find path with
  | .ok (.file _) => if matchesAny patterns path.name then some (ofPath files path) else none
  | _ => none

theorem ofEntry_of_answers (answers : Answers files path) :
    ofEntry files patterns path = .ok (atPath files patterns path) := by
  obtain ⟨found, seen⟩ := answers
  rw [ofEntry, atPath, seen]
  rw [Store.find?] at seen
  cases stands : files.find path with
  | error e =>
      rw [stands] at seen
      split at seen
      · rename_i same
        cases same
      · cases seen
      · cases seen
        rfl
  | ok e =>
      rw [stands] at seen
      cases seen
      cases e <;> rfl

theorem ofPath_of_file {data : FileData} (found : files.find path = .ok (.file data)) :
    ofPath files path
      = ⟨path, Sha256.hexDigest (if data.readable then data.content else [])⟩ := by
  rw [ofPath, Store.read, found]
  cases readable : data.readable <;> simp [readable, bind, Except.bind, Except.toOption]

theorem atPath_eq_some_iff : atPath files patterns path = some candidate ↔
    ∃ data, files.find path = .ok (.file data) ∧ matchesAny patterns path.name = true ∧
      candidate = ⟨path, Sha256.hexDigest (if data.readable then data.content else [])⟩ := by
  rw [atPath]
  cases found : files.find path with
  | error e => simp
  | ok e =>
      cases e with
      | directory | link => simp
      | file data =>
          simp only [Option.ite_none_right_eq_some, Option.some.injEq, ofPath_of_file found]
          constructor
          · rintro ⟨named, rfl⟩
            exact ⟨data, rfl, named, rfl⟩
          · rintro ⟨_, same, named, rfl⟩
            cases same
            exact ⟨named, rfl⟩

theorem inOrder_ordered (distinct : candidates.Pairwise fun a b => a.path.text ≠ b.path.text) :
    (inOrder candidates).Pairwise fun a b =>
      a.path.text ≠ b.path.text ∧ before a.path.text b.path.text = true := by
  have sorted : (inOrder candidates).Pairwise fun a b => before a.path.text b.path.text = true :=
    List.pairwise_mergeSort (fun a b c => before_trans a.path.text b.path.text c.path.text)
      (fun a b => before_total a.path.text b.path.text) candidates
  have perm : candidates.Perm (inOrder candidates) := (List.mergeSort_perm candidates _).symm
  exact (perm.pairwise distinct Ne.symm).and sorted

theorem discover_of_directory (located : files.locate root = .ok l)
    (directory : files.node? l = some .directory) :
    discover files root patterns = (below files root l patterns).map inOrder := by
  have found : files.find? root = .ok (some .directory) :=
    Store.findIfAny_of_find (Store.find_eq_directory_iff.mpr ⟨l, located, directory⟩)
  rw [discover, found]
  simp only [located, bind, Except.bind]
  cases below files root l patterns <;> rfl

section Tree

variable (tree : files.IsTree)
include tree

/-- Different entries have paths with different texts. -/
theorem texts_distinct (root : Path) : (files.namesBelow l).Pairwise fun names names' =>
    (root.join names).text ≠ (root.join names').text := by
  refine tree.nodup_namesBelow.imp_of_mem fun mem mem' different same => different ?_
  obtain ⟨n, h⟩ := tree.mem_namesBelow.mp mem
  obtain ⟨n', h'⟩ := tree.mem_namesBelow.mp mem'
  exact Path.text_join_inj h.stands.1 h'.stands.1
    (fun name mem => (tree.isName_of_below h name mem).single)
    (fun name mem => (tree.isName_of_below h' name mem).single) same

theorem isListing (root : Path) (l : Location) (patterns : List Text) :
    IsListing files root l patterns (inOrder ((files.namesBelow l).filterMap fun names =>
      atPath files patterns (root.join names))) where
  mem_iff candidate := by
    rw [inOrder, List.mem_mergeSort, List.mem_filterMap]
    simp only [atPath_eq_some_iff, matchesAny_eq_true_iff]
    constructor
    · rintro ⟨names, mem, data, found, named, rfl⟩
      obtain ⟨n, h⟩ := tree.mem_namesBelow.mp mem
      exact ⟨names, n, data, h, found, ⟨_, name_join root h.stands.1, named⟩, rfl⟩
    · rintro ⟨names, n, data, h, found, ⟨name, last, named⟩, rfl⟩
      obtain rfl := Option.some.inj ((name_join root h.stands.1).symm.trans last)
      exact ⟨names, tree.mem_namesBelow.mpr ⟨n, h⟩, data, found, named, rfl⟩
  ordered := by
    refine inOrder_ordered (List.Pairwise.filterMap _ ?_ (texts_distinct tree root))
    intro names names' different candidate found candidate' found'
    obtain ⟨-, -, -, rfl⟩ := atPath_eq_some_iff.mp found
    obtain ⟨-, -, -, rfl⟩ := atPath_eq_some_iff.mp found'
    exact different

variable (located : files.locate root = .ok l) (directory : files.node? l = some .directory)
include located directory

theorem isSeen (h : files.Below l names n) : IsSeen files root l names := by
  refine ⟨fun short plain => ?_, fun long => ?_⟩
  · cases stands : files.stored? (l ++ names) with
    | none =>
        rw [Store.entry_eq_none_iff, h.stands.2] at stands
        cases stands
    | some e => exact ⟨e, rfl, tree.find_join located directory h short stands plain⟩
  · rintro ⟨found, seen⟩
    rw [tree.find_join_long located h long] at seen
    cases seen

theorem exists_discover
    (answers : ∀ names n, files.Below l names n → Answers files (root.join names))
    (patterns : List Text) :
    ∃ found, discover files root patterns = .ok found ∧
      IsListing files root l patterns found := by
  have entries : ∀ names ∈ files.namesBelow l, ofEntry files patterns (root.join names)
      = .ok (atPath files patterns (root.join names)) := by
    intro names mem
    obtain ⟨n, h⟩ := tree.mem_namesBelow.mp mem
    exact ofEntry_of_answers (answers names n h)
  refine ⟨_, ?_, isListing tree root l patterns⟩
  rw [discover_of_directory located directory, below, mapM_eq_ok entries]
  simp only [bind, Except.bind, pure, Except.pure, Except.map, List.filterMap_map]
  rfl

/-- An entry that cannot be looked at ends the search. -/
theorem exists_discover_error
    (silent : ∃ names n, files.Below l names n ∧ ¬ Answers files (root.join names))
    (patterns : List Text) :
    ∃ names n, files.Below l names n ∧ ¬ Answers files (root.join names) ∧
      discover files root patterns = .error (.fault .nameTooLong (root.join names).text none) := by
  obtain ⟨names, n, h, silent⟩ := silent
  have refused : ∃ e, files.find? (root.join names) = .error e := by
    cases seen : files.find? (root.join names) with
    | error e => exact ⟨e, rfl⟩
    | ok found => exact absurd ⟨found, seen⟩ silent
  obtain ⟨e, refused⟩ := refused
  obtain ⟨names, mem, e, failed, whole⟩ := exists_mapM_eq_error
    (f := fun names => ofEntry files patterns (root.join names))
    ⟨names, tree.mem_namesBelow.mpr ⟨n, h⟩, e, by rw [ofEntry, refused]; rfl⟩
  obtain ⟨n, h⟩ := tree.mem_namesBelow.mp mem
  have silent : ¬ Answers files (root.join names) := by
    intro answers
    rw [ofEntry_of_answers answers] at failed
    cases failed
  refine ⟨names, n, h, silent, ?_⟩
  rw [discover_of_directory located directory, below, whole]
  cases seen : files.find? (root.join names) with
  | ok found => exact absurd ⟨found, seen⟩ silent
  | error e' =>
      rw [ofEntry, seen] at failed
      cases failed
      rw [Store.findIfAny_error seen]
      rfl

end Tree

/-- A directory that is called as a file next to one with a sign in its name, a file that cannot be
read, and links to a file, to a directory and to nothing. -/
def project : Store where
  nodes :=
    let entry (names : List String) (n : Node) : Location × Node := (names.map String.toList, n)
    [entry ["a"] .directory, entry ["a", "x.php"] (.file 0), entry ["a.php"] .directory,
      entry ["a.php", "y.php"] (.file 1), entry ["a-b"] .directory,
      entry ["a-b", "z.php"] (.link (.of "../a/x.php".toList)),
      entry ["b.txt"] (.file 0), entry ["c.php"] (.link (.of "a".toList)),
      entry ["d.php"] (.link (.of "d.php".toList))]
  contents := [(1, { content := [1], readable := false })]

/-- The order of the texts is not that of a walk: a hyphen comes before a slash. -/
example : before "a-b/z.php".toList "a/x.php".toList = true ∧
    before "a".toList "a-b".toList = true := by
  decide

/-- A directory with an empty directory and a file in it, and a path that goes through the empty
directory and back so often that it is almost too long. -/
def beside : Store where
  nodes := [(["d".toList], .directory), ([List.replicate 200 'a' ++ ".php".toList], .file 0)]

def detour : Path :=
  ⟨[], (List.replicate 800 ["d".toList, "..".toList]).flatten⟩

end Candidate

end PhpGate
