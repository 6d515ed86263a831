import Mathlib.Data.List.Induction
import PhpGate.Proofs.Files.Directories

/-!
Directory trees. In a tree everything stands in a directory under a name that a file can have. What
stands below a directory can be reached from it through other directories, and the path of the
directory with those names behind it leads there, unless it is too long. A link stands in the tree as
an entry; what it leads to need not.
-/

namespace PhpGate

open Text

namespace Path

/-- Whether the operating system takes the path for one of a file. -/
def IsShort (p : Path) : Prop :=
  (encode p.text).length ≤ Store.longestPath

instance (p : Path) : Decidable p.IsShort :=
  inferInstanceAs (Decidable (_ ≤ _))

theorem hasNull_join_names (p : Path) (names : List Text) :
    (p.join names).hasNull = (p.hasNull || names.any (·.contains (Char.ofNat 0))) := by
  induction names generalizing p with
  | nil => simp [join]
  | cons name names ih =>
      have split : p.join (name :: names) = (p.join [name]).join names := by simp [join]
      rw [split, ih, hasNull_join, List.any_cons, Bool.or_assoc]

theorem splitAfter_append {name : Text} (single : '/' ∉ name) (current rest : Text) :
    splitAfter '/' current (name ++ rest) = splitAfter '/' (name.reverse ++ current) rest := by
  induction name generalizing current with
  | nil => rfl
  | cons c name ih =>
      obtain ⟨other, later⟩ := not_or.mp (fun either => single (List.mem_cons.mpr either))
      rw [List.cons_append, splitAfter, if_neg (Ne.symm other), ih later]
      simp

/-- Names that were joined can be told apart again. -/
theorem split_joinWith {names : List Text} (nonempty : names ≠ [])
    (single : ∀ name ∈ names, '/' ∉ name) : split '/' (joinWith ['/'] names) = names := by
  rw [split]
  induction names with
  | nil => exact absurd rfl nonempty
  | cons name names ih =>
      obtain ⟨here, later⟩ := List.forall_mem_cons.mp single
      cases names with
      | nil =>
          have whole := splitAfter_append here [] []
          simpa [joinWith, splitAfter] using whole
      | cons next names =>
          rw [joinWith, List.append_assoc, splitAfter_append here, List.singleton_append, splitAfter,
            if_pos rfl, ih (List.cons_ne_nil _ _) later, List.append_nil, List.reverse_reverse]
          simp

/-- Different names lead to paths with different texts. -/
theorem text_join_inj {p : Path} {names names' : List Text}
    (nonempty : names ≠ []) (nonempty' : names' ≠ []) (single : ∀ name ∈ names, '/' ∉ name)
    (single' : ∀ name ∈ names', '/' ∉ name)
    (same : (p.join names).text = (p.join names').text) : names = names' := by
  obtain ⟨lead, -, joined⟩ := p.text_join
  rw [joined names nonempty, joined names' nonempty', List.append_cancel_left_eq] at same
  rw [← split_joinWith nonempty single, same, split_joinWith nonempty' single']

end Path

namespace Store

/-- What the name of an entry of a directory can be. -/
structure IsName (name : Text) : Prop where
  nonempty : name ≠ []
  single : '/' ∉ name
  clean : Char.ofNat 0 ∉ name
  other : name ≠ ['.'] ∧ name ≠ "..".toList
  short : (encode name).length ≤ longestName

instance (name : Text) : Decidable (IsName name) :=
  decidable_of_iff (name ≠ [] ∧ '/' ∉ name ∧ Char.ofNat 0 ∉ name ∧
      (name ≠ ['.'] ∧ name ≠ "..".toList) ∧ (encode name).length ≤ longestName)
    ⟨fun ⟨nonempty, single, clean, other, short⟩ => ⟨nonempty, single, clean, other, short⟩,
      fun h => ⟨h.nonempty, h.single, h.clean, h.other, h.short⟩⟩

/-- A store in which every location has one node, and this stands in a directory. -/
structure IsTree (s : Store) : Prop where
  distinct : (s.nodes.map Prod.fst).Nodup
  names : ∀ entry ∈ s.nodes, ∀ name ∈ entry.1, IsName name
  above : ∀ entry ∈ s.nodes, entry.1 ≠ [] ∧ s.node? entry.1.dropLast = some .directory

instance (s : Store) : Decidable s.IsTree :=
  decidable_of_iff ((s.nodes.map Prod.fst).Nodup ∧
      (∀ entry ∈ s.nodes, ∀ name ∈ entry.1, IsName name) ∧
      ∀ entry ∈ s.nodes, entry.1 ≠ [] ∧ s.node? entry.1.dropLast = some .directory)
    ⟨fun ⟨distinct, names, above⟩ => ⟨distinct, names, above⟩,
      fun h => ⟨h.distinct, h.names, h.above⟩⟩

/-- What stands below a location, with the names on the way to it. All but the last are names of
directories, whatever these are called. -/
inductive Below (s : Store) : (l : Location) → (names : List Text) → Node → Prop
  | entry {l : Location} {name : Text} {n : Node} (stands : s.node? (l ++ [name]) = some n) :
      Below s l [name] n
  | deeper {l : Location} {name : Text} {names : List Text} {n : Node}
      (directory : s.node? (l ++ [name]) = some .directory) (rest : Below s (l ++ [name]) names n) :
      Below s l (name :: names) n

variable {s : Store} {l m : Location} {names : List Text} {n : Node} {root : Path}

theorem mem_of_node (stands : s.node? m = some n) (below : m ≠ []) : (m, n) ∈ s.nodes := by
  rw [node_eq_lookup below] at stands
  obtain ⟨front, back, split, -⟩ := List.lookup_eq_some_iff.mp stands
  rw [split]
  simp

theorem exists_node_of_mem (mem : (m, n) ∈ s.nodes) : ∃ n', s.node? m = some n' := by
  by_cases below : m = []
  · exact ⟨.directory, by rw [below]; rfl⟩
  · rw [node_eq_lookup below]
    cases found : s.nodes.lookup m with
    | some n' => exact ⟨n', rfl⟩
    | none => simpa using List.lookup_eq_none_iff.mp found _ mem

theorem Below.stands (h : s.Below l names n) : names ≠ [] ∧ s.node? (l ++ names) = some n := by
  induction h with
  | entry stands => exact ⟨List.cons_ne_nil _ _, stands⟩
  | deeper _ _ ih => exact ⟨List.cons_ne_nil _ _, by simpa using ih.2⟩

namespace IsTree

variable (tree : s.IsTree)
include tree

theorem isName_of_node (stands : s.node? m = some n) : ∀ name ∈ m, IsName name := by
  by_cases below : m = []
  · simp [below]
  · exact tree.names _ (mem_of_node stands below)

theorem directory_above (stands : s.node? (l ++ names) = some n) (nonempty : names ≠ []) :
    s.node? l = some .directory := by
  induction names using List.reverseRecOn generalizing n with
  | nil => exact absurd rfl nonempty
  | append_singleton names name ih =>
      have above := (tree.above _ (mem_of_node stands (by simp))).2
      rw [← List.append_assoc, List.dropLast_concat] at above
      by_cases last : names = []
      · rwa [last, List.append_nil] at above
      · exact ih above last

theorem below_iff : s.Below l names n ↔ names ≠ [] ∧ s.node? (l ++ names) = some n := by
  constructor
  · exact Below.stands
  · rintro ⟨nonempty, stands⟩
    induction names generalizing l with
    | nil => exact absurd rfl nonempty
    | cons name names ih =>
        by_cases last : names = []
        · subst last
          exact .entry stands
        · rw [List.append_cons] at stands
          exact .deeper (tree.directory_above stands last) (ih last stands)

theorem isName_of_below (h : s.Below l names n) : ∀ name ∈ names, IsName name :=
  fun name mem => tree.isName_of_node h.stands.2 name (List.mem_append_right l mem)

theorem mem_namesBelow : names ∈ s.namesBelow l ↔ ∃ n, s.Below l names n := by
  have listed : names ∈ s.namesBelow l ↔ ∃ n, (l ++ names, n) ∈ s.nodes ∧ names ≠ [] := by
    simp only [namesBelow, List.mem_filterMap, Prod.exists, Option.ite_none_right_eq_some,
      Option.some.injEq, Bool.and_eq_true, bne_iff_ne, List.isPrefixOf_iff_prefix]
    constructor
    · rintro ⟨m, n, mem, ⟨⟨names, rfl⟩, proper⟩, rfl⟩
      rw [List.drop_left]
      exact ⟨n, mem, by simpa using proper⟩
    · rintro ⟨n, mem, nonempty⟩
      exact ⟨l ++ names, n, mem, ⟨List.prefix_append l names, by simpa using nonempty⟩,
        List.drop_left⟩
  rw [listed]
  constructor
  · rintro ⟨n, mem, nonempty⟩
    obtain ⟨n', stands⟩ := exists_node_of_mem mem
    exact ⟨n', tree.below_iff.mpr ⟨nonempty, stands⟩⟩
  · rintro ⟨n, below⟩
    obtain ⟨nonempty, stands⟩ := below.stands
    exact ⟨n, mem_of_node stands (by simp [nonempty]), nonempty⟩

theorem nodup_namesBelow : (s.namesBelow l).Nodup := by
  refine List.Pairwise.filterMap _ ?_ (List.pairwise_map.mp tree.distinct)
  rintro ⟨m, n⟩ ⟨m', n'⟩ different names found names' found' rfl
  simp only [Option.ite_none_right_eq_some, Option.some.injEq, Bool.and_eq_true,
    List.isPrefixOf_iff_prefix] at found found'
  obtain ⟨⟨⟨r, rfl⟩, -⟩, rfl⟩ := found
  obtain ⟨⟨⟨r', rfl⟩, -⟩, same⟩ := found'
  rw [List.drop_left, List.drop_left] at same
  exact different (by rw [same])

theorem leads_below {k : Nat} {parts : List Text} (leads : s.Leads true k m parts l)
    (directory : s.node? l = some .directory) (h : s.Below l names n) :
    s.Leads false k m (parts ++ names) (l ++ names) := by
  have allowed := tree.isName_of_below h
  induction h generalizing parts with
  | entry =>
      obtain ⟨name, -⟩ := List.forall_mem_cons.mp allowed
      have led := leads.concat directory name.short
      rwa [Location.step, if_neg name.other.2, if_neg name.other.1] at led
  | @deeper l name names n next _ ih =>
      obtain ⟨here, later⟩ := List.forall_mem_cons.mp allowed
      have led := leads.concat directory here.short
      rw [Location.step, if_neg here.other.2, if_neg here.other.1] at led
      have led := ih (led.followed (link_of_directory next)) next later
      rwa [List.append_assoc, List.append_assoc] at led

variable (located : s.locate root = .ok l)
include located

theorem hasNull_below (h : s.Below l names n) : (root.join names).hasNull = false := by
  obtain ⟨possible, -, -⟩ := locateBy_eq_ok_iff.mp located
  rw [Path.hasNull_join_names, possible, Bool.false_or, List.any_eq_false]
  exact fun name mem => by simpa using (tree.isName_of_below h name mem).clean

/-- A path that is too long leads nowhere, whatever stands there. -/
theorem find_join_long (h : s.Below l names n) (long : ¬ (root.join names).IsShort) :
    s.find? (root.join names) = .error (.fault .nameTooLong (root.join names).text none) := by
  have refused : s.find (root.join names)
      = .error (.fault .nameTooLong (root.join names).text none) := by
    rw [find, locate, locateBy, tree.hasNull_below located h, if_neg Bool.false_ne_true,
      if_pos (Nat.lt_of_not_le long)]
    rfl
  rw [find?, refused]

variable (directory : s.node? l = some .directory)
include directory

/-- The path of a directory with names behind it leads to the entry below under these names. -/
theorem locateEntry_join (h : s.Below l names n) (short : (root.join names).IsShort) :
    s.locateEntry (root.join names) = .ok (l ++ names) := by
  obtain ⟨-, -, leads⟩ := locateBy_eq_ok_iff.mp located
  exact locateBy_eq_ok_iff.mpr ⟨tree.hasNull_below located h, short,
    tree.leads_below leads directory h⟩

/-- A file or a directory is found at the path that leads to it. -/
theorem find_join {e : Entry} (h : s.Below l names n) (short : (root.join names).IsShort)
    (stands : s.stored? (l ++ names) = some e) (plain : s.link? (l ++ names) = none) :
    s.find (root.join names) = .ok e :=
  find_eq_ok_iff.mpr
    ⟨_, locate_of_locateEntry (tree.locateEntry_join located directory h short) plain, stands⟩

end IsTree

end Store

end PhpGate
