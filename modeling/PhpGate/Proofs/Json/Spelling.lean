import PhpGate.Json.Reading
import PhpGate.Proofs.Json.Same

/-!
The texts that stand for a value: white space may stand before every value, before every key and
before a closing bracket, and every string is quoted in one of the two ways of writing characters
beyond ASCII. Both written forms of a value are such texts.
-/

namespace PhpGate.Json

open Text

abbrev Space (gap : Text) : Prop := ∀ c ∈ gap, isSpace c = true

theorem space_nil : Space [] := fun _ mem => nomatch mem

theorem space_singleton {c : Char} (space : isSpace c = true) : Space [c] :=
  List.forall_mem_singleton.mpr space

def commaSeparated : List Text → Text
  | [] => []
  | [t] => t
  | t :: u :: r => t ++ ',' :: commaSeparated (u :: r)

theorem exists_commaSeparated_cons (t : Text) (texts : List Text) :
    ∃ r, commaSeparated (t :: texts) = t ++ r := by
  cases texts with
  | nil => exact ⟨[], (List.append_nil t).symm⟩
  | cons u texts => exact ⟨_, rfl⟩

/-- A key with its value, of which the text is given. -/
def memberText (ascii : Bool) (before key value : Text) : Text :=
  before ++ quote ascii key ++ ':' :: value

inductive Spells : Json → Text → Prop
  | null : Spells .null "null".toList
  | bool (b : Bool) : Spells (.bool b) (if b then "true".toList else "false".toList)
  | int (n : Int) : Spells (.int n) (ofInt n)
  | string (ascii : Bool) (t : Text) : Spells (.string t) (quote ascii t)
  | array (items : List (Json × Text)) {gap : Text} (space : Space gap)
      (each : ∀ x t, (x, t) ∈ items → Spells x t) :
      Spells (.array (items.map Prod.fst))
        ('[' :: (commaSeparated (items.map Prod.snd) ++ gap ++ [']']))
  | object (members : List (Text × Json × Text)) {before gap : Text} (ascii : Bool)
      (space : Space before) (space' : Space gap) (unique : (members.map Prod.fst).Nodup)
      (each : ∀ k x t, (k, x, t) ∈ members → Spells x t) :
      Spells (.object (members.map fun m => (m.1, m.2.1)))
        ('{' :: (commaSeparated (members.map fun m => memberText ascii before m.1 m.2.2)
          ++ gap ++ ['}']))
  | spaced {j : Json} {t : Text} (gap : Text) (space : Space gap) (spells : Spells j t) :
      Spells j (gap ++ t)

namespace Spells

variable {spell : Json → Text}

/-- A text for every item gives one for the array. -/
theorem array_map {items : List Json} {gap : Text} (space : Space gap)
    (each : ∀ x ∈ items, Spells x (spell x)) :
    Spells (.array items) ('[' :: (commaSeparated (items.map spell) ++ gap ++ [']'])) := by
  have spells := Spells.array (items.map fun x => (x, spell x)) space ?_
  · simpa only [List.map_map, Function.comp_def, List.map_id'] using spells
  · intro x t mem
    obtain ⟨x, stands, same⟩ := List.mem_map.mp mem
    cases same
    exact each x stands

theorem object_map {members : List (Text × Json)} {before gap : Text} (ascii : Bool)
    (space : Space before) (space' : Space gap) (unique : (members.map Prod.fst).Nodup)
    (each : ∀ k x, (k, x) ∈ members → Spells x (spell x)) :
    Spells (.object members)
      ('{' :: (commaSeparated (members.map fun m => memberText ascii before m.1 (spell m.2))
        ++ gap ++ ['}'])) := by
  have spells := Spells.object (members.map fun m => (m.1, m.2, spell m.2)) ascii space space'
    ?_ ?_
  · simpa only [List.map_map, Function.comp_def, List.map_id'] using spells
  · rwa [List.map_map]
  · intro k x t mem
    obtain ⟨⟨k, x⟩, stands, same⟩ := List.mem_map.mp mem
    cases same
    exact each k x stands

end Spells

section Compact

variable (ascii : Bool)

theorem compactItems_eq (items : List Json) :
    compact.compactItems ascii items = commaSeparated (items.map (compact ascii)) := by
  induction items with
  | nil => rfl
  | cons x xs ih =>
      cases xs with
      | nil => exact compact.compactItems.eq_2 ascii x
      | cons y ys =>
          rw [compact.compactItems, ih, List.append_assoc]
          · rfl
          · exact List.cons_ne_nil _ _

theorem compactMembers_eq (members : List (Text × Json)) :
    compact.compactMembers ascii members
      = commaSeparated (members.map fun m => memberText ascii [] m.1 (m.2.compact ascii)) := by
  induction members with
  | nil => rfl
  | cons m ms ih =>
      cases ms with
      | nil =>
          rw [compact.compactMembers, List.append_assoc]
          rfl
      | cons n ns =>
          rw [compact.compactMembers, ih]
          · simp only [List.map_cons, commaSeparated, memberText, List.nil_append,
              List.append_assoc, List.cons_append]
          · exact List.cons_ne_nil _ _

/-- The compact text of a value stands for it. -/
theorem spells_compact {j : Json} (plain : j.IsPlain) : Spells j (j.compact ascii) := by
  induction plain with
  | null => exact .null
  | bool b =>
      cases b with
      | true => exact .bool true
      | false => exact .bool false
  | int n => exact .int n
  | string t => exact .string ascii t
  | @array items each ih =>
      have spells := Spells.array_map space_nil ih
      rwa [List.append_nil, ← compactItems_eq] at spells
  | @object members unique each ih =>
      have spells := Spells.object_map ascii space_nil space_nil unique ih
      rwa [List.append_nil, ← compactMembers_eq] at spells

end Compact

section Indented

variable (depth : Nat)

theorem space_newLine : Space (newLine depth) := by
  intro c mem
  obtain rfl | mem := List.mem_cons.mp mem
  · rfl
  · rw [List.eq_of_mem_replicate mem]
    rfl

theorem indentedItems_eq (items : List Json) :
    indented.indentedItems depth items
      = commaSeparated (items.map fun x => newLine (depth + 1) ++ x.indented (depth + 1)) := by
  induction items with
  | nil => rfl
  | cons x xs ih =>
      cases xs with
      | nil => exact indented.indentedItems.eq_2 depth x
      | cons y ys =>
          rw [indented.indentedItems, ih, List.append_assoc]
          · rfl
          · exact List.cons_ne_nil _ _

theorem indentedMembers_eq (members : List (Text × Json)) :
    indented.indentedMembers depth members
      = commaSeparated (members.map fun m =>
          memberText false (newLine (depth + 1)) m.1 ([' '] ++ m.2.indented (depth + 1))) := by
  induction members with
  | nil => rfl
  | cons m ms ih =>
      cases ms with
      | nil =>
          rw [indented.indentedMembers, List.append_assoc]
          rfl
      | cons n ns =>
          rw [indented.indentedMembers, ih]
          · simp only [List.map_cons, commaSeparated, memberText, List.append_assoc,
              List.cons_append]
            rfl
          · exact List.cons_ne_nil _ _

/-- The indented text of a value stands for it, at every depth. -/
theorem spells_indented {j : Json} (plain : j.IsPlain) : Spells j (j.indented depth) := by
  induction plain generalizing depth with
  | null => exact .null
  | bool b =>
      cases b with
      | true => exact .bool true
      | false => exact .bool false
  | int n => exact .int n
  | string t => exact .string false t
  | @array items each ih =>
      cases items with
      | nil => exact .array [] space_nil fun _ _ mem => nomatch mem
      | cons x xs =>
          have spells := Spells.array_map (space_newLine depth) fun x mem =>
            (ih x mem (depth + 1)).spaced _ (space_newLine (depth + 1))
          rwa [← indentedItems_eq] at spells
  | @object members unique each ih =>
      cases members with
      | nil =>
          exact .object [] false space_nil space_nil unique
            fun _ _ _ mem => nomatch mem
      | cons m ms =>
          have spells := Spells.object_map false (space_newLine (depth + 1)) (space_newLine depth)
            unique fun k x mem => (ih k x mem (depth + 1)).spaced [' '] (space_singleton rfl)
          rwa [← indentedMembers_eq] at spells

end Indented
end PhpGate.Json
