import PhpGate.Value.Basic

/-!
When a value cannot be shown: a whole number with too many digits stands in it, at whatever depth.
Also how keys are put in order, if they can be.
-/

namespace PhpGate.Value

open Text

/-- A whole number with too many digits to be written stands in a value. -/
inductive HoldsLongInt : Value → Prop where
  | int {n : Int} (long : Nat.pow 10 digitLimit ≤ n.natAbs) : HoldsLongInt (.int n)
  | list {items : List Value} {v : Value} (mem : v ∈ items) (holds : HoldsLongInt v) :
      HoldsLongInt (.list items)
  | first {a b : Value} (holds : HoldsLongInt a) : HoldsLongInt (.pair a b)
  | second {a b : Value} (holds : HoldsLongInt b) : HoldsLongInt (.pair a b)
  | key {entries : List (Value × Value)} {e : Value × Value} (mem : e ∈ entries)
      (holds : HoldsLongInt e.1) : HoldsLongInt (.mapping entries)
  | value {entries : List (Value × Value)} {e : Value × Value} (mem : e ∈ entries)
      (holds : HoldsLongInt e.2) : HoldsLongInt (.mapping entries)
  | set {members : List Value} {v : Value} (mem : v ∈ members) (holds : HoldsLongInt v) :
      HoldsLongInt (.set members)

theorem showInt_eq_none_iff (n : Int) : showInt? n = none ↔ Nat.pow 10 digitLimit ≤ n.natAbs := by
  rw [showInt?, ← Nat.not_lt]
  split
  · exact iff_of_false nofun fun long => long ‹_›
  · exact iff_of_true rfl ‹_›

theorem pair_shown_eq_none_iff (a b : Value) :
    (Value.pair a b).shown? = none ↔ a.shown? = none ∨ b.shown? = none := by
  rw [shown?]
  cases a.shown? <;> cases b.shown? <;> simp

theorem showItems_cons_eq_none_iff (v : Value) (items : List Value) :
    shown?.showItems? (v :: items) = none
      ↔ v.shown? = none ∨ shown?.showItems? items = none := by
  rw [shown?.showItems?]
  cases v.shown? <;> cases shown?.showItems? items <;> simp

theorem showEntries_cons_eq_none_iff (k v : Value) (entries : List (Value × Value)) :
    shown?.showEntries? ((k, v) :: entries) = none
      ↔ (k.shown? = none ∨ v.shown? = none) ∨ shown?.showEntries? entries = none := by
  rw [shown?.showEntries?]
  cases k.shown? <;> cases v.shown? <;> cases shown?.showEntries? entries <;> simp

theorem set_shown_eq_none_iff (members : List Value) :
    (Value.set members).shown? = none ↔ shown?.showItems? members = none := by
  cases members with
  | nil => simp [shown?, shown?.showItems?]
  | cons v members => rw [shown?, Option.map_eq_none_iff]; simp

mutual

theorem shown_eq_none_iff : (v : Value) → (v.shown? = none ↔ v.HoldsLongInt)
  | .null | .bool _ | .float _ | .text _ | .brokenText _ | .bytes _ | .date _ | .moment _
  | .cycle => iff_of_false nofun nofun
  | .int n => by
      rw [shown?, showInt_eq_none_iff]
      exact ⟨.int, fun | .int long => long⟩
  | .list items => by
      rw [shown?, Option.map_eq_none_iff, showItems_eq_none_iff items]
      exact ⟨fun ⟨v, mem, holds⟩ => .list mem holds, fun | .list mem holds => ⟨_, mem, holds⟩⟩
  | .pair a b => by
      rw [pair_shown_eq_none_iff, shown_eq_none_iff a, shown_eq_none_iff b]
      constructor
      · rintro (holds | holds)
        · exact .first holds
        · exact .second holds
      · rintro (holds | holds)
        · exact .inl ‹_›
        · exact .inr ‹_›
  | .mapping entries => by
      rw [shown?, Option.map_eq_none_iff, showEntries_eq_none_iff entries]
      constructor
      · rintro ⟨e, mem, holds | holds⟩
        · exact .key mem holds
        · exact .value mem holds
      · rintro (_ | _ | _ | _ | ⟨mem, holds⟩ | ⟨mem, holds⟩)
        · exact ⟨_, mem, .inl holds⟩
        · exact ⟨_, mem, .inr holds⟩
  | .set members => by
      rw [set_shown_eq_none_iff, showItems_eq_none_iff members]
      exact ⟨fun ⟨v, mem, holds⟩ => .set mem holds, fun | .set mem holds => ⟨_, mem, holds⟩⟩

theorem showItems_eq_none_iff :
    (items : List Value) → (shown?.showItems? items = none ↔ ∃ v ∈ items, v.HoldsLongInt)
  | [] => iff_of_false nofun nofun
  | v :: items => by
      rw [showItems_cons_eq_none_iff, shown_eq_none_iff v, showItems_eq_none_iff items]
      simp

theorem showEntries_eq_none_iff : (entries : List (Value × Value)) →
    (shown?.showEntries? entries = none ↔ ∃ e ∈ entries, e.1.HoldsLongInt ∨ e.2.HoldsLongInt)
  | [] => iff_of_false nofun nofun
  | (k, v) :: entries => by
      rw [showEntries_cons_eq_none_iff, shown_eq_none_iff k, shown_eq_none_iff v,
        showEntries_eq_none_iff entries]
      simp

end

section Order

variable {keys sorted : List Value}

/-- There is one key at most, or all of them are of one kind that has an order. -/
def HaveOrder (keys : List Value) : Prop :=
  keys.length ≤ 1 ∨ ∃ kind, kind ≠ .none ∧ ∀ k ∈ keys, k.orderKind = kind

theorem sortKeys_eq_none_iff : sortKeys? keys = none ↔ ¬ HaveOrder keys := by
  match keys with
  | [] => exact iff_of_false nofun (not_not_intro (.inl (Nat.zero_le 1)))
  | [k] => exact iff_of_false nofun (not_not_intro (.inl (Nat.le_refl 1)))
  | k :: l :: rest =>
      have sorted : sortKeys? (k :: l :: rest)
          = if k.orderKind ≠ .none ∧ (l :: rest).all fun m => m.orderKind = k.orderKind then
              some ((k :: l :: rest).mergeSort before)
            else none := rfl
      have several : ¬ (k :: l :: rest).length ≤ 1 := by simp
      have one : (∃ kind, kind ≠ .none ∧ ∀ m ∈ k :: l :: rest, m.orderKind = kind)
          ↔ k.orderKind ≠ .none ∧ ∀ m ∈ l :: rest, m.orderKind = k.orderKind := by
        constructor
        · rintro ⟨kind, ordered, same⟩
          obtain rfl := same k List.mem_cons_self
          exact ⟨ordered, fun m mem => same m (List.mem_cons_of_mem k mem)⟩
        · rintro ⟨ordered, same⟩
          exact ⟨_, ordered, List.forall_mem_cons.mpr ⟨rfl, same⟩⟩
      rw [sorted, HaveOrder, or_iff_right several, one]
      simp

/-- Keys in order are the same keys. -/
theorem mem_of_sortKeys (found : sortKeys? keys = some sorted) (v : Value) :
    v ∈ sorted ↔ v ∈ keys := by
  match keys with
  | [] | [_] =>
      cases found
      rfl
  | k :: l :: rest =>
      obtain ⟨-, found⟩ := Option.ite_none_right_eq_some.mp found
      cases found
      exact List.mem_mergeSort

end Order
end PhpGate.Value
