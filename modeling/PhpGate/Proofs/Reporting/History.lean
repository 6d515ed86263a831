import Mathlib.Data.List.Induction
import Mathlib.Data.List.Nodup
import PhpGate.Reporting

/-!
What the steps of a history say by themselves: which scopes are open after them and which of these
collects warnings, which scopes have been left, and which warnings each of them is due. A scope is
known by the number of steps before it was entered.
-/

namespace PhpGate.Reporting

section Runs

variable (r : Reporting)

/-- The state after some steps. -/
def after (past : List Step) : Reporting :=
  (r.trace past).getLast?.getD r

theorem trace_concat (past : List Step) (s : Step) :
    r.trace (past ++ [s]) = r.trace past ++ [(r.after past).step s] := by
  induction past generalizing r with
  | nil => rfl
  | cons first past ih =>
      simp only [List.cons_append, trace, ih, after, List.getLast?_cons, Option.getD_some]

theorem after_concat (past : List Step) (s : Step) :
    r.after (past ++ [s]) = (r.after past).step s := by
  rw [after, trace_concat, List.getLast?_concat]
  rfl

end Runs

/-- A scope in a history: how many steps came before it, and whether it suppresses. -/
structure Entry where
  position : Nat
  suppress : Bool
  deriving Repr, DecidableEq

/-- The open scopes after one more step, which has a number of steps before it. -/
def note (entries : List Entry) : Step × Nat → List Entry
  | (.enter suppress, position) => entries ++ [⟨position, suppress⟩]
  | (.leave, _) => entries.dropLast
  | (.warn _, _) | (.log _ _, _) | (.disable _, _) => entries

/-- The scopes that are open after some steps, outermost first. -/
def openEntries (past : List Step) : List Entry :=
  past.zipIdx.foldl note []

/-- The innermost scope that is open and suppresses, by its position. -/
def collector? (past : List Step) : Option Nat :=
  ((openEntries past).filter (·.suppress)).getLast?.map (·.position)

/-- What the steps of a history add, each seen together with the steps before it. -/
def chronicle {α : Type} (f : List Step → Step → Option α) (past : List Step) : List α :=
  past.zipIdx.filterMap fun p => f (past.take p.2) p.1

/-- The scopes that have been left, in the order of leaving. -/
def closedEntries : List Step → List Entry :=
  chronicle fun
    | earlier, .leave => (openEntries earlier).getLast?
    | _, _ => none

/-- The warnings that were issued, in order. -/
def issued : List Step → List Text :=
  chronicle fun
    | _, .warn message => some message
    | _, _ => none

/-- The warnings that were issued while the innermost open scope to suppress was the one at a
position, or while there was none, in order. -/
def due (place : Option Nat) : List Step → List Text :=
  chronicle fun
    | earlier, .warn message => if collector? earlier = place then some message else none
    | _, _ => none

section Concat

variable {past : List Step} {s : Step}

theorem openEntries_concat :
    openEntries (past ++ [s]) = note (openEntries past) (s, past.length) := by
  rw [openEntries, List.zipIdx_append, List.foldl_append, Nat.zero_add]
  rfl

theorem chronicle_concat {α : Type} (f : List Step → Step → Option α) :
    chronicle f (past ++ [s]) = chronicle f past ++ (f past s).toList := by
  have earlier : ∀ p ∈ past.zipIdx,
      f ((past ++ [s]).take p.2) p.1 = f (past.take p.2) p.1 := by
    intro p mem
    have within : p.2 < past.length := by simpa using List.snd_lt_add_of_mem_zipIdx mem
    rw [List.take_append_of_le_length (Nat.le_of_lt within)]
  have last : (past ++ [s]).take past.length = past := List.take_left
  rw [chronicle, List.zipIdx_append, List.filterMap_append, List.filterMap_congr earlier, chronicle,
    Nat.zero_add, List.zipIdx_singleton, List.filterMap_cons, last]
  cases f past s <;> rfl

theorem issued_concat_warn (message : Text) :
    issued (past ++ [.warn message]) = issued past ++ [message] :=
  chronicle_concat _

theorem due_concat_warn (place : Option Nat) (message : Text) :
    due place (past ++ [.warn message])
      = due place past ++ if collector? past = place then [message] else [] := by
  rw [due, chronicle_concat]
  dsimp only
  split <;> rfl

theorem due_concat_warn_self {place : Option Nat} (collects : collector? past = place)
    (message : Text) : due place (past ++ [.warn message]) = due place past ++ [message] := by
  rw [due_concat_warn, if_pos collects]

theorem due_concat_warn_of_ne {place : Option Nat} (elsewhere : collector? past ≠ place)
    (message : Text) : due place (past ++ [.warn message]) = due place past := by
  rw [due_concat_warn, if_neg elsewhere, List.append_nil]

theorem due_concat_of_ne_warn (place : Option Nat) (silent : ∀ message, s ≠ .warn message) :
    due place (past ++ [s]) = due place past := by
  rw [due, chronicle_concat]
  cases s with
  | warn message => exact absurd rfl (silent message)
  | enter _ | leave | log _ _ | disable _ => exact List.append_nil _

theorem issued_concat_of_ne_warn (silent : ∀ message, s ≠ .warn message) :
    issued (past ++ [s]) = issued past := by
  rw [issued, chronicle_concat]
  cases s with
  | warn message => exact absurd rfl (silent message)
  | enter _ | leave | log _ _ | disable _ => exact List.append_nil _

theorem closedEntries_concat_leave :
    closedEntries (past ++ [.leave]) = closedEntries past ++ (openEntries past).getLast?.toList :=
  chronicle_concat _

theorem closedEntries_concat_of_ne_leave (inside : s ≠ .leave) :
    closedEntries (past ++ [s]) = closedEntries past := by
  rw [closedEntries, chronicle_concat]
  cases s with
  | leave => exact absurd rfl inside
  | enter _ | warn _ | log _ _ | disable _ => exact List.append_nil _

end Concat

section Entries

variable {past : List Step} {e : Entry}

theorem position_lt (mem : e ∈ openEntries past) : e.position < past.length := by
  induction past using List.reverseRecOn with
  | nil => cases mem
  | append_singleton past s ih =>
      rw [openEntries_concat] at mem
      rw [List.length_append, List.length_singleton]
      cases s with
      | enter suppress =>
          obtain mem | mem := List.mem_append.mp mem
          · exact Nat.lt_succ_of_lt (ih mem)
          · obtain rfl := List.mem_singleton.mp mem
            exact Nat.lt_succ_self _
      | leave => exact Nat.lt_succ_of_lt (ih (List.dropLast_subset _ mem))
      | warn _ | log _ _ | disable _ => exact Nat.lt_succ_of_lt (ih mem)

/-- Before a scope that is still open was entered, the scopes around it were open. -/
theorem openEntries_take {front back : List Entry} (split : openEntries past = front ++ e :: back) :
    openEntries (past.take e.position) = front := by
  induction past using List.reverseRecOn generalizing back with
  | nil => cases front <;> cases split
  | append_singleton past s ih =>
      have earlier {back} (split : openEntries past = front ++ e :: back) :
          openEntries ((past ++ [s]).take e.position) = front := by
        have within : e.position < past.length := position_lt (by rw [split]; simp)
        rw [List.take_append_of_le_length (Nat.le_of_lt within)]
        exact ih split
      rw [openEntries_concat] at split
      cases s with
      | enter suppress =>
          obtain rfl | ⟨back, last, rfl⟩ := back.eq_nil_or_concat'
          · obtain ⟨same, last⟩ := List.append_inj' split rfl
            cases last
            rw [List.take_left, same]
          · rw [← List.cons_append, ← List.append_assoc] at split
            exact earlier (List.append_inj' split rfl).1
      | leave =>
          have nonempty : openEntries past ≠ [] := by
            intro empty
            rw [note, empty] at split
            cases front <;> cases split
          rw [note] at split
          have whole := List.dropLast_append_getLast nonempty
          rw [split, List.append_assoc, List.cons_append] at whole
          exact earlier whole.symm
      | warn _ | log _ _ | disable _ => exact earlier split

/-- What holds at the start and after each step holds throughout. Where a scope is left it may be
assumed of the state before the scope was entered too. -/
theorem history_induction {P : List Step → Prop} (start : P [])
    (step : ∀ past s, P past → (s = .leave → openEntries past = []) → P (past ++ [s]))
    (leave : ∀ past entries e, P past → openEntries past = entries ++ [e] →
      P (past.take e.position) → P (past ++ [.leave])) (past : List Step) : P past := by
  -- leaving goes back to a state long before, hence the induction on the length
  induction count : past.length using Nat.strongRecOn generalizing past with
  | ind n ih =>
    subst count
    obtain rfl | ⟨past, s, rfl⟩ := past.eq_nil_or_concat'
    · exact start
    · have before : P past := ih _ (by simp) past rfl
      by_cases left : s = .leave
      · subst left
        obtain empty | ⟨entries, e, split⟩ := (openEntries past).eq_nil_or_concat'
        · exact step past _ before fun _ => empty
        · have within : e.position < past.length := position_lt (by rw [split]; simp)
          refine leave past entries e before split (ih _ ?_ _ rfl)
          rw [List.length_take, List.length_append, List.length_singleton]
          omega
      · exact step past s before fun same => absurd same left

theorem collector_lt {k : Nat} (found : collector? past = some k) : k < past.length := by
  obtain ⟨e, last, rfl⟩ := Option.map_eq_some_iff.mp found
  exact position_lt (List.mem_filter.mp (List.mem_of_getLast? last)).1

/-- A scope is due nothing before it is entered. -/
theorem due_of_length_le {k : Nat} (later : past.length ≤ k) : due (some k) past = [] := by
  induction past using List.reverseRecOn with
  | nil => rfl
  | append_singleton past s ih =>
      rw [List.length_append, List.length_singleton] at later
      have none := ih (Nat.le_of_succ_le later)
      cases s with
      | warn message =>
          have apart : collector? past ≠ some k := fun found => by
            have := collector_lt found
            omega
          rw [due_concat_warn_of_ne apart, none]
      | enter _ | leave | log _ _ | disable _ =>
          rw [due_concat_of_ne_warn, none]
          exact nofun

/-- No two scopes, open or left, were entered at one position. -/
theorem nodup_positions (past : List Step) :
    ((closedEntries past ++ openEntries past).map (·.position)).Nodup ∧
      ∀ e ∈ closedEntries past ++ openEntries past, e.position < past.length := by
  induction past using List.reverseRecOn with
  | nil => exact ⟨List.nodup_nil, nofun⟩
  | append_singleton past s ih =>
      obtain ⟨unique, bounded⟩ := ih
      rw [openEntries_concat, List.length_append, List.length_singleton]
      cases s with
      | enter suppress =>
          have kept : closedEntries (past ++ [.enter suppress]) = closedEntries past :=
            closedEntries_concat_of_ne_leave nofun
          rw [note, kept, ← List.append_assoc]
          constructor
          · rw [List.map_append, List.nodup_append]
            refine ⟨unique, List.nodup_singleton _, ?_⟩
            rintro k mem k' last rfl
            obtain ⟨e, found, rfl⟩ := List.mem_map.mp mem
            exact Nat.ne_of_lt (bounded e found) (List.mem_singleton.mp last)
          · refine List.forall_mem_append.mpr ⟨fun e mem => Nat.lt_succ_of_lt (bounded e mem), ?_⟩
            exact List.forall_mem_singleton.mpr (Nat.lt_succ_self _)
      | leave =>
          have moved : (closedEntries (past ++ [.leave]) ++ (openEntries past).dropLast).Perm
              (closedEntries past ++ openEntries past) := by
            rw [closedEntries_concat_leave, List.append_assoc]
            refine List.Perm.append_left _ ?_
            obtain empty | ⟨entries, e, split⟩ := (openEntries past).eq_nil_or_concat'
            · rw [empty]
              rfl
            · rw [split, List.getLast?_concat, List.dropLast_concat]
              exact List.perm_append_comm
          refine ⟨((moved.map _).nodup_iff).mpr unique, fun e mem => ?_⟩
          exact Nat.lt_succ_of_lt (bounded e (moved.mem_iff.mp mem))
      | warn _ | log _ _ | disable _ =>
          rw [note, closedEntries_concat_of_ne_leave]
          · exact ⟨unique, fun e mem => Nat.lt_succ_of_lt (bounded e mem)⟩
          · exact nofun

/-- No other scope, open or left, was entered where an open one was. -/
theorem position_ne {front back : List Entry} (split : openEntries past = front ++ e :: back) :
    (∀ e' ∈ closedEntries past, e'.position ≠ e.position) ∧
      (∀ e' ∈ front, e'.position ≠ e.position) ∧ ∀ e' ∈ back, e'.position ≠ e.position := by
  have unique := (nodup_positions past).1
  rw [split, ← List.append_assoc, List.map_append, List.map_cons, List.nodup_middle,
    List.nodup_cons, ← List.map_append, List.mem_map] at unique
  have apart : ∀ e' ∈ closedEntries past ++ front ++ back, e'.position ≠ e.position :=
    fun e' mem same => unique.1 ⟨e', mem, same⟩
  rw [List.forall_mem_append, List.forall_mem_append] at apart
  exact ⟨apart.1.1, apart.1.2, apart.2⟩

end Entries

end PhpGate.Reporting
