import PhpGate.Proofs.Reporting.History

/-!
The state of reporting against its history. What an open scope has saved is what was there just
before it was entered, and where a scope collects warnings the first filter lets every warning pass.
So leaving a scope undoes whatever was done inside it, and every warning goes to one place, in order:
to the scope that it is due, or else to the filters of the caller.
-/

namespace PhpGate

/-- A scope apart from the warnings that it has collected. -/
def OpenScope.emptied (s : OpenScope) : OpenScope :=
  { s with captured := [] }

namespace Reporting

/-- How reporting is set up where the first scope is entered. -/
structure Caller where
  level : Int := 0
  threshold : Int := 0
  filters : List WarningFilter := []

/-- The state after some steps from one in which no scope is open. -/
def reached (c : Caller) (past : List Step) : Reporting :=
  after { level := c.level, threshold := c.threshold, filters := c.filters } past

theorem reached_concat (c : Caller) (past : List Step) (s : Step) :
    reached c (past ++ [s]) = (reached c past).step s :=
  after_concat _ past s

/-- What is to be known of a scope from what was there just before it was entered. -/
def Entry.scope (c : Caller) (past : List Step) (e : Entry) : OpenScope :=
  let before := reached c (past.take e.position)
  ⟨e.suppress, before.level, before.filters, before.sink, []⟩

/-- The warnings that scopes have collected. -/
def collected (r : Reporting) : List Text :=
  r.closed.flatten ++ r.scopes.flatMap (·.captured)

/-- Everything that has been recorded. -/
def recorded (r : Reporting) : List Text :=
  r.shown ++ collected r

section Steps

variable {r : Reporting}

theorem enter_cases (r : Reporting) (suppress : Bool) :
    ∃ level filters version sink, r.enter suppress = { r with
      level, filters, version, sink
      scopes := r.scopes ++ [⟨suppress, r.level, r.filters, r.sink, []⟩] } := by
  cases suppress <;> exact ⟨_, _, _, _, rfl⟩

theorem leave_of_nil (h : r.scopes = []) : r.leave = r := by
  rw [leave, h]
  rfl

theorem leave_of_concat {scopes : List OpenScope} {s : OpenScope} (h : r.scopes = scopes ++ [s]) :
    r.leave = { r with
      scopes, level := s.savedLevel, filters := s.savedFilters, version := r.version + 1
      sink := s.savedSink, closed := r.closed ++ [s.captured] } := by
  rw [leave, h, List.getLast?_concat]
  dsimp only
  rw [List.dropLast_concat]

theorem deliver_of_none (message : Text) (h : r.sink = none) :
    r.deliver message = { r with shown := r.shown ++ [message] } := by
  rw [deliver, h]

theorem deliver_of_some {front back : List OpenScope} {s : OpenScope} (message : Text)
    (h : r.sink = some front.length) (split : r.scopes = front ++ s :: back) :
    r.deliver message = { r with
      scopes := front ++ { s with captured := s.captured ++ [message] } :: back } := by
  rw [deliver, h]
  dsimp only
  rw [split, List.modify_eq_take_cons_drop (by simp)]
  simp

theorem deliver_cases (r : Reporting) (message : Text) :
    ∃ shown scopes, r.deliver message = { r with shown, scopes } ∧
      scopes.map OpenScope.emptied = r.scopes.map OpenScope.emptied := by
  rw [deliver]
  cases r.sink with
  | none => exact ⟨_, _, rfl, rfl⟩
  | some k =>
      refine ⟨_, _, rfl, List.ext_getElem (by simp) fun i _ _ => ?_⟩
      simp only [List.getElem_map, List.getElem_modify]
      split <;> rfl

theorem refresh_cases (r : Reporting) :
    ∃ passed version, r.refresh = { r with passed, passedVersion := version } ∧
      version = r.version ∧ (passed = [] ∨ passed = r.passed ∧ r.passedVersion = r.version) := by
  rw [refresh]
  split
  · rename_i same
    exact ⟨r.passed, r.passedVersion, rfl, same, .inr ⟨rfl, same⟩⟩
  · exact ⟨[], r.version, rfl, rfl, .inl rfl⟩

/-- What a warning can change: what is kept of the texts that have passed, and the places where
warnings go. -/
theorem warn_cases (r : Reporting) (message : Text) :
    ∃ passed shown raised scopes, r.warn message
        = { r with passed, passedVersion := r.version, shown, raised, scopes } ∧
      scopes.map OpenScope.emptied = r.scopes.map OpenScope.emptied := by
  obtain ⟨passed, version, fresh, rfl, -⟩ := refresh_cases r
  rw [warn, fresh]
  dsimp only
  split
  · exact ⟨_, _, _, _, rfl, rfl⟩
  · split
    · obtain ⟨shown, scopes, same, emptied⟩ :=
        deliver_cases { r with passed, passedVersion := r.version } message
      exact ⟨_, _, _, _, same, emptied⟩
    · obtain ⟨shown, scopes, same, emptied⟩ := deliver_cases
        { r with passed := passed ++ [message], passedVersion := r.version } message
      exact ⟨_, _, _, _, same, emptied⟩
    · exact ⟨_, _, _, _, rfl, rfl⟩
    · exact ⟨_, _, _, _, rfl, rfl⟩

/-- A warning outside is shown, raised, or ignored. -/
theorem warn_of_outside (message : Text) (outside : r.sink = none) :
    ∃ passed shown raised, r.warn message
        = { r with passed, passedVersion := r.version, shown, raised } ∧
      (shown = r.shown ∨ shown = r.shown ++ [message]) := by
  obtain ⟨passed, version, fresh, rfl, -⟩ := refresh_cases r
  rw [warn, fresh]
  dsimp only
  split
  · exact ⟨_, _, _, rfl, .inl rfl⟩
  · split
    · exact ⟨_, _, _, deliver_of_none message outside, .inr rfl⟩
    · exact ⟨_, _, _, deliver_of_none message outside, .inr rfl⟩
    · exact ⟨_, _, _, rfl, .inl rfl⟩
    · exact ⟨_, _, _, rfl, .inl rfl⟩

/-- A warning outside is dealt with as a filter says, if no text is noted or would be. -/
theorem warn_of_not_once (message : Text) (outside : r.sink = none) (none : r.passed = [])
    (other : actionOn r.filters message ≠ .once) : r.warn message = { r with
      passedVersion := r.version
      shown := r.shown ++ [message].filter (actionOn r.filters · = .always)
      raised := r.raised ++ [message].filter (actionOn r.filters · = .error) } := by
  obtain ⟨passed, version, fresh, rfl, empty⟩ := refresh_cases r
  obtain rfl : passed = r.passed := by
    obtain empty | ⟨same, -⟩ := empty
    · rw [empty, none]
    · exact same
  rw [warn, fresh]
  simp only [none, List.contains_nil, Bool.false_eq_true, if_false]
  cases action : actionOn r.filters message with
  | once => exact absurd action other
  | always => simp [deliver, outside, action]
  | ignore | error => simp [action]

theorem actionOn_of_open {filters : List WarningFilter} (first : filters.head? = some openFilter)
    (message : Text) : actionOn filters message = .always := by
  obtain ⟨rest, rfl⟩ := List.head?_eq_some_iff.mp first
  rfl

/-- Where the first filter lets every warning pass and none has been noted, a warning is handed
over. -/
theorem warn_of_open (message : Text) (first : r.filters.head? = some openFilter)
    (none : r.passedVersion = r.version → r.passed = []) :
    r.warn message = { r with passed := [], passedVersion := r.version }.deliver message := by
  obtain ⟨passed, version, fresh, rfl, empty⟩ := refresh_cases r
  have empty : passed = [] := by
    obtain empty | ⟨rfl, same⟩ := empty
    · exact empty
    · exact none same
  subst empty
  rw [warn, fresh]
  simp only [List.contains_nil, Bool.false_eq_true, if_false, actionOn_of_open first]

theorem step_log (message : Text) (n : Int) :
    ∃ logged, r.step (.log message n) = { r with logged } := by
  rw [step]
  split
  · exact ⟨_, rfl⟩
  · exact ⟨_, rfl⟩

end Steps

section Scopes

variable (c : Caller) {past : List Step}

theorem scope_concat (s : Step) {e : Entry} (mem : e ∈ openEntries past) :
    e.scope c (past ++ [s]) = e.scope c past := by
  rw [Entry.scope, List.take_append_of_le_length (Nat.le_of_lt (position_lt mem)), Entry.scope]

/-- The open scopes are those that the history says, and each has saved what was there just before
it was entered. -/
theorem scopes_reached (past : List Step) :
    (reached c past).scopes.map OpenScope.emptied
      = (openEntries past).map (Entry.scope c past) := by
  induction past using List.reverseRecOn with
  | nil => rfl
  | append_singleton past s ih =>
      have kept : (openEntries past).map (Entry.scope c (past ++ [s]))
          = (reached c past).scopes.map OpenScope.emptied :=
        (List.map_congr_left fun _ => scope_concat c s).trans ih.symm
      rw [reached_concat, openEntries_concat]
      cases s with
      | enter suppress =>
          obtain ⟨_, _, _, _, same⟩ := enter_cases (reached c past) suppress
          rw [note, List.map_append, kept, step, same, List.map_append, List.map_singleton,
            List.map_singleton, Entry.scope, List.take_left]
          rfl
      | leave =>
          rw [note, List.map_dropLast, kept, ← List.map_dropLast, step, leave]
          cases last : (reached c past).scopes.getLast? with
          | none => rw [List.getLast?_eq_none_iff.mp last]; rfl
          | some scope => rfl
      | warn message =>
          obtain ⟨_, _, _, scopes, same, emptied⟩ := warn_cases (reached c past) message
          rw [note, kept, step, same]
          exact emptied
      | log message n =>
          obtain ⟨logged, same⟩ := step_log (r := reached c past) message n
          rw [note, kept, same]
      | disable n => exact kept.symm

theorem length_scopes_reached (past : List Step) :
    (reached c past).scopes.length = (openEntries past).length := by
  have same := congrArg List.length (scopes_reached c past)
  rwa [List.length_map, List.length_map] at same

/-- An open scope stands among the scopes where the history says. -/
theorem exists_scopes_of_split {front back : List Entry} {e : Entry}
    (split : openEntries past = front ++ e :: back) :
    ∃ outer s inner, (reached c past).scopes = outer ++ s :: inner ∧
      outer.length = front.length ∧ inner.length = back.length ∧
      s.emptied = e.scope c past := by
  have same := scopes_reached c past
  rw [split, List.map_append] at same
  obtain ⟨outer, rest, whole, outside, inside⟩ := List.map_eq_append_iff.mp same
  obtain ⟨s, inner, rfl, single, within⟩ := List.map_eq_cons_iff.mp inside
  refine ⟨outer, s, inner, whole, ?_, ?_, single⟩
  · simpa using congrArg List.length outside
  · simpa using congrArg List.length within

theorem leave_reached {entries : List Entry} {e : Entry} (split : openEntries past = entries ++ [e]) :
    ∃ scopes s, (reached c past).scopes = scopes ++ [s] ∧ s.emptied = e.scope c past ∧
      reached c (past ++ [.leave]) = { reached c past with
        scopes, level := s.savedLevel, filters := s.savedFilters
        version := (reached c past).version + 1, sink := s.savedSink
        closed := (reached c past).closed ++ [s.captured] } := by
  obtain ⟨scopes, s, inner, whole, -, none, same⟩ := exists_scopes_of_split c split
  obtain rfl := List.length_eq_zero_iff.mp none
  exact ⟨scopes, s, whole, same, (reached_concat c past _).trans (leave_of_concat whole)⟩

theorem leave_reached_of_nil (empty : openEntries past = []) :
    reached c (past ++ [.leave]) = reached c past := by
  have none : (reached c past).scopes = [] := by
    rw [← List.length_eq_zero_iff, length_scopes_reached, empty, List.length_nil]
  exact (reached_concat c past _).trans (leave_of_nil none)

end Scopes

section Sink

/-- A number of a scope, or none, tells the innermost of some scopes to suppress. -/
def IsInnermost (entries : List Entry) : Option Nat → Prop
  | none => ∀ e ∈ entries, e.suppress = false
  | some k => ∃ front e back, entries = front ++ e :: back ∧ front.length = k ∧
      e.suppress = true ∧ ∀ e' ∈ back, e'.suppress = false

theorem IsInnermost.concat {entries : List Entry} {sink : Option Nat}
    (innermost : IsInnermost entries sink) (e : Entry) :
    IsInnermost (entries ++ [e]) (if e.suppress then some entries.length else sink) := by
  cases suppresses : e.suppress with
  | true => exact ⟨entries, e, [], rfl, rfl, suppresses, nofun⟩
  | false =>
      cases sink with
      | none => exact List.forall_mem_append.mpr ⟨innermost, List.forall_mem_singleton.mpr suppresses⟩
      | some k =>
          obtain ⟨front, e', back, rfl, place, inner, rest⟩ := innermost
          exact ⟨front, e', back ++ [e], by simp, place, inner,
            List.forall_mem_append.mpr ⟨rest, List.forall_mem_singleton.mpr suppresses⟩⟩

variable (c : Caller) {past : List Step}

/-- Warnings go to the innermost open scope that suppresses. -/
theorem isInnermost_sink (past : List Step) :
    IsInnermost (openEntries past) (reached c past).sink := by
  induction past using history_induction with
  | start => exact fun e mem => absurd mem List.not_mem_nil
  | leave past entries e _ split earlier =>
      obtain ⟨scopes, s, -, same, left⟩ := leave_reached c split
      have saved : s.savedSink = (reached c (past.take e.position)).sink :=
        congrArg OpenScope.savedSink same
      rw [openEntries_take split] at earlier
      rwa [openEntries_concat, note, split, List.dropLast_concat, left, saved]
  | step past s before idle =>
      rw [openEntries_concat]
      cases s with
      | enter suppress =>
          rw [reached_concat]
          have inner := before.concat ⟨past.length, suppress⟩
          rw [← length_scopes_reached c] at inner
          cases suppress <;> exact inner
      | leave =>
          have empty := idle rfl
          rw [empty] at before
          rwa [note, empty, leave_reached_of_nil c empty]
      | warn message =>
          obtain ⟨_, _, _, _, same, -⟩ := warn_cases (reached c past) message
          rw [reached_concat, note, step, same]
          exact before
      | log message n =>
          obtain ⟨logged, same⟩ := step_log (r := reached c past) message n
          rwa [reached_concat, note, same]
      | disable n =>
          rw [reached_concat]
          exact before

theorem collector_eq_none (outside : (reached c past).sink = none) :
    collector? past = none := by
  have innermost := isInnermost_sink c past
  rw [outside] at innermost
  have absent : (openEntries past).filter (·.suppress) = [] := by
    rw [List.filter_eq_nil_iff]
    intro e mem
    rw [innermost e mem]
    exact Bool.false_ne_true
  rw [collector?, absent]
  rfl

/-- The scope that warnings go to, among the open ones. -/
theorem exists_collector {k : Nat} (inside : (reached c past).sink = some k) :
    ∃ front e back, openEntries past = front ++ e :: back ∧ front.length = k ∧
      collector? past = some e.position := by
  have innermost := isInnermost_sink c past
  rw [inside] at innermost
  obtain ⟨front, e, back, split, place, suppresses, rest⟩ := innermost
  refine ⟨front, e, back, split, place, ?_⟩
  have later : back.filter (·.suppress) = [] := by
    rw [List.filter_eq_nil_iff]
    intro e' mem
    rw [rest e' mem]
    exact Bool.false_ne_true
  rw [collector?, split, List.filter_append, List.filter_cons_of_pos suppresses, later,
    List.getLast?_concat]
  rfl

end Sink

section Filters

/-- The filters in force are those of the caller, or let every warning pass where a scope collects, and
then no warning has been noted that would not pass again. -/
structure FitsSink (c : Caller) (r : Reporting) : Prop where
  bounded : r.passedVersion ≤ r.version
  outside : r.sink = none → r.filters = c.filters
  inside : r.sink ≠ none → r.filters.head? = some openFilter
  fresh : r.sink ≠ none → r.passedVersion = r.version → r.passed = []

variable {c : Caller} {r : Reporting}

theorem FitsSink.enter (fits : FitsSink c r) (suppress : Bool) :
    FitsSink c (r.enter suppress) := by
  have bounded := fits.bounded
  cases suppress with
  | false =>
      refine ⟨Nat.le_succ_of_le bounded, fits.outside, fits.inside, fun _ same => ?_⟩
      exact absurd same (Nat.ne_of_lt (Nat.lt_succ_of_le bounded))
  | true =>
      refine ⟨Nat.le_add_right_of_le bounded, nofun, fun _ => rfl, fun _ same => ?_⟩
      exact absurd same (Nat.ne_of_lt (Nat.lt_add_right 1 (Nat.lt_succ_of_le bounded)))

theorem FitsSink.warn (fits : FitsSink c r) (message : Text) : FitsSink c (r.warn message) := by
  by_cases outside : r.sink = none
  · obtain ⟨_, _, _, same, -⟩ := warn_of_outside message outside
    rw [same]
    exact ⟨Nat.le_refl _, fits.outside, fits.inside, fun inside => absurd outside inside⟩
  · obtain ⟨_, _, same, -⟩ :=
      deliver_cases { r with passed := [], passedVersion := r.version } message
    rw [warn_of_open message (fits.inside outside) (fits.fresh outside), same]
    exact ⟨Nat.le_refl _, fits.outside, fits.inside, fun _ _ => rfl⟩

theorem fitsSink_reached (c : Caller) (past : List Step) : FitsSink c (reached c past) := by
  induction past using history_induction with
  | start => exact ⟨Nat.le_refl _, fun _ => rfl, fun h => absurd rfl h, fun h => absurd rfl h⟩
  | leave past entries e now split earlier =>
      obtain ⟨scopes, s, -, same, left⟩ := leave_reached c split
      have sink : s.savedSink = (reached c (past.take e.position)).sink :=
        congrArg OpenScope.savedSink same
      have filters : s.savedFilters = (reached c (past.take e.position)).filters :=
        congrArg OpenScope.savedFilters same
      have later : (reached c past).passedVersion < (reached c past).version + 1 :=
        Nat.lt_succ_of_le now.bounded
      rw [left]
      refine ⟨Nat.le_of_lt later, ?_, ?_, fun _ same => absurd same (Nat.ne_of_lt later)⟩
      · rw [sink, filters]
        exact earlier.outside
      · rw [sink, filters]
        exact earlier.inside
  | step past s before idle =>
      cases s with
      | enter suppress =>
          rw [reached_concat]
          exact before.enter suppress
      | leave =>
          rw [leave_reached_of_nil c (idle rfl)]
          exact before
      | warn message =>
          rw [reached_concat]
          exact before.warn message
      | log message n =>
          obtain ⟨logged, same⟩ := step_log (r := reached c past) message n
          rw [reached_concat, same]
          exact ⟨before.bounded, before.outside, before.inside, before.fresh⟩
      | disable n =>
          rw [reached_concat]
          exact ⟨before.bounded, before.outside, before.inside, before.fresh⟩

end Filters

section Warnings

variable (c : Caller) {past : List Step}

/-- What a warning does: it is left to the filters of the caller, or collected by the scope that it is
due. -/
theorem warn_reached (past : List Step) (message : Text) :
    (collector? past = none ∧ (reached c past).sink = none ∧
      ∃ passed shown raised, reached c (past ++ [.warn message]) = { reached c past with
        passed, passedVersion := (reached c past).version, shown, raised } ∧
      (shown = (reached c past).shown ∨ shown = (reached c past).shown ++ [message])) ∨
      ∃ front e back outer s inner, openEntries past = front ++ e :: back ∧
        (reached c past).scopes = outer ++ s :: inner ∧ outer.length = front.length ∧
        collector? past = some e.position ∧
        reached c (past ++ [.warn message]) = { reached c past with
          passed := [], passedVersion := (reached c past).version
          scopes := outer ++ { s with captured := s.captured ++ [message] } :: inner } := by
  have next : reached c (past ++ [.warn message]) = (reached c past).warn message :=
    after_concat _ past _
  rw [next]
  cases place : (reached c past).sink with
  | none => exact .inl ⟨collector_eq_none c place, rfl, warn_of_outside message place⟩
  | some k =>
      obtain ⟨front, e, back, split, rfl, collects⟩ := exists_collector c place
      obtain ⟨outer, s, inner, whole, same, -⟩ := exists_scopes_of_split c split
      rw [← same] at place
      have fits := fitsSink_reached c past
      have inside : (reached c past).sink ≠ none := by rw [place]; exact nofun
      refine .inr ⟨front, e, back, outer, s, inner, split, whole, same, collects, ?_⟩
      rw [warn_of_open message (fits.inside inside) (fits.fresh inside)]
      exact deliver_of_some message place whole

/-- No warning is one of those that pass only once. -/
def Caller.NeverOnce (c : Caller) : Prop :=
  ∀ message, actionOn c.filters message ≠ .once

/-- Every list of warnings is the one that the history says is due. Those outside are left to the
filters of the caller. -/
structure Delivers (past : List Step) : Prop where
  shown_sublist : (reached c past).shown.Sublist (due none past)
  captured : (reached c past).scopes.map (·.captured)
    = (openEntries past).map fun e => due (some e.position) past
  closed : (reached c past).closed
    = (closedEntries past).map fun e => due (some e.position) past

theorem Delivers.of_step {s : Step} (d : Delivers c past)
    (silent : ∀ message, s ≠ .warn message) (inside : s ≠ .leave)
    (shown : (reached c (past ++ [s])).shown = (reached c past).shown)
    (closed : (reached c (past ++ [s])).closed = (reached c past).closed)
    (captured : (reached c (past ++ [s])).scopes.map (·.captured)
      = (openEntries (past ++ [s])).map fun e => due (some e.position) past) :
    Delivers c (past ++ [s]) := by
  have same (place : Option Nat) : due place (past ++ [s]) = due place past :=
    due_concat_of_ne_warn place silent
  constructor
  · rw [same, shown]
    exact d.shown_sublist
  · simp only [same, captured]
  · simp only [same, closed, d.closed, closedEntries_concat_of_ne_leave inside]

theorem Delivers.leave (d : Delivers c past) : Delivers c (past ++ [.leave]) := by
  have same (place : Option Nat) : due place (past ++ [.leave]) = due place past :=
    due_concat_of_ne_warn place nofun
  obtain empty | ⟨entries, e, split⟩ := (openEntries past).eq_nil_or_concat'
  · have still : openEntries (past ++ [.leave]) = openEntries past := by
      rw [openEntries_concat, note, empty]
      rfl
    constructor
    · rw [leave_reached_of_nil c empty, same]
      exact d.shown_sublist
    · simp only [leave_reached_of_nil c empty, same, d.captured, still]
    · simp only [leave_reached_of_nil c empty, same, d.closed, closedEntries_concat_leave,
        empty, List.getLast?_nil, Option.toList_none, List.append_nil]
  · obtain ⟨scopes, s, whole, -, left⟩ := leave_reached c split
    have captured := d.captured
    rw [whole, split, List.map_append, List.map_append] at captured
    obtain ⟨outer, last⟩ := List.append_inj' captured rfl
    constructor
    · rw [left, same]
      exact d.shown_sublist
    · simp only [left, same, outer, openEntries_concat, note, split, List.dropLast_concat]
    · simp only [left, same, d.closed, closedEntries_concat_leave, split, List.getLast?_concat,
        Option.toList_some, List.map_append, ← last]
      rfl

theorem Delivers.warn (d : Delivers c past) (message : Text) :
    Delivers c (past ++ [.warn message]) := by
  have left : closedEntries (past ++ [.warn message]) = closedEntries past :=
    closedEntries_concat_of_ne_leave nofun
  have stay : openEntries (past ++ [.warn message]) = openEntries past := openEntries_concat
  obtain ⟨outside, -, _, _, _, next, shown⟩ |
      ⟨front, e, back, outer, s, inner, split, whole, count, collects, next⟩ :=
    warn_reached c past message
  · have same (k : Nat) : due (some k) (past ++ [.warn message]) = due (some k) past :=
      due_concat_warn_of_ne (by rw [outside]; exact nofun) message
    constructor
    · rw [next, due_concat_warn_self outside]
      obtain rfl | rfl := shown
      · exact d.shown_sublist.trans (List.sublist_append_left _ _)
      · exact d.shown_sublist.append_right [message]
    · simp only [next, same, stay, d.captured]
    · simp only [next, same, left, d.closed]
  · have same (e' : Entry) (apart : e'.position ≠ e.position) :
        due (some e'.position) (past ++ [.warn message]) = due (some e'.position) past :=
      due_concat_warn_of_ne (by rw [collects]; exact fun h => apart (Option.some.inj h).symm) message
    obtain ⟨notClosed, notFront, notBack⟩ := position_ne split
    have captured := d.captured
    rw [whole, split, List.map_append, List.map_append] at captured
    obtain ⟨outside, inside⟩ := List.append_inj captured (by simpa using count)
    obtain ⟨here, within⟩ : s.captured = due (some e.position) past ∧ _ := List.cons.inj inside
    constructor
    · rw [next, due_concat_warn_of_ne (by rw [collects]; exact nofun)]
      exact d.shown_sublist
    · rw [next, stay, split, List.map_append, List.map_append, List.map_cons, List.map_cons,
        List.map_congr_left fun e' mem => same e' (notFront e' mem),
        List.map_congr_left fun e' mem => same e' (notBack e' mem), due_concat_warn_self collects,
        outside, here, within]
    · rw [next, left, List.map_congr_left fun e' mem => same e' (notClosed e' mem), d.closed]

theorem delivers (past : List Step) : Delivers c past := by
  induction past using List.reverseRecOn with
  | nil => exact ⟨List.Sublist.refl _, rfl, rfl⟩
  | append_singleton past s ih =>
      cases s with
      | enter suppress =>
          obtain ⟨_, _, _, _, same⟩ := enter_cases (reached c past) suppress
          refine ih.of_step c (by simp) (by simp) ?_ ?_ ?_
          · rw [reached_concat, step, same]
          · rw [reached_concat, step, same]
          · rw [reached_concat, openEntries_concat, note, List.map_append, List.map_singleton,
              due_of_length_le (Nat.le_refl _), step, same, List.map_append, ih.captured,
              List.map_singleton]
      | leave => exact ih.leave c
      | warn message => exact ih.warn c message
      | log message n =>
          obtain ⟨logged, same⟩ := step_log (r := reached c past) message n
          refine ih.of_step c (by simp) (by simp) ?_ ?_ ?_
          · rw [reached_concat, same]
          · rw [reached_concat, same]
          · rw [reached_concat, same, openEntries_concat, note, ih.captured]
      | disable n =>
          refine ih.of_step c (by simp) (by simp) ?_ ?_ ?_
          · rw [reached_concat]; rfl
          · rw [reached_concat]; rfl
          · rw [reached_concat, openEntries_concat, note]; exact ih.captured

/-- Where no warning passes only once, those outside are dealt with as the filters of the caller
say. -/
theorem shown_reached {c : Caller} (never : c.NeverOnce) (past : List Step) :
    (reached c past).passed = [] ∧
      (reached c past).shown = (due none past).filter (actionOn c.filters · = .always) ∧
      (reached c past).raised = (due none past).filter (actionOn c.filters · = .error) := by
  induction past using List.reverseRecOn with
  | nil => exact ⟨rfl, rfl, rfl⟩
  | append_singleton past s ih =>
      cases s with
      | enter suppress =>
          have silent : ∀ message, Step.enter suppress ≠ .warn message := nofun
          obtain ⟨_, _, _, _, same⟩ := enter_cases (reached c past) suppress
          rw [due_concat_of_ne_warn _ silent, reached_concat, step, same]
          exact ih
      | leave =>
          have silent : ∀ message, Step.leave ≠ .warn message := nofun
          rw [due_concat_of_ne_warn _ silent]
          obtain empty | ⟨entries, e, split⟩ := (openEntries past).eq_nil_or_concat'
          · rwa [leave_reached_of_nil c empty]
          · obtain ⟨scopes, s, -, -, left⟩ := leave_reached c split
            rw [left]
            exact ih
      | warn message =>
          obtain ⟨none, shown, raised⟩ := ih
          obtain ⟨outside, place, -⟩ | ⟨_, e, _, _, _, _, -, -, -, collects, next⟩ :=
            warn_reached c past message
          · have filters := (fitsSink_reached c past).outside place
            have other : actionOn (reached c past).filters message ≠ .once := by
              rw [filters]
              exact never message
            rw [due_concat_warn_self outside, List.filter_append, List.filter_append,
              reached_concat, step, warn_of_not_once message place none other, filters, shown, raised]
            exact ⟨none, rfl, rfl⟩
          · rw [due_concat_warn_of_ne (by rw [collects]; exact nofun), next]
            exact ⟨rfl, shown, raised⟩
      | log message n =>
          have silent : ∀ other, Step.log message n ≠ .warn other := nofun
          obtain ⟨logged, same⟩ := step_log (r := reached c past) message n
          rw [due_concat_of_ne_warn _ silent, reached_concat, same]
          exact ih
      | disable n =>
          have silent : ∀ message, Step.disable n ≠ .warn message := nofun
          rw [due_concat_of_ne_warn _ silent, reached_concat]
          exact ih

/-- Every warning is due outside or is collected, and no one twice. -/
theorem collected_perm (past : List Step) :
    (due none past ++ collected (reached c past)).Perm (issued past) := by
  induction past using List.reverseRecOn with
  | nil => exact List.Perm.nil
  | append_singleton past s ih =>
      cases s with
      | enter suppress =>
          have silent : ∀ message, Step.enter suppress ≠ .warn message := nofun
          obtain ⟨_, _, _, _, same⟩ := enter_cases (reached c past) suppress
          rw [issued_concat_of_ne_warn silent, due_concat_of_ne_warn _ silent, reached_concat, step,
            same]
          simpa [collected] using ih
      | leave =>
          have silent : ∀ message, Step.leave ≠ .warn message := nofun
          rw [issued_concat_of_ne_warn silent, due_concat_of_ne_warn _ silent]
          refine List.Perm.trans ?_ ih
          obtain empty | ⟨entries, e, split⟩ := (openEntries past).eq_nil_or_concat'
          · rw [leave_reached_of_nil c empty]
          · obtain ⟨scopes, s, whole, -, left⟩ := leave_reached c split
            rw [left, collected, collected, whole, List.perm_iff_count]
            intro a
            simp only [List.count_append, List.flatten_append, List.flatMap_append,
              List.flatten_singleton, List.flatMap_singleton]
            omega
      | warn message =>
          rw [issued_concat_warn]
          refine List.Perm.trans ?_ (ih.append_right [message])
          obtain ⟨outside, -, _, _, _, next, -⟩ |
              ⟨_, e, _, outer, s, inner, -, whole, -, collects, next⟩ :=
            warn_reached c past message
          · rw [due_concat_warn_self outside, next, collected, collected, List.perm_iff_count]
            intro a
            simp only [List.count_append]
            omega
          · rw [due_concat_warn_of_ne (by rw [collects]; exact nofun), next, collected, collected,
              whole, List.perm_iff_count]
            intro a
            simp only [List.count_append, List.flatMap_append, List.flatMap_cons]
            omega
      | log message n =>
          have silent : ∀ other, Step.log message n ≠ .warn other := nofun
          obtain ⟨logged, same⟩ := step_log (r := reached c past) message n
          rw [issued_concat_of_ne_warn silent, due_concat_of_ne_warn _ silent, reached_concat, same]
          exact ih
      | disable n =>
          have silent : ∀ message, Step.disable n ≠ .warn message := nofun
          rw [issued_concat_of_ne_warn silent, due_concat_of_ne_warn _ silent, reached_concat]
          exact ih

end Warnings

/-- How reporting stands after some steps from a state in which no scope is open. -/
structure KeepsAccount (c : Caller) (past : List Step) : Prop where
  /-- Leaving brings back what was there just before the innermost scope was entered. -/
  restored : ∀ e, (openEntries past).getLast? = some e →
    let left := reached c (past ++ [.leave])
    let before := reached c (past.take e.position)
    left.level = before.level ∧ left.filters = before.filters ∧ left.sink = before.sink ∧
      left.scopes.map OpenScope.emptied = before.scopes.map OpenScope.emptied
  idle : openEntries past = [] → reached c (past ++ [.leave]) = reached c past
  delivers : Delivers c past
  /-- No warning is lost, and none is due in two places. -/
  collected : (due none past ++ collected (reached c past)).Perm (issued past)
  /-- The filters of the caller decide on the warnings outside. -/
  outside : c.NeverOnce →
    (reached c past).shown = (due none past).filter (actionOn c.filters · = .always) ∧
      (reached c past).raised = (due none past).filter (actionOn c.filters · = .error)
  /-- If these let every warning pass, each is recorded once. -/
  recorded : (∀ message, actionOn c.filters message = .always) →
    (reached c past).shown = due none past ∧ (recorded (reached c past)).Perm (issued past)

end Reporting
end PhpGate
