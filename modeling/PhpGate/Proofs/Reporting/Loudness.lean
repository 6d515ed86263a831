import PhpGate.Proofs.Reporting.Account

/-!
Which log records are hidden. A scope that suppresses sets the level to the critical one, also where
a higher level was set before, so inside it the records between the two levels are logged again.
-/

namespace PhpGate.Reporting

/-- A record of this level leaves no trace. -/
def Hides (r : Reporting) (n : Int) : Prop :=
  ∀ message, r.step (.log message n) = r

/-- Whatever is hidden before a scope that suppresses is entered is hidden in it too. -/
def StaysQuiet (r : Reporting) : Prop :=
  ∀ n, r.Hides n → (r.step (.enter true)).Hides n

/-- No level that is in force, or that an open scope goes back to, is above the critical one. -/
def AtMostCritical (r : Reporting) : Prop :=
  r.level ≤ criticalLevel ∧ ∀ s ∈ r.scopes, s.savedLevel ≤ criticalLevel

section

variable {r : Reporting}

theorem hides_iff {n : Int} : r.Hides n ↔ n ≤ r.level ∨ n < r.threshold := by
  constructor
  · intro hidden
    by_contra shown
    rw [not_or, Int.not_le, Int.not_lt] at shown
    have same := congrArg (fun r => r.logged.length) (hidden [])
    rw [step, if_pos shown] at same
    simp at same
  · intro low message
    rw [step, if_neg]
    rintro ⟨above, least⟩
    omega

/-- The records that a scope which suppresses lets through. -/
theorem shown_again_iff {n : Int} : (r.Hides n ∧ ¬ (r.step (.enter true)).Hides n) ↔
    criticalLevel < n ∧ n ≤ r.level ∧ r.threshold ≤ n := by
  have level : (r.step (.enter true)).level = criticalLevel := rfl
  have threshold : (r.step (.enter true)).threshold = r.threshold := rfl
  rw [hides_iff, hides_iff, level, threshold]
  omega

/-- A level below the one of the logger itself hides nothing more. -/
theorem staysQuiet_iff : r.StaysQuiet ↔ r.level ≤ criticalLevel ∨ r.level < r.threshold := by
  constructor
  · intro quiet
    by_contra loud
    rw [not_or, Int.not_le, Int.not_lt] at loud
    have again := shown_again_iff.mpr ⟨loud.1, Int.le_refl r.level, loud.2⟩
    exact again.2 (quiet r.level again.1)
  · intro low n hidden
    by_contra again
    have between := shown_again_iff.mp ⟨hidden, again⟩
    omega

/-- One step keeps every level low, unless it sets a higher one. -/
theorem AtMostCritical.step (bounded : r.AtMostCritical) {s : Step}
    (set : ∀ n, s = .disable n → n ≤ criticalLevel) : (r.step s).AtMostCritical := by
  obtain ⟨level, saved⟩ := bounded
  cases s with
  | enter suppress =>
      have saved := List.forall_mem_append.mpr ⟨saved, List.forall_mem_singleton
        (a := ⟨suppress, r.level, r.filters, r.sink, []⟩).mpr level⟩
      cases suppress with
      | true => exact ⟨Int.le_refl _, saved⟩
      | false => exact ⟨level, saved⟩
  | leave =>
      obtain none | ⟨scopes, s, split⟩ := r.scopes.eq_nil_or_concat'
      · rw [Reporting.step, leave_of_nil none]
        exact ⟨level, saved⟩
      · rw [split, List.forall_mem_append, List.forall_mem_singleton] at saved
        rw [Reporting.step, leave_of_concat split]
        exact ⟨saved.2, saved.1⟩
  | warn message =>
      obtain ⟨_, _, _, scopes, same, emptied⟩ := warn_cases r message
      rw [Reporting.step, same]
      refine ⟨level, fun s mem => ?_⟩
      have same := List.mem_map_of_mem (f := OpenScope.emptied) mem
      rw [emptied, List.mem_map] at same
      obtain ⟨s', mem', same⟩ := same
      have savedLevel := congrArg OpenScope.savedLevel same
      change s'.savedLevel = s.savedLevel at savedLevel
      rw [← savedLevel]
      exact saved s' mem'
  | log message n =>
      obtain ⟨logged, same⟩ := step_log (r := r) message n
      rw [same]
      exact ⟨level, saved⟩
  | disable n => exact ⟨set n rfl, saved⟩

end

/-- Every level stays low in a run that never sets a higher one. -/
theorem atMostCritical_reached {c : Caller} {past : List Step} (start : c.level ≤ criticalLevel)
    (set : ∀ n, .disable n ∈ past → n ≤ criticalLevel) : (reached c past).AtMostCritical := by
  induction past using List.reverseRecOn with
  | nil => exact ⟨start, nofun⟩
  | append_singleton past s ih =>
      rw [reached_concat]
      have before := ih fun n mem => set n (List.mem_append_left _ mem)
      exact before.step fun n same => set n (by simp [same])

/-- A scope that suppresses hides what was hidden before just where the level in force is not above
the critical one, or is below that of the logger. That is so throughout a run that never sets a higher
level. -/
theorem staysQuiet_reached (c : Caller) (past : List Step) :
    ((reached c past).StaysQuiet ↔ (reached c past).level ≤ criticalLevel ∨
        (reached c past).level < (reached c past).threshold) ∧
      (∀ n, (reached c past).Hides n ∧ ¬ ((reached c past).step (.enter true)).Hides n ↔
        criticalLevel < n ∧ n ≤ (reached c past).level ∧ (reached c past).threshold ≤ n) ∧
      (c.level ≤ criticalLevel ∧ (∀ n, .disable n ∈ past → n ≤ criticalLevel) →
        ∀ first rest, past = first ++ rest → (reached c first).StaysQuiet) := by
  refine ⟨staysQuiet_iff, fun n => shown_again_iff, ?_⟩
  rintro ⟨start, set⟩ first rest rfl
  exact staysQuiet_iff.mpr
    (.inl (atMostCritical_reached start fun n mem => set n (List.mem_append_left _ mem)).1)

/-- A level above the critical one is lowered by a scope that is meant to hold records back. -/
theorem not_staysQuiet_disable : ¬ (reached { threshold := 1 } [.disable 60]).StaysQuiet := by
  intro quiet
  have low : (60 : Int) ≤ criticalLevel ∨ (60 : Int) < 1 := staysQuiet_iff.mp quiet
  exact absurd low (by decide)

end PhpGate.Reporting
