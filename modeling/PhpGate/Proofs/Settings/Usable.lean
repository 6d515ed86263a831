import PhpGate.Proofs.Number.NotANumber
import PhpGate.Proofs.Settings.Layers

/-!
What accepted settings can be relied on for. The programs have names and the timeout is not zero or
less, whatever the sources say. That the timeout is greater than zero needs more: a timeout that is
not a number is not refused, so it takes the place of one if the highest layer gives it.
-/

namespace PhpGate

open Text

/-- A value that is read as what is not a number. -/
def Value.readsNan : Value → Bool
  | .float x => x = .nan
  | .text t => Binary64.spellsNan t
  | .bytes b => b.all (·.toNat < 0x80) && Binary64.spellsNan (b.map fun x => Char.ofNat x.toNat)
  | _ => false

namespace Settings

variable {s t : Settings} {source : Text} {setting : Setting} {v : Value} {x : Binary64}
  {entries : List (Value × Value)} {nestingLimit : Nat} {files : Store} {env : Environment}
  {o : Overrides}

theorem readFloat_eq_nan_iff : readFloat v = .ok .nan ↔ v.readsNan = true := by
  have read (t : Text) : readFloat (.text t) = .ok .nan ↔ Binary64.spellsNan t = true := by
    rw [← Binary64.read_eq_nan_iff]
    simp only [readFloat]
    cases Binary64.read? t <;> simp
  cases v with
  | bool b => exact iff_of_false (fun h => Binary64.ofInt_ne_nan _ (Except.ok.inj h)) (by rintro ⟨⟩)
  | int n =>
      refine iff_of_false ?_ (by rintro ⟨⟩)
      rw [readFloat]
      split
      · rintro ⟨⟩
      · exact fun h => Binary64.ofInt_ne_nan n (Except.ok.inj h)
  | float x => simp [readFloat, Value.readsNan]
  | text t => exact read t
  | bytes b =>
      simp only [readFloat, Value.readsNan, Bool.and_eq_true]
      split
      · exact (read _).trans (and_iff_right ‹_›).symm
      · exact iff_of_false (by rintro ⟨⟩) fun h => absurd h.1 ‹_›
  | _ => exact iff_of_false (by rintro ⟨⟩) (by rintro ⟨⟩)

theorem contentOf_timeout_iff : contentOf v .timeout = .ok x ↔
    readFloat v = .ok x ∧ x.isNonPositive = false := by
  rw [contentOf]
  cases readFloat v with
  | error e => cases e <;> exact iff_of_false (by rintro ⟨⟩) (by rintro ⟨⟨⟩, -⟩)
  | ok y =>
      dsimp only
      cases sign : y.isNonPositive with
      | true =>
          refine iff_of_false (by rintro ⟨⟩) ?_
          rintro ⟨⟨⟩, positive⟩
          rw [sign] at positive
          cases positive
      | false =>
          constructor
          · rintro ⟨⟩
            exact ⟨rfl, sign⟩
          · rintro ⟨⟨⟩, -⟩
            rfl

/-- An accepted timeout is positive, unless what it was read from is not a number. -/
theorem isPositive_of_contentOf (accepted : contentOf v .timeout = .ok x) :
    x.isPositive = true ↔ v.readsNan = false := by
  obtain ⟨read, sign⟩ := contentOf_timeout_iff.mp accepted
  rw [Binary64.isPositive_iff, and_iff_right sign, ← Bool.not_eq_true, ← readFloat_eq_nan_iff, read,
    Except.ok.injEq]

theorem ne_nil_of_contentOf {t : Text} (accepted : contentOf v .knownProgram = .ok t) : t ≠ [] := by
  rw [contentOf] at accepted
  split at accepted
  · cases accepted
    exact List.cons_ne_nil _ _
  · cases accepted

theorem ne_some_nil_of_contentOf {p : Option Text} (accepted : contentOf v .program = .ok p) :
    p ≠ some [] := by
  simp only [contentOf] at accepted
  split at accepted
  · cases accepted
    rintro ⟨⟩
  · cases accepted
    rintro ⟨⟩
  · cases accepted

section

variable (setting) {P : setting.Content → Prop} (every : ∀ v x, contentOf v setting = .ok x → P x)
include every

theorem cover_induction {below x : setting.Content} {value : Option Value} (base : P below)
    (covered : cover below value = .ok x) : P x := by
  cases value with
  | none => exact Except.ok.inj covered ▸ base
  | some v => exact every v x covered

/-- What holds of every content that is read from a value holds of a setting, if it does below all
layers and of options. -/
theorem top_induction {l : Layers setting} {x : setting.Content}
    (base : P (({} : Settings).get setting)) (options : ∀ y, l.option = some y → P y)
    (top : l.top = .ok x) : P x := by
  match l with
  | ⟨some y, _, _⟩ => exact Except.ok.inj top ▸ options y rfl
  | ⟨none, some t, _⟩ => exact every _ x top
  | ⟨none, none, some v⟩ => exact every v x top
  | ⟨none, none, none⟩ => exact Except.ok.inj top ▸ base

end

/-- Programs that are given have a name. -/
structure NamesPrograms (s : Settings) : Prop where
  known : s.knownProgram ≠ []
  chosen : s.program ≠ some []

theorem NamesPrograms.apply (named : s.NamesPrograms) (accepted : s.apply source entries = .ok t) :
    t.NamesPrograms where
  known := cover_induction .knownProgram (fun _ _ => ne_nil_of_contentOf) named.known
    (setAll_get _ (apply_eq_ok_iff.mp accepted).2)
  chosen := cover_induction .program (fun _ _ => ne_some_nil_of_contentOf) named.chosen
    (setAll_get _ (apply_eq_ok_iff.mp accepted).2)

theorem namesPrograms_resolve (accepted : resolve nestingLimit files env o = .ok s) :
    s.NamesPrograms := by
  obtain ⟨entries, -, top⟩ := top_of_resolve accepted
  constructor
  · refine top_induction .knownProgram (fun _ _ => ne_nil_of_contentOf) (by decide) ?_
      (top .knownProgram)
    rintro _ ⟨⟩
  · refine top_induction .program (fun _ _ => ne_some_nil_of_contentOf) (by decide) ?_
      (top .program)
    rintro _ ⟨⟩

/-- The highest layer that gives the timeout gives what is not a number. -/
def Layers.givesNan : Layers .timeout → Bool
  | ⟨some x, _, _⟩ => x = .nan
  | ⟨none, some t, _⟩ => Binary64.spellsNan t
  | ⟨none, none, some v⟩ => v.readsNan
  | ⟨none, none, none⟩ => false

theorem Layers.isPositive_of_top {l : Layers .timeout} (top : l.top = .ok x)
    (options : ∀ y, l.option = some y → y.isNonPositive = false) :
    x.isPositive = true ↔ l.givesNan = false := by
  match l with
  | ⟨some y, _, _⟩ =>
      rw [← Except.ok.inj top, Binary64.isPositive_iff, and_iff_right (options y rfl)]
      simp [givesNan]
  | ⟨none, some t, _⟩ => exact isPositive_of_contentOf top
  | ⟨none, none, some v⟩ => exact isPositive_of_contentOf top
  | ⟨none, none, none⟩ =>
      cases top
      exact iff_of_true rfl rfl

/-- An option is refused as well if it is zero or less. -/
theorem isNonPositive_of_resolve (accepted : resolve nestingLimit files env o = .ok s)
    (given : option? o .timeout = some x) : x.isNonPositive = false := by
  obtain ⟨-, -, ⟨unset, -⟩ | ⟨y, seconds, sign, -⟩⟩ := resolve_cases accepted
  · rw [option?, unset] at given
    cases given
  · rw [option?, seconds] at given
    cases given
    exact sign

/-- Settings that a check can be run with. -/
structure IsUsable (s : Settings) : Prop extends NamesPrograms s where
  timeout : s.timeout.isPositive = true

theorem isUsable_iff (named : s.NamesPrograms) : s.IsUsable ↔ s.timeout.isPositive = true :=
  ⟨IsUsable.timeout, fun timeout => ⟨named, timeout⟩⟩

/-- The settings that all sources give together are usable, and usable settings stay so when values
are set, unless the timeout that counts is not a number. -/
theorem isUsable_iff_not_nan (nestingLimit : Nat) (files : Store) (env : Environment)
    (o : Overrides) :
    (∀ s, resolve nestingLimit files env o = .ok s → s.NamesPrograms ∧
      ∃ entries, fileEntries nestingLimit files o.configPath env = .ok entries ∧
        (s.IsUsable ↔ (Layers.of o env entries .timeout).givesNan = false)) ∧
    (∀ path, resolve nestingLimit files env { configPath := path }
      = load nestingLimit files path env) ∧
    ∀ (s t : Settings) (source : Text) (entries : List (Value × Value)), s.IsUsable →
      s.apply source entries = .ok t → t.NamesPrograms ∧
        (t.IsUsable ↔ (valueOf? entries .timeout).any Value.readsNan = false) := by
  refine ⟨?_, fun path => resolve_configPath nestingLimit files path env, ?_⟩
  · intro s accepted
    have named := namesPrograms_resolve accepted
    obtain ⟨entries, read, top⟩ := top_of_resolve accepted
    refine ⟨named, entries, read, (isUsable_iff named).trans ?_⟩
    exact Layers.isPositive_of_top (top .timeout) fun _ => isNonPositive_of_resolve accepted
  · intro s t source entries usable accepted
    have named := usable.toNamesPrograms.apply accepted
    refine ⟨named, (isUsable_iff named).trans ?_⟩
    have layer := setAll_get .timeout (apply_eq_ok_iff.mp accepted).2
    cases value : valueOf? entries .timeout with
    | none =>
        rw [value] at layer
        have same : s.timeout = t.timeout := Except.ok.inj layer
        exact iff_of_true (same ▸ usable.timeout) rfl
    | some v =>
        rw [value] at layer
        exact isPositive_of_contentOf layer

/-- The variables of an environment that gives the timeout and nothing else. -/
def timeoutVariable (t : String) : Environment :=
  [("PHPCHECK_TIMEOUT_SECONDS".toList, t.toList)]

theorem isUsable_iff_not_nan_number :
    (∃ s, resolve 100 { nodes := [] } (timeoutVariable "2") {} = .ok s ∧ s.IsUsable) ∧
    ∃ t, ({} : Settings).apply "test".toList [(.text "timeout_seconds".toList, .int 2)] = .ok t ∧
      t.IsUsable := by
  have usable : IsUsable {} := ⟨⟨by decide, by decide⟩, rfl⟩
  have applied : ({} : Settings).apply "test".toList [(.text "timeout_seconds".toList, .int 2)]
      = .ok { timeout := .ofInt 2 } :=
    toOption_eq_some_iff.mp (by decide +kernel)
  have resolved : resolve 100 { nodes := [] } (timeoutVariable "2") {}
      = .ok { timeout := .ofInt 2 } :=
    toOption_eq_some_iff.mp (by decide +kernel)
  have spelled : Binary64.spellsNan "2".toList = false := by decide +kernel
  obtain ⟨together, -, single⟩ := isUsable_iff_not_nan 100 { nodes := [] } (timeoutVariable "2") {}
  constructor
  · obtain ⟨-, entries, read, iff⟩ := together _ resolved
    exact ⟨_, resolved, iff.mpr spelled⟩
  · exact ⟨_, applied, (single _ _ _ _ usable applied).2.mpr rfl⟩

/-- A timeout that is not a number is accepted, as a value and as a variable. -/
theorem not_isUsable_nan :
    (∃ t, ({} : Settings).apply "test".toList [(.text "timeout_seconds".toList, .text "nan".toList)]
        = .ok t ∧ ¬ t.IsUsable) ∧
    ∃ s, resolve 100 { nodes := [] } (timeoutVariable "nan") {} = .ok s ∧ ¬ s.IsUsable := by
  have unusable : ¬ IsUsable { timeout := .nan } := by
    rintro ⟨-, ⟨⟩⟩
  constructor
  · exact ⟨_, toOption_eq_some_iff.mp (by decide +kernel), unusable⟩
  · exact ⟨_, toOption_eq_some_iff.mp (by decide +kernel), unusable⟩

end Settings
end PhpGate
