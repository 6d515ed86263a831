import PhpGate.Proofs.Settings.Escape
import PhpGate.Settings.Load

/-!
Loading of settings that ends in neither settings nor an error of configuration. A file may fail to
give entries in other ways than those that are refused, or may have a value that a setting was not
made for. The environment holds texts alone, and no text is such a value.
-/

namespace PhpGate.Settings

open Text

variable {s : Settings} {source : Text} {setting : Setting} {nestingLimit : Nat} {files : Store}
  {path : Path}

theorem message_ofFault_eq_none_iff {fault : Yaml.Fault} :
    (ofFault path fault).message? = none ↔ fault ≠ .malformed := by
  cases fault <;> simp [ofFault, SettingsError.message?]

/-- A file that cannot be read as entries, nor refused: its path is none, its text is not UTF-8, or
the document fails otherwise than by being malformed. -/
def IsUnreadable (nestingLimit : Nat) (files : Store) (path : Path) : Prop :=
  files.read path = .error .embeddedNull ∨
    ∃ content, files.read path = .ok content ∧ (readMarked? content = none ∨
      ∃ t, readMarked? content = some t ∧
        ∃ fault, Yaml.read nestingLimit t = .error fault ∧ fault ≠ .malformed)

theorem readFile_escapes_iff :
    Escapes (readFile nestingLimit files path) ↔ IsUnreadable nestingLimit files path := by
  rw [readFile, IsUnreadable]
  cases files.read path with
  | error e =>
      cases e with
      | embeddedNull => exact iff_of_true (escapes_error_iff.mpr rfl) (.inl rfl)
      | fault _ _ _ | denied _ =>
          refine iff_of_false (fun h => nomatch escapes_error_iff.mp h) ?_
          rintro (h | ⟨_, h, -⟩) <;> cases h
  | ok content =>
      simp only [reduceCtorEq, false_or, Except.ok.injEq, exists_eq_left']
      cases readMarked? content with
      | none => exact iff_of_true (escapes_error_iff.mpr rfl) (.inl rfl)
      | some t =>
          simp only [reduceCtorEq, false_or, Option.some.injEq, exists_eq_left']
          cases Yaml.read nestingLimit t with
          | error fault =>
              refine escapes_error_iff.trans (message_ofFault_eq_none_iff.trans ?_)
              exact ⟨fun h => ⟨fault, rfl, h⟩, fun ⟨_, same, h⟩ => by cases same; exact h⟩
          | ok v =>
              refine iff_of_false ?_ (by rintro ⟨_, ⟨⟩, -⟩)
              cases v with
              | null | mapping entries => exact not_escapes_ok
              | _ => exact fun h => nomatch escapes_error_iff.mp h

theorem exists_of_mem_environmentEntries {env : Environment} {entry : Value × Value}
    (mem : entry ∈ environmentEntries env) :
    ∃ setting t, entry = (.text (Setting.key setting), .text t) := by
  simp only [environmentEntries, List.mem_append, List.mem_map] at mem
  obtain (((⟨t, -, rfl⟩ | ⟨t, -, rfl⟩) | ⟨t, -, rfl⟩) | ⟨t, -, rfl⟩) | ⟨t, -, rfl⟩ := mem <;>
    exact ⟨_, t, rfl⟩

/-- The environment has texts for some settings, and no text is unfit. -/
theorem not_areUnfit_environment (env : Environment) :
    ¬ AreUnfit s source (environmentEntries env) := by
  have known : unknownKeys (environmentEntries env) = [] := by
    rw [unknownKeys, List.filter_eq_nil_iff]
    intro k mem
    obtain ⟨entry, listed, rfl⟩ := List.mem_map.mp mem
    obtain ⟨setting, t, rfl⟩ := exists_of_mem_environmentEntries listed
    rw [settingOf_key]
    exact Bool.false_ne_true
  rintro (bad | ⟨-, front, entry, back, t, setting, split, -, -, unfit⟩)
  · rw [known] at bad
    obtain unordered | ⟨k, mem, -⟩ := bad
    · exact unordered (.inl (Nat.zero_le 1))
    · cases mem
  · obtain ⟨setting', t, rfl⟩ := exists_of_mem_environmentEntries
      (show entry ∈ environmentEntries env by rw [split]; simp)
    exact not_isUnfit_text t unfit

theorem load_eq (nestingLimit : Nat) (files : Store) (path : Option Text) (env : Environment) :
    load nestingLimit files path env = ((configPath? path env).elim (.ok {}) fun source =>
        (readFile nestingLimit files (Path.of source)).bind fun entries =>
          ({} : Settings).apply source entries).bind fun s =>
      s.apply "environment".toList (environmentEntries env) := by
  rw [load]
  cases configPath? path env with
  | none => rfl
  | some source =>
      dsimp only [Option.elim_some]
      cases readFile nestingLimit files (Path.of source) <;> rfl

/-- Settings are loaded or refused, unless the file is unreadable or its entries unfit. -/
theorem load_escapes_iff {path : Option Text} {env : Environment} :
    Escapes (load nestingLimit files path env) ↔ ∃ source, configPath? path env = some source ∧
      (IsUnreadable nestingLimit files (Path.of source) ∨
        ∃ entries, readFile nestingLimit files (Path.of source) = .ok entries ∧
          AreUnfit {} source entries) := by
  rw [load_eq, escapes_bind_iff, or_iff_left]
  · cases configPath? path env with
    | none => exact iff_of_false not_escapes_ok (by rintro ⟨_, ⟨⟩, -⟩)
    | some source =>
        simp only [Option.elim_some, escapes_bind_iff, readFile_escapes_iff, apply_escapes_iff,
          Option.some.injEq, exists_eq_left']
  · rintro ⟨s, -, escapes⟩
    exact not_areUnfit_environment env (apply_escapes_iff.mp escapes)

/-- Settings are read or refused with an error of configuration, unless a value is unfit for its
setting. A file may also fail otherwise than with such an error before its entries are read. -/
theorem escapes_iff (s : Settings) (source : Text) (entries : List (Text × Value))
    (nestingLimit : Nat) (files : Store) (path : Option Text) (env : Environment) :
    (Escapes (s.apply source (ofTexts entries)) ↔
      (∀ e ∈ entries, ∃ setting, e.1 = Setting.key setting) ∧
        ∃ front setting v back t, entries = front ++ (setting.key, v) :: back ∧
          s.apply source (ofTexts front) = .ok t ∧ IsUnfit setting v) ∧
    (Escapes (load nestingLimit files path env) ↔ ∃ file, configPath? path env = some file ∧
      (IsUnreadable nestingLimit files (Path.of file) ∨
        ∃ read, readFile nestingLimit files (Path.of file) = .ok read ∧ AreUnfit {} file read)) :=
  ⟨apply_escapes_iff.trans areUnfit_ofTexts_iff, load_escapes_iff⟩

/-- A tree with nothing but a settings file that is not UTF-8. -/
def notUtf8 : Store where
  nodes := [(["c".toList], .file 0)]
  contents := [(0, { content := [0xff] })]

/-- A number beyond the floating-point numbers, and a file that is not UTF-8. -/
theorem escapes_large_timeout :
    Escapes (({} : Settings).apply "test".toList
      (ofTexts [("timeout_seconds".toList, .int (Nat.pow 10 400))])) ∧
    Escapes (load 100 notUtf8 (some "/c".toList) []) := by
  constructor
  · have large : Binary64.overflow ≤ (Nat.pow 10 400 : Int).natAbs := by decide +kernel
    exact apply_escapes_iff.mpr (.inr ⟨rfl, [], _, [], {}, .timeout, rfl, rfl, rfl, _, rfl, large⟩)
  · exact load_escapes_iff.mpr ⟨_, rfl, .inl (.inr ⟨_, rfl, .inl rfl⟩)⟩

end PhpGate.Settings
