import PhpGate.Proofs.Outcome
import PhpGate.Proofs.Settings.Load

/-!
Settings in layers: defaults, the entries of a file, variables of the environment, and options of a
command line. A setting holds what the highest layer that gives it says, and what the layers say
about other settings does not matter to it. Entries of a file are refused even where a higher layer
covers them.
-/

namespace PhpGate

open Text

/-- What a setting holds. -/
@[reducible] def Setting.Content : Setting → Type
  | .program => Option Text
  | .knownProgram => Text
  | .externalEnabled => Bool
  | .timeout => Binary64
  | .temporaryDirectory => Option Path
  | .patterns => List Text

namespace Settings

variable {s t : Settings} {source : Text} {setting other : Setting} {v : Value}
  {entry : Value × Value} {entries front back : List (Value × Value)} {nestingLimit : Nat}
  {files : Store} {env : Environment} {o : Overrides}

def get (s : Settings) : (setting : Setting) → setting.Content
  | .program => s.program
  | .knownProgram => s.knownProgram
  | .externalEnabled => s.externalEnabled
  | .timeout => s.timeout
  | .temporaryDirectory => s.temporaryDirectory
  | .patterns => s.patterns

def put (s : Settings) : (setting : Setting) → setting.Content → Settings
  | .program, program => { s with program }
  | .knownProgram, knownProgram => { s with knownProgram }
  | .externalEnabled, externalEnabled => { s with externalEnabled }
  | .timeout, timeout => { s with timeout }
  | .temporaryDirectory, temporaryDirectory => { s with temporaryDirectory }
  | .patterns, patterns => { s with patterns }

theorem get_put_self (s : Settings) (x : setting.Content) : (s.put setting x).get setting = x := by
  cases setting <;> rfl

theorem get_put_ne (s : Settings) (x : setting.Content) (ne : setting ≠ other) :
    (s.put setting x).get other = s.get other := by
  cases setting <;> cases other <;> first | rfl | contradiction

/-- Why a setting cannot hold a value, once the source of the value is known. -/
abbrev Refusal := Text → SettingsError

/-- A value as the content of a setting. -/
def contentOf (v : Value) : (setting : Setting) → Except Refusal setting.Content
  | .externalEnabled =>
      match readBool v with
      | .ok b => .ok b
      | .error (some r) => .error (.requirement · .externalEnabled r)
      | .error none => .error fun _ => .unreadableNumber
  | .timeout =>
      match readFloat v with
      | .error .notANumber => .error (.requirement · .timeout .number)
      | .error .tooLarge => .error fun _ => .numberTooLarge
      | .ok x => if x.isNonPositive then .error (.requirement · .timeout .positive) else .ok x
  | .temporaryDirectory =>
      if v.isEmpty then .ok none
      else match v.asText? with
        | some t => .ok (some (Path.of t))
        | none => .error fun _ => .wrongType
  | .patterns =>
      match v, v.asText? with
      | _, some t => .ok [t]
      | .list items, none =>
          match texts? items with
          | some ts => .ok ts
          | none => .error (.requirement · .patterns .patterns)
      | _, none => .error (.requirement · .patterns .patterns)
  | .program =>
      match v, v.asText? with
      | .null, _ => .ok none
      | _, some (c :: t) => .ok (some (c :: t))
      | _, _ => .error (.requirement · .program .nonEmptyText)
  | .knownProgram =>
      match v.asText? with
      | some (c :: t) => .ok (c :: t)
      | _ => .error (.requirement · .knownProgram .nonEmptyText)

theorem set_eq (s : Settings) (source : Text) (setting : Setting) (v : Value) :
    s.set source setting v = ((contentOf v setting).mapError (· source)).map (s.put setting) := by
  cases setting with
  | externalEnabled =>
      rw [set, contentOf]
      cases readBool v with
      | ok b => rfl
      | error r => cases r <;> rfl
  | timeout =>
      rw [set, contentOf]
      cases readFloat v with
      | error e => cases e <;> rfl
      | ok x =>
          dsimp only
          split <;> rfl
  | temporaryDirectory =>
      rw [set, contentOf]
      cases v.isEmpty with
      | true => rfl
      | false => cases v.asText? <;> rfl
  | patterns =>
      cases v with
      | list items =>
          simp only [set, contentOf, Value.asText?]
          cases texts? items <;> rfl
      | _ => rfl
  | program =>
      cases v with
      | text t => cases t <;> rfl
      | brokenText codes =>
          simp only [set, contentOf, Value.asText?]
          cases codes.repaired <;> rfl
      | _ => rfl
  | knownProgram =>
      simp only [set, contentOf]
      cases v.asText? with
      | none => rfl
      | some t => cases t <;> rfl

theorem set_eq_ok_iff : s.set source setting v = .ok t ↔
    ∃ x, contentOf v setting = .ok x ∧ s.put setting x = t := by
  rw [set_eq]
  cases contentOf v setting with
  | error refusal => exact iff_of_false (by rintro ⟨⟩) (by rintro ⟨x, ⟨⟩, -⟩)
  | ok x =>
      constructor
      · intro done
        cases done
        exact ⟨x, rfl, rfl⟩
      · rintro ⟨x, ⟨⟩, rfl⟩
        rfl

/-- What entries say about a setting; a later entry covers an earlier one. -/
def valueOf? (entries : List (Value × Value)) (setting : Setting) : Option Value :=
  (entries.reverse.find? fun entry => settingOf? entry.1 = some setting).map Prod.snd

theorem valueOf_append :
    valueOf? (front ++ back) setting = (valueOf? back setting).or (valueOf? front setting) := by
  rw [valueOf?, List.reverse_append, List.find?_append, Option.map_or]
  rfl

theorem valueOf_singleton : valueOf? [entry] setting =
    if settingOf? entry.1 = some setting then some entry.2 else none := by
  by_cases names : settingOf? entry.1 = some setting
  · simp [valueOf?, names]
  · simp [valueOf?, names]

/-- The content of a setting under a further layer. -/
def cover (below : setting.Content) : Option Value → Except Refusal setting.Content
  | none => .ok below
  | some v => contentOf v setting

theorem setEntry_get (setting : Setting) (accepted : s.setEntry source entry = .ok t) :
    cover (s.get setting) (valueOf? [entry] setting) = .ok (t.get setting) := by
  rw [valueOf_singleton]
  rw [setEntry] at accepted
  cases names : settingOf? entry.1 with
  | none =>
      rw [names] at accepted
      cases accepted
      rfl
  | some given =>
      simp only [names] at accepted
      obtain ⟨x, content, rfl⟩ := set_eq_ok_iff.mp accepted
      by_cases same : given = setting
      · subst same
        rw [if_pos rfl, get_put_self]
        exact content
      · rw [if_neg fun h => same (Option.some.inj h), get_put_ne s x same]
        rfl

/-- Entries set in turn give each setting what the last of them for that setting says. -/
theorem setAll_get (setting : Setting) (accepted : s.setAll source entries = .ok t) :
    cover (s.get setting) (valueOf? entries setting) = .ok (t.get setting) := by
  induction entries generalizing s with
  | nil =>
      cases accepted
      rfl
  | cons entry entries ih =>
      rw [setAll_cons, bind_eq_ok_iff] at accepted
      obtain ⟨s', first, rest⟩ := accepted
      have later := ih rest
      have here := setEntry_get setting first
      rw [← List.singleton_append, valueOf_append]
      cases covering : valueOf? entries setting with
      | some v =>
          rw [covering] at later
          exact later
      | none =>
          rw [covering] at later
          rw [Option.none_or, here]
          exact later

/-- An entry gives a setting what it cannot hold. -/
def isRefused (entry : Value × Value) : Bool :=
  match settingOf? entry.1 with
  | none => false
  | some setting =>
      match contentOf entry.2 setting with
      | .ok _ => false
      | .error _ => true

theorem exists_setEntry_iff (s : Settings) (source : Text) :
    (∃ t, s.setEntry source entry = .ok t) ↔ isRefused entry = false := by
  rw [setEntry, isRefused]
  cases settingOf? entry.1 with
  | none => exact iff_of_true ⟨s, rfl⟩ rfl
  | some setting =>
      simp only [set_eq_ok_iff]
      cases contentOf entry.2 setting with
      | error refusal => exact iff_of_false (by rintro ⟨_, _, ⟨⟩, -⟩) (by rintro ⟨⟩)
      | ok x => exact iff_of_true ⟨_, x, rfl, rfl⟩ rfl

theorem exists_setAll_iff :
    (∃ t, s.setAll source entries = .ok t) ↔ ∀ entry ∈ entries, isRefused entry = false := by
  induction entries generalizing s with
  | nil => exact iff_of_true ⟨s, rfl⟩ (List.forall_mem_nil _)
  | cons entry entries ih =>
      simp only [setAll_cons, bind_eq_ok_iff, List.forall_mem_cons]
      rw [← exists_setEntry_iff s source]
      constructor
      · rintro ⟨t, s', first, rest⟩
        exact ⟨⟨s', first⟩, ih.mp ⟨t, rest⟩⟩
      · rintro ⟨⟨s', first⟩, later⟩
        obtain ⟨t, rest⟩ := ih.mpr later
        exact ⟨t, s', first, rest⟩

theorem apply_eq_ok_iff : s.apply source entries = .ok t ↔
    unknownKeys entries = [] ∧ s.setAll source entries = .ok t := by
  rw [apply_eq, bind_eq_ok_iff]
  constructor
  · rintro ⟨_, known, done⟩
    exact ⟨checkKeys_eq_ok_iff.mp known, done⟩
  · rintro ⟨known, done⟩
    exact ⟨(), checkKeys_eq_ok_iff.mpr known, done⟩

/-- The variable of the environment that gives a setting. An empty one gives nothing, except for the
switch for the external checker. -/
def variableOf? (env : Environment) : Setting → Option Text
  | .program => setVariable env "PHPCHECK_PHP_BINARY"
  | .knownProgram => setVariable env "PHPCHECK_KNOWN_BINARY"
  | .externalEnabled => env.lookup "PHPCHECK_EXTERNAL".toList
  | .timeout => setVariable env "PHPCHECK_TIMEOUT_SECONDS"
  | .temporaryDirectory => setVariable env "PHPCHECK_TMPDIR"
  | .patterns => none

theorem valueOf_variable (given : Setting) (value : Option Text) :
    valueOf? (value.toList.map fun t => (.text given.key, .text t)) setting
      = if given = setting then value.map .text else none := by
  cases value with
  | none => simp [valueOf?]
  | some t =>
      rw [Option.toList_some, List.map_singleton, valueOf_singleton, settingOf_key]
      simp

theorem valueOf_environmentEntries (env : Environment) (setting : Setting) :
    valueOf? (environmentEntries env) setting = (variableOf? env setting).map .text := by
  simp only [environmentEntries, valueOf_append, valueOf_variable]
  cases setting <;> simp [variableOf?]

/-- The option of a command line that gives a setting. -/
def option? (o : Overrides) : (setting : Setting) → Option setting.Content
  | .externalEnabled => if o.noExternal then some false else none
  | .timeout =>
      match o.timeout with
      | .seconds x => some x
      | .unset | .blank => none
  | .program | .knownProgram | .temporaryDirectory | .patterns => none

/-- What the layers above the defaults say about a setting. -/
structure Layers (setting : Setting) where
  option : Option setting.Content
  environment : Option Text
  file : Option Value

def Layers.of (o : Overrides) (env : Environment) (entries : List (Value × Value))
    (setting : Setting) : Layers setting :=
  ⟨option? o setting, variableOf? env setting, valueOf? entries setting⟩

/-- What the highest layer says that says anything. -/
def Layers.top : Layers setting → Except Refusal setting.Content
  | ⟨some x, _, _⟩ => .ok x
  | ⟨none, some t, _⟩ => contentOf (.text t) setting
  | ⟨none, none, some v⟩ => contentOf v setting
  | ⟨none, none, none⟩ => .ok (({} : Settings).get setting)

/-- The entries of the file that a path or the environment names, if there is one. -/
def fileEntries (nestingLimit : Nat) (files : Store) (path : Option Text) (env : Environment) :
    Except SettingsError (List (Value × Value)) :=
  match configPath? path env with
  | none => .ok []
  | some source => readFile nestingLimit files (Path.of source)

theorem load_eq_ok_iff {path : Option Text} : load nestingLimit files path env = .ok s ↔
    ∃ entries below, fileEntries nestingLimit files path env = .ok entries ∧
      ({} : Settings).apply ((configPath? path env).getD []) entries = .ok below ∧
      below.apply "environment".toList (environmentEntries env) = .ok s := by
  rw [load_eq, bind_eq_ok_iff, fileEntries]
  cases configPath? path env with
  | none =>
      constructor
      · rintro ⟨below, ⟨⟩, done⟩
        exact ⟨[], {}, rfl, rfl, done⟩
      · rintro ⟨_, _, ⟨⟩, ⟨⟩, done⟩
        exact ⟨{}, rfl, done⟩
  | some source =>
      simp only [Option.elim_some, Option.getD_some, bind_eq_ok_iff]
      constructor
      · rintro ⟨below, ⟨entries, read, applied⟩, done⟩
        exact ⟨entries, below, read, applied, done⟩
      · rintro ⟨entries, below, read, applied, done⟩
        exact ⟨below, ⟨entries, read, applied⟩, done⟩

theorem resolve_configPath (nestingLimit : Nat) (files : Store) (path : Option Text) (env : Environment) :
    resolve nestingLimit files env { configPath := path } = load nestingLimit files path env := by
  rw [resolve]
  cases load nestingLimit files path env <;> rfl

/-- The settings once a command line has switched the external checker off or not. -/
def switched (o : Overrides) (s : Settings) : Settings :=
  if o.noExternal then s.put .externalEnabled false else s

theorem get_switched (s : Settings) (ne : setting ≠ .timeout) :
    (switched o s).get setting = (option? o setting).getD (s.get setting) := by
  rw [switched]
  cases setting with
  | timeout => contradiction
  | externalEnabled => cases noExternal : o.noExternal <;> simp [option?, get_put_self, noExternal]
  | program | knownProgram | temporaryDirectory | patterns => split <;> rfl

theorem timeout_switched (o : Overrides) (s : Settings) : (switched o s).timeout = s.timeout := by
  rw [switched]
  split <;> rfl

/-- What a command can come to: settings that were loaded and switched, with a timeout of its own or
without one. -/
theorem resolve_cases (accepted : resolve nestingLimit files env o = .ok s) :
    ∃ below, load nestingLimit files o.configPath env = .ok below ∧
      (o.timeout = .unset ∧ s = switched o below ∨
        ∃ x, o.timeout = .seconds x ∧ x.isNonPositive = false ∧
          s = (switched o below).put .timeout x) := by
  obtain ⟨below, loaded, done⟩ := PhpGate.bind_eq_ok_iff.mp accepted
  refine ⟨below, loaded, ?_⟩
  cases given : o.timeout with
  | blank =>
      rw [given] at done
      cases done
  | unset =>
      rw [given] at done
      cases done
      exact .inl ⟨rfl, rfl⟩
  | seconds x =>
      rw [given] at done
      cases sign : x.isNonPositive with
      | true =>
          simp only [sign] at done
          cases done
      | false =>
          simp only [sign] at done
          cases done
          exact .inr ⟨x, rfl, sign, rfl⟩

/-- Options set their settings and leave the others as they were loaded. -/
theorem get_of_resolve (accepted : resolve nestingLimit files env o = .ok s) :
    ∃ below, load nestingLimit files o.configPath env = .ok below ∧
      ∀ setting, s.get setting = (option? o setting).getD (below.get setting) := by
  obtain ⟨below, loaded, outcome⟩ := resolve_cases accepted
  refine ⟨below, loaded, fun setting => ?_⟩
  by_cases timeout : setting = .timeout
  · subst timeout
    obtain ⟨unset, rfl⟩ | ⟨x, given, -, rfl⟩ := outcome
    · simp only [option?, unset]
      exact timeout_switched o below
    · simp only [option?, given]
      rfl
  · rw [← get_switched below timeout]
    obtain ⟨-, rfl⟩ | ⟨x, -, -, rfl⟩ := outcome
    · rfl
    · exact get_put_ne _ x (Ne.symm timeout)

/-- Each setting is that of its highest layer. -/
theorem top_of_resolve (accepted : resolve nestingLimit files env o = .ok s) :
    ∃ entries, fileEntries nestingLimit files o.configPath env = .ok entries ∧
      ∀ setting, (Layers.of o env entries setting).top = .ok (s.get setting) := by
  obtain ⟨loaded, done, options⟩ := get_of_resolve accepted
  obtain ⟨entries, below, read, applied, environment⟩ := load_eq_ok_iff.mp done
  refine ⟨entries, read, fun setting => ?_⟩
  have file := setAll_get setting (apply_eq_ok_iff.mp applied).2
  have above := setAll_get setting (apply_eq_ok_iff.mp environment).2
  rw [valueOf_environmentEntries] at above
  rw [options, Layers.of]
  cases option? o setting with
  | some x => rfl
  | none =>
      cases given : variableOf? env setting with
      | some t =>
          rw [given] at above
          exact above
      | none =>
          rw [given] at above
          rw [Option.getD_none, ← Except.ok.inj above]
          cases value : valueOf? entries setting with
          | some v =>
              rw [value] at file
              exact file
          | none =>
              rw [value] at file
              exact file

/-- Settings that layers do not distinguish are the same, whatever else the layers say. -/
theorem get_eq_of_layers {files' : Store} {env' : Environment} {o' : Overrides} {s' : Settings}
    {entries' : List (Value × Value)} (accepted : resolve nestingLimit files env o = .ok s)
    (read : fileEntries nestingLimit files o.configPath env = .ok entries)
    (accepted' : resolve nestingLimit files' env' o' = .ok s')
    (read' : fileEntries nestingLimit files' o'.configPath env' = .ok entries')
    (same : Layers.of o env entries setting = Layers.of o' env' entries' setting) :
    s.get setting = s'.get setting := by
  obtain ⟨_, found, top⟩ := top_of_resolve accepted
  obtain ⟨_, found', top'⟩ := top_of_resolve accepted'
  cases read.symm.trans found
  cases read'.symm.trans found'
  have both := top setting
  rw [same, top' setting] at both
  exact (Except.ok.inj both).symm

/-- A refused entry of the file fails the load and with it the command, whatever covers the entry. -/
theorem resolve_eq_error (read : fileEntries nestingLimit files o.configPath env = .ok entries)
    (refused : entries.any isRefused = true) :
    ∃ e, load nestingLimit files o.configPath env = .error e ∧
      resolve nestingLimit files env o = .error e := by
  cases loaded : load nestingLimit files o.configPath env with
  | ok s =>
      obtain ⟨_, below, found, applied, -⟩ := load_eq_ok_iff.mp loaded
      cases read.symm.trans found
      have accepted := exists_setAll_iff.mp ⟨below, (apply_eq_ok_iff.mp applied).2⟩
      obtain ⟨entry, mem, bad⟩ := List.any_eq_true.mp refused
      rw [accepted entry mem] at bad
      cases bad
  | error e =>
      refine ⟨e, rfl, ?_⟩
      rw [resolve, loaded]
      rfl

/-- Settings are layered one by one: each is that of the highest layer that gives it, does not
depend on what the layers say about other settings, and has to be acceptable in the file even where
a higher layer gives it. -/
theorem settings_layered (nestingLimit : Nat) (files : Store) (env : Environment)
    (o : Overrides) :
    (∀ s, resolve nestingLimit files env o = .ok s →
      ∃ entries, fileEntries nestingLimit files o.configPath env = .ok entries ∧
        (∀ setting, (Layers.of o env entries setting).top = .ok (s.get setting)) ∧
        ∀ files' env' o' s' entries', resolve nestingLimit files' env' o' = .ok s' →
          fileEntries nestingLimit files' o'.configPath env' = .ok entries' →
          ∀ setting, Layers.of o env entries setting = Layers.of o' env' entries' setting →
            s.get setting = s'.get setting) ∧
    (∀ entries, fileEntries nestingLimit files o.configPath env = .ok entries →
      entries.any isRefused = true →
      ∃ e, load nestingLimit files o.configPath env = .error e ∧
        resolve nestingLimit files env o = .error e) := by
  refine ⟨fun s accepted => ?_, fun entries read refused => resolve_eq_error read refused⟩
  obtain ⟨entries, read, top⟩ := top_of_resolve accepted
  exact ⟨entries, read, top, fun files' env' o' s' entries' accepted' read' setting same =>
    get_eq_of_layers accepted read accepted' read' same⟩

/-- A tree with nothing but a settings file. -/
def settingsFile (content : String) : Store where
  nodes := [(["c".toList], .file 0)]
  contents := [(0, { content := encode content.toList })]

theorem settings_layered_file :
    (∃ s entries, resolve 100 (settingsFile "include: a")
        [("PHPCHECK_TIMEOUT_SECONDS".toList, "2".toList), ("PHPCHECK_EXTERNAL".toList, [])]
        ⟨some "/c".toList, false, .seconds (.ofInt 3)⟩ = .ok s ∧
      fileEntries 100 (settingsFile "include: a") (some "/c".toList) [] = .ok entries ∧
      (Layers.of ⟨some "/c".toList, false, .seconds (.ofInt 3)⟩
        [("PHPCHECK_TIMEOUT_SECONDS".toList, "2".toList), ("PHPCHECK_EXTERNAL".toList, [])]
        entries .timeout).top = .ok (.ofInt 3) ∧
      s.externalEnabled = false ∧
      ∃ s', resolve 100 (settingsFile "include: a") [] ⟨some "/c".toList, true, .unset⟩ = .ok s' ∧
        s.patterns = s'.patterns) ∧
    ∃ e, load 100 (settingsFile "temp_dir: 1") (some "/c".toList)
        [("PHPCHECK_TMPDIR".toList, "/t".toList)] = .error e := by
  have accepted : resolve 100 (settingsFile "include: a")
      [("PHPCHECK_TIMEOUT_SECONDS".toList, "2".toList), ("PHPCHECK_EXTERNAL".toList, [])]
      ⟨some "/c".toList, false, .seconds (.ofInt 3)⟩ = .ok
        { externalEnabled := false, timeout := .ofInt 3, patterns := ["a".toList] } :=
    toOption_eq_some_iff.mp (by decide +kernel)
  have accepted' : resolve 100 (settingsFile "include: a") [] ⟨some "/c".toList, true, .unset⟩ = .ok
      { externalEnabled := false, patterns := ["a".toList] } :=
    toOption_eq_some_iff.mp (by decide +kernel)
  constructor
  · obtain ⟨entries, read, top, same⟩ := (settings_layered _ _ _ _).1 _ accepted
    exact ⟨_, entries, accepted, read, top .timeout, rfl, _, accepted',
      same _ _ _ _ _ accepted' read .patterns rfl⟩
  · have refused : (fileEntries 100 (settingsFile "temp_dir: 1") (some "/c".toList)
        [("PHPCHECK_TMPDIR".toList, "/t".toList)]).toOption.any (·.any isRefused) = true := by
      decide +kernel
    obtain ⟨entries, found, refused⟩ := Option.any_eq_true .. |>.mp refused
    obtain ⟨e, failed, -⟩ := (settings_layered 100 (settingsFile "temp_dir: 1")
      [("PHPCHECK_TMPDIR".toList, "/t".toList)] { configPath := some "/c".toList }).2 entries
      (toOption_eq_some_iff.mp found) refused
    exact ⟨e, failed⟩

end Settings
end PhpGate
