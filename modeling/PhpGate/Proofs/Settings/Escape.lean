import PhpGate.Proofs.Number.Overflow
import PhpGate.Proofs.Value.Shown
import PhpGate.Settings.Basic

/-!
Values that settings were not made for: they are neither read nor refused with an error of
configuration. For each setting it is said which values these are. As entries are set in turn, such
a value counts if every entry before it is accepted.
-/

namespace PhpGate

open Text

namespace Setting

theorem ofKey_eq_some_iff {t : Text} {setting : Setting} :
    ofKey? t = some setting ↔ t = setting.key := by
  constructor
  · intro found
    have same := List.find?_some found
    exact (of_decide_eq_true same).symm
  · rintro rfl
    cases setting <;> rfl

end Setting

namespace Settings

variable {s t : Settings} {source : Text} {setting : Setting} {v : Value}
  {entries : List (Value × Value)}

/-- A result that is neither a value nor an error of configuration. -/
def Escapes {α : Type} (r : Except SettingsError α) : Prop :=
  ∃ e, r = .error e ∧ e.message? = none

/-- A value that the reading of a setting was not made for. -/
def IsUnfit : Setting → Value → Prop
  | .externalEnabled, v => v.HoldsLongInt
  | .timeout, v => ∃ n, v = .int n ∧ Binary64.overflow ≤ n.natAbs
  | .temporaryDirectory, v => v.isEmpty = false ∧ v.asText? = none
  | _, _ => False

theorem not_escapes_ok {α : Type} {a : α} : ¬ Escapes (.ok a) := by
  rintro ⟨e, ⟨⟩, -⟩

theorem escapes_error_iff {α : Type} {e : SettingsError} :
    Escapes (.error e : Except SettingsError α) ↔ e.message? = none :=
  ⟨fun ⟨_, same, h⟩ => by cases same; exact h, fun h => ⟨e, rfl, h⟩⟩

theorem escapes_bind_iff {α β : Type} {r : Except SettingsError α}
    {f : α → Except SettingsError β} :
    Escapes (r.bind f) ↔ Escapes r ∨ ∃ a, r = .ok a ∧ Escapes (f a) := by
  cases r with
  | error e =>
      rw [or_iff_left (by rintro ⟨_, ⟨⟩, -⟩)]
      exact escapes_error_iff.trans escapes_error_iff.symm
  | ok a =>
      rw [or_iff_right not_escapes_ok]
      exact ⟨fun h => ⟨a, rfl, h⟩, fun ⟨_, same, h⟩ => by cases same; exact h⟩

theorem bind_eq_ok_iff {α β ε : Type} {r : Except ε α} {f : α → Except ε β} {b : β} :
    r.bind f = .ok b ↔ ∃ a, r = .ok a ∧ f a = .ok b := by
  cases r with
  | error e => exact iff_of_false nofun (by rintro ⟨_, ⟨⟩, -⟩)
  | ok a => exact ⟨fun h => ⟨a, rfl, h⟩, fun ⟨_, same, h⟩ => by cases same; exact h⟩

theorem asText_eq_none_of_holdsLongInt (holds : v.HoldsLongInt) : v.asText? = none := by
  cases holds <;> rfl

theorem readBool_eq_error_none_iff : readBool v = .error none ↔ v.HoldsLongInt := by
  have unshown : v.asText?.or v.shown? = none ↔ v.HoldsLongInt := by
    rw [Option.or_eq_none_iff, Value.shown_eq_none_iff]
    exact and_iff_right_of_imp asText_eq_none_of_holdsLongInt
  by_cases truth : ∃ b, v = .bool b
  · obtain ⟨b, rfl⟩ := truth
    exact iff_of_false nofun (by rintro ⟨⟩)
  · rw [← unshown, readBool]
    · cases v.asText?.or v.shown? with
      | none => exact iff_of_true rfl rfl
      | some t =>
          refine iff_of_false ?_ nofun
          dsimp only
          split
          · exact nofun
          · split <;> exact nofun
    · exact fun b same => truth ⟨b, same⟩

theorem readFloat_eq_tooLarge_iff :
    readFloat v = .error .tooLarge ↔ ∃ n, v = .int n ∧ Binary64.overflow ≤ n.natAbs := by
  cases v with
  | int n =>
      have whole : (∃ m, Value.int n = .int m ∧ Binary64.overflow ≤ m.natAbs)
          ↔ ∃ b, Binary64.ofInt n = .infinite b := by
        rw [Binary64.ofInt_infinite_iff]
        exact ⟨fun ⟨_, same, large⟩ => by cases same; exact large, fun large => ⟨n, rfl, large⟩⟩
      rw [whole, readFloat]
      cases Binary64.ofInt n <;> simp
  | text t =>
      refine iff_of_false ?_ nofun
      simp only [readFloat]
      cases Binary64.read? t <;> exact nofun
  | bytes b =>
      refine iff_of_false ?_ nofun
      simp only [readFloat]
      split
      · cases Binary64.read? _ <;> exact nofun
      · exact nofun
  | _ => exact iff_of_false nofun nofun

theorem not_escapes_refuse {α : Type} {r : Requirement} :
    ¬ Escapes (.error (.requirement source setting r) : Except SettingsError α) :=
  fun h => nomatch escapes_error_iff.mp h

/-- A setting is set or refused, unless its value is unfit. -/
theorem set_escapes_iff : Escapes (s.set source setting v) ↔ IsUnfit setting v := by
  cases setting with
  | externalEnabled =>
      rw [IsUnfit, ← readBool_eq_error_none_iff, set]
      cases readBool v with
      | ok b => exact iff_of_false not_escapes_ok nofun
      | error r =>
          cases r with
          | none => exact iff_of_true (escapes_error_iff.mpr rfl) rfl
          | some r => exact iff_of_false not_escapes_refuse nofun
  | timeout =>
      rw [IsUnfit, ← readFloat_eq_tooLarge_iff, set]
      cases readFloat v with
      | error e =>
          cases e with
          | notANumber => exact iff_of_false not_escapes_refuse nofun
          | tooLarge => exact iff_of_true (escapes_error_iff.mpr rfl) rfl
      | ok x =>
          refine iff_of_false ?_ nofun
          dsimp only
          split
          · exact not_escapes_refuse
          · exact not_escapes_ok
  | temporaryDirectory =>
      rw [IsUnfit, set]
      cases v.isEmpty with
      | true => exact iff_of_false not_escapes_ok nofun
      | false =>
          cases v.asText? with
          | some t => exact iff_of_false not_escapes_ok nofun
          | none => exact iff_of_true (escapes_error_iff.mpr rfl) ⟨rfl, rfl⟩
  | patterns =>
      refine iff_of_false ?_ id
      simp only [set]
      split
      · exact not_escapes_ok
      · split
        · exact not_escapes_ok
        · exact not_escapes_refuse
      · exact not_escapes_refuse
  | program =>
      refine iff_of_false ?_ id
      simp only [set]
      split
      · exact not_escapes_ok
      · exact not_escapes_ok
      · exact not_escapes_refuse
  | knownProgram =>
      refine iff_of_false ?_ id
      simp only [set]
      split
      · exact not_escapes_ok
      · exact not_escapes_refuse

theorem not_isUnfit_text (t : Text) : ¬ IsUnfit setting (.text t) := by
  cases setting with
  | externalEnabled => exact fun h => nomatch asText_eq_none_of_holdsLongInt h
  | timeout => rintro ⟨n, ⟨⟩, -⟩
  | temporaryDirectory => rintro ⟨-, ⟨⟩⟩
  | patterns | program | knownProgram => exact id

theorem settingOf_key (setting : Setting) : settingOf? (.text setting.key) = some setting :=
  Setting.ofKey_eq_some_iff.mpr rfl

/-- The keys of entries that are no settings. -/
def unknownKeys (entries : List (Value × Value)) : List Value :=
  (entries.map Prod.fst).filter fun k => (settingOf? k).isNone

theorem checkKeys_eq_ok_iff : checkKeys source entries = .ok () ↔ unknownKeys entries = [] := by
  rw [checkKeys, ← unknownKeys]
  cases unknownKeys entries with
  | nil => exact iff_of_true rfl rfl
  | cons k keys =>
      refine iff_of_false ?_ nofun
      dsimp only
      split
      · exact nofun
      · split <;> exact nofun

/-- Unknown keys are named in an error, unless they have no order or one of them cannot be shown. -/
theorem checkKeys_escapes_iff : Escapes (checkKeys source entries) ↔
    ¬ Value.HaveOrder (unknownKeys entries) ∨ ∃ k ∈ unknownKeys entries, k.HoldsLongInt := by
  rw [checkKeys, ← unknownKeys, ← Value.sortKeys_eq_none_iff]
  cases unknownKeys entries with
  | nil => exact iff_of_false not_escapes_ok (by rintro (h | ⟨k, mem, -⟩) <;> contradiction)
  | cons k keys =>
      dsimp only
      cases found : Value.sortKeys? (k :: keys) with
      | none => exact iff_of_true (escapes_error_iff.mpr rfl) (.inl rfl)
      | some sorted =>
          have shown : (Value.list sorted).shown? = none ↔ ∃ l ∈ k :: keys, l.HoldsLongInt := by
            simp only [← Value.mem_of_sortKeys found, ← Value.showItems_eq_none_iff]
            rw [Value.shown?, Option.map_eq_none_iff]
          rw [← shown, or_iff_right nofun]
          dsimp only
          cases (Value.list sorted).shown? with
          | none => exact iff_of_true (escapes_error_iff.mpr rfl) rfl
          | some t => exact iff_of_false (fun h => nomatch escapes_error_iff.mp h) nofun

/-- Sets one entry; an unknown key leaves the settings as they are. -/
def setEntry (s : Settings) (source : Text) (entry : Value × Value) :
    Except SettingsError Settings :=
  match settingOf? entry.1 with
  | some setting => s.set source setting entry.2
  | none => .ok s

def setAll (s : Settings) (source : Text) (entries : List (Value × Value)) :
    Except SettingsError Settings :=
  entries.foldlM (fun s entry => s.setEntry source entry) s

theorem apply_eq (s : Settings) (source : Text) (entries : List (Value × Value)) :
    s.apply source entries = (checkKeys source entries).bind fun _ => s.setAll source entries :=
  rfl

theorem apply_of_known (known : unknownKeys entries = []) :
    s.apply source entries = s.setAll source entries := by
  rw [apply_eq, checkKeys_eq_ok_iff.mpr known]
  rfl

theorem known_of_append {front back : List (Value × Value)} (split : entries = front ++ back)
    (known : unknownKeys entries = []) : unknownKeys front = [] := by
  rw [split, unknownKeys, List.map_append, List.filter_append] at known
  exact (List.append_eq_nil_iff.mp known).1

theorem setAll_cons (s : Settings) (source : Text) (entry : Value × Value)
    (entries : List (Value × Value)) :
    s.setAll source (entry :: entries)
      = (s.setEntry source entry).bind fun s => s.setAll source entries :=
  List.foldlM_cons

theorem setEntry_escapes_iff {entry : Value × Value} : Escapes (s.setEntry source entry) ↔
    ∃ setting, settingOf? entry.1 = some setting ∧ IsUnfit setting entry.2 := by
  rw [setEntry]
  cases settingOf? entry.1 with
  | none => exact iff_of_false not_escapes_ok nofun
  | some setting => simpa using set_escapes_iff

/-- Setting entries in turn goes wrong at the first that is not accepted, if its value is unfit. -/
theorem setAll_escapes_iff : Escapes (s.setAll source entries) ↔
    ∃ front entry back t setting, entries = front ++ entry :: back ∧
      s.setAll source front = .ok t ∧ settingOf? entry.1 = some setting ∧
      IsUnfit setting entry.2 := by
  induction entries generalizing s with
  | nil =>
      refine iff_of_false not_escapes_ok ?_
      rintro ⟨front, _, _, _, _, split, -⟩
      exact List.append_ne_nil_of_right_ne_nil _ (List.cons_ne_nil _ _) split.symm
  | cons e entries ih =>
      rw [setAll_cons, escapes_bind_iff, setEntry_escapes_iff]
      simp only [ih]
      constructor
      · rintro (⟨setting, unfit⟩ | ⟨s', step, front, entry, back, t, setting, rfl, accepted, unfit⟩)
        · exact ⟨[], e, entries, s, setting, rfl, rfl, unfit⟩
        · refine ⟨e :: front, entry, back, t, setting, rfl, ?_, unfit⟩
          rw [setAll_cons, step]
          exact accepted
      · rintro ⟨front, entry, back, t, setting, split, accepted, unfit⟩
        cases front with
        | nil =>
            cases split
            exact .inl ⟨setting, unfit⟩
        | cons e' front =>
            obtain ⟨rfl, rest⟩ := List.cons.inj split
            rw [setAll_cons, bind_eq_ok_iff] at accepted
            obtain ⟨s', step, accepted⟩ := accepted
            exact .inr ⟨s', step, front, entry, back, t, setting, rest, accepted, unfit⟩

/-- Entries can be neither applied nor refused: some keys are unknown and cannot be named, or a
known setting has an unfit value and all entries before it are accepted. -/
def AreUnfit (s : Settings) (source : Text) (entries : List (Value × Value)) : Prop :=
  (¬ Value.HaveOrder (unknownKeys entries) ∨ ∃ k ∈ unknownKeys entries, k.HoldsLongInt) ∨
    unknownKeys entries = [] ∧ ∃ front entry back t setting, entries = front ++ entry :: back ∧
      s.apply source front = .ok t ∧ settingOf? entry.1 = some setting ∧ IsUnfit setting entry.2

theorem apply_escapes_iff : Escapes (s.apply source entries) ↔ AreUnfit s source entries := by
  rw [apply_eq, escapes_bind_iff, checkKeys_escapes_iff, AreUnfit, setAll_escapes_iff]
  refine or_congr_right ⟨?_, ?_⟩
  · rintro ⟨u, known, front, entry, back, t, setting, split, accepted, unfit⟩
    have known := checkKeys_eq_ok_iff.mp known
    refine ⟨known, front, entry, back, t, setting, split, ?_, unfit⟩
    rw [apply_of_known (known_of_append split known), accepted]
  · rintro ⟨known, front, entry, back, t, setting, split, accepted, unfit⟩
    rw [apply_of_known (known_of_append split known)] at accepted
    have passes : checkKeys source entries = .ok () := checkKeys_eq_ok_iff.mpr known
    exact ⟨(), passes, front, entry, back, t, setting, split, accepted, unfit⟩

/-- Entries whose keys are texts. -/
def ofTexts (entries : List (Text × Value)) : List (Value × Value) :=
  entries.map fun e => (.text e.1, e.2)

theorem mem_unknownKeys_ofTexts {entries : List (Text × Value)} {k : Value}
    (mem : k ∈ unknownKeys (ofTexts entries)) : ∃ t, k = .text t := by
  rw [unknownKeys, ofTexts, List.map_map, List.mem_filter, List.mem_map] at mem
  obtain ⟨⟨e, -, rfl⟩, -⟩ := mem
  exact ⟨e.1, rfl⟩

theorem unknownKeys_ofTexts_eq_nil_iff {entries : List (Text × Value)} :
    unknownKeys (ofTexts entries) = [] ↔ ∀ e ∈ entries, ∃ setting, e.1 = Setting.key setting := by
  simp only [← Setting.ofKey_eq_some_iff, ← Option.isSome_iff_exists]
  rw [unknownKeys, ofTexts, List.map_map, List.filter_eq_nil_iff, List.forall_mem_map]
  simp [settingOf?, Value.asText?, Option.isSome_iff_ne_none]

/-- Texts have an order and can be shown, so unknown keys are refused if they are texts. -/
theorem areUnfit_ofTexts_iff {entries : List (Text × Value)} :
    AreUnfit s source (ofTexts entries) ↔
      (∀ e ∈ entries, ∃ setting, e.1 = Setting.key setting) ∧
        ∃ front setting v back t, entries = front ++ (setting.key, v) :: back ∧
          s.apply source (ofTexts front) = .ok t ∧ IsUnfit setting v := by
  have named : Value.HaveOrder (unknownKeys (ofTexts entries)) :=
    .inr ⟨.text, nofun, fun k mem => by
      obtain ⟨t, rfl⟩ := mem_unknownKeys_ofTexts mem
      rfl⟩
  have shown : ¬ ∃ k ∈ unknownKeys (ofTexts entries), k.HoldsLongInt := by
    rintro ⟨k, mem, holds⟩
    obtain ⟨t, rfl⟩ := mem_unknownKeys_ofTexts mem
    cases holds
  rw [AreUnfit, or_iff_right (not_or_intro (not_not_intro named) shown),
    unknownKeys_ofTexts_eq_nil_iff]
  refine and_congr_right fun known => ⟨?_, ?_⟩
  · rintro ⟨front, entry, back, t, setting, split, accepted, is, unfit⟩
    obtain ⟨front, rest, rfl, rfl, behind⟩ := List.map_eq_append_iff.mp split
    obtain ⟨⟨key, v⟩, back, rfl, rfl, -⟩ := List.map_eq_cons_iff.mp behind
    obtain rfl : key = setting.key := Setting.ofKey_eq_some_iff.mp is
    exact ⟨front, setting, v, back, t, rfl, accepted, unfit⟩
  · rintro ⟨front, setting, v, back, t, rfl, accepted, unfit⟩
    refine ⟨ofTexts front, (.text setting.key, v), ofTexts back, t, setting, ?_, accepted,
      settingOf_key setting, unfit⟩
    simp [ofTexts]

end Settings
end PhpGate
