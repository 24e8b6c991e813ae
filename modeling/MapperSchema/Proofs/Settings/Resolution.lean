import MapperSchema.Proofs.Settings.Reading

/-! Settings as a whole. They are resolved if all values that are chosen can be read and every
keyword is known; the complaints otherwise come in the order of the settings, and nothing shows in
them that was not chosen. -/
namespace MapperSchema.Settings

inductive Setting where
  | environment | logLevel | jsonLogs | strictRequired

namespace Setting

def name : Setting → String
  | environment => "environment"
  | logLevel => "log_level"
  | jsonLogs => "json_logs"
  | strictRequired => "strict_required"

/-- The settings in the order in which they are read. -/
def all : List Setting := [environment, logLevel, jsonLogs, strictRequired]

inductive IsFlag : Setting → Prop
  | jsonLogs : IsFlag jsonLogs
  | strictRequired : IsFlag strictRequired

example : all.map name = fieldNames := rfl

end Setting

/-- What a setting comes to, given the value that is chosen for it. -/
inductive Takes {α : Type} (reads : Value → α → Prop) (missing : α) : Option Value → α → Prop
  | given {v a} (read : reads v a) : Takes reads missing (some v) a
  | missing : Takes reads missing none missing

/-- The settings that come of variables and keywords. -/
structure Gives (env : List (String × String)) (keywords : Options) (s : Settings) : Prop where
  environment : ∃ v, Chosen env keywords Setting.environment.name v ∧
    Takes ReadsMode .development v s.environment
  logLevel : ∃ v, Chosen env keywords Setting.logLevel.name v ∧
    Takes ReadsText "WARNING" v s.logLevel
  jsonLogs : ∃ v, Chosen env keywords Setting.jsonLogs.name v ∧
    Takes ReadsFlag false v s.jsonLogs
  strictRequired : ∃ v, Chosen env keywords Setting.strictRequired.name v ∧
    Takes ReadsFlag false v s.strictRequired
  known : ∀ name ∈ keywords.keys, lower name ∈ fieldNames

/-- The value can be read for the setting. -/
inductive Fits (v : Value) : Setting → Prop
  | environment {m} (read : ReadsMode v m) : Fits v .environment
  | logLevel {s} (read : ReadsText v s) : Fits v .logLevel
  | flag {setting b} (flag : Setting.IsFlag setting) (read : ReadsFlag v b) : Fits v setting

/-- What is said of a value that cannot be read for the setting. -/
inductive Blamed : Setting → Complaint → Prop
  | environment : Blamed .environment (.notOneOf Mode.names)
  | logLevel : Blamed .logLevel .notText
  | notFlag {setting} (flag : Setting.IsFlag setting) : Blamed setting .notBoolean
  | unreadable {setting} (flag : Setting.IsFlag setting) : Blamed setting .unreadableBoolean

/-- One complaint for each setting whose value cannot be read, in the order of the settings. -/
inductive Complains (env : List (String × String)) (keywords : Options) :
    List Setting → List Issue → Prop
  | done : Complains env keywords [] []
  | fine {setting settings issues v} (chosen : Chosen env keywords setting.name v)
    (fits : ∀ x, v = some x → Fits x setting) (rest : Complains env keywords settings issues) :
    Complains env keywords (setting :: settings) issues
  | invalid {setting settings issues v c} (chosen : Chosen env keywords setting.name (some v))
    (unfit : ¬Fits v setting) (blamed : Blamed setting c)
    (rest : Complains env keywords settings issues) :
    Complains env keywords (setting :: settings) (⟨[setting.name], c⟩ :: issues)

/-- The keywords that name no setting. -/
def unknown (keywords : Options) : List String :=
  keywords.keys.filter fun name => !fieldNames.contains (lower name)

/-- What comes of the four settings when each has been read, with further complaints. -/
def conclude (mode : List Issue × Mode) (level : List Issue × String)
    (json strict : List Issue × Bool) (further : List Issue) : Except (List Issue) Settings :=
  match mode.1 ++ level.1 ++ json.1 ++ strict.1 ++ further with
  | [] => .ok ⟨mode.2, level.2, json.2, strict.2⟩
  | issues => .error issues

variable {env env' : List (String × String)} {keywords keywords' : Options}

theorem unknown_eq_nil_iff :
    unknown keywords = [] ↔ ∀ name ∈ keywords.keys, lower name ∈ fieldNames := by
  simp [unknown, List.filter_eq_nil_iff]

theorem resolve_eq (env : List (String × String)) (keywords : Options) :
    resolve env keywords = conclude
      (readSetting readMode .development Setting.environment.name
        (source? env keywords Setting.environment.name))
      (readSetting Value.readText "WARNING" Setting.logLevel.name
        (source? env keywords Setting.logLevel.name))
      (readSetting readFlag false Setting.jsonLogs.name
        (source? env keywords Setting.jsonLogs.name))
      (readSetting readFlag false Setting.strictRequired.name
        (source? env keywords Setting.strictRequired.name))
      ((unknown keywords).map fun name => ⟨[name], .unexpected⟩) := by
  have further : (unknown keywords).map (fun name => Issue.mk [name] .unexpected) =
      keywords.keys.filterMap fun k =>
        if fieldNames.contains (lower k) then none else some (Issue.mk [k] .unexpected) := by
    rw [unknown, ← List.filterMap_eq_map, List.filterMap_filter]
    apply List.filterMap_congr
    intro name _
    cases fieldNames.contains (lower name) <;> rfl
  rw [further]
  rfl

section Conclude

variable {mode : List Issue × Mode} {level : List Issue × String} {json strict : List Issue × Bool}
  {further : List Issue}

theorem conclude_eq_ok_iff {s : Settings} : conclude mode level json strict further = .ok s ↔
    mode = ([], s.environment) ∧ level = ([], s.logLevel) ∧ json = ([], s.jsonLogs) ∧
      strict = ([], s.strictRequired) ∧ further = [] := by
  obtain ⟨modeIssues, m⟩ := mode
  obtain ⟨levelIssues, l⟩ := level
  obtain ⟨jsonIssues, j⟩ := json
  obtain ⟨strictIssues, t⟩ := strict
  unfold conclude
  split
  next none =>
    simp only [List.append_eq_nil_iff] at none
    obtain ⟨⟨⟨⟨rfl, rfl⟩, rfl⟩, rfl⟩, rfl⟩ := none
    obtain ⟨m', l', j', t'⟩ := s
    simp
  next some =>
    constructor
    · intro ok
      cases ok
    · rintro ⟨⟨⟩, ⟨⟩, ⟨⟩, ⟨⟩, rfl⟩
      exact absurd rfl some

theorem conclude_eq_error {issues : List Issue}
    (h : conclude mode level json strict further = .error issues) :
    issues ≠ [] ∧ issues = mode.1 ++ (level.1 ++ (json.1 ++ (strict.1 ++ []))) ++ further := by
  unfold conclude at h
  split at h
  next => cases h
  next some =>
    cases h
    exact ⟨some, by simp⟩

end Conclude

section Setting

variable {α : Type} {read : Value → Except Complaint α} {reads : Value → α → Prop} {missing : α}
  {v : Option Value}

theorem readSetting_of_ok {name : String} {x : Value} {a : α} (ran : read x = .ok a) :
    readSetting read missing name (some x) = ([], a) := by
  simp only [readSetting, ran]

theorem readSetting_of_error {name : String} {x : Value} {c : Complaint}
    (ran : read x = .error c) :
    readSetting read missing name (some x) = ([⟨[name], c⟩], missing) := by
  simp only [readSetting, ran]

theorem readSetting_eq_iff {name : String} {a : α}
    (reading : ∀ x, v = some x → (read x = .ok a ↔ reads x a)) :
    readSetting read missing name v = ([], a) ↔ Takes reads missing v a := by
  cases v with
  | none =>
    constructor
    · rintro ⟨⟩
      exact .missing
    · rintro ⟨⟩
      rfl
  | some x =>
    have reading := reading x rfl
    constructor
    · intro eq
      cases ran : read x with
      | ok b =>
        rw [readSetting_of_ok ran] at eq
        cases eq
        exact .given (reading.1 ran)
      | error c =>
        rw [readSetting_of_error ran] at eq
        cases eq
    · rintro ⟨given⟩
      exact readSetting_of_ok (reading.2 given)

theorem Complains.readSetting {setting : Setting} {settings : List Setting} {issues : List Issue}
    (chosen : Chosen env keywords setting.name v)
    (reading : ∀ x, v = some x → (Fits x setting ↔ ∃ a, read x = .ok a))
    (blaming : ∀ x, v = some x → ∀ c, read x = .error c → Blamed setting c)
    (rest : Complains env keywords settings issues) :
    Complains env keywords (setting :: settings)
      ((readSetting read missing setting.name v).1 ++ issues) := by
  cases v with
  | none => exact .fine chosen nofun rest
  | some x =>
    have reading := reading x rfl
    cases ran : read x with
    | ok a =>
      rw [readSetting_of_ok ran]
      refine .fine chosen ?_ rest
      rintro _ ⟨⟩
      exact reading.2 ⟨a, ran⟩
    | error c =>
      rw [readSetting_of_error ran]
      refine .invalid chosen (fun fits => ?_) (blaming x rfl c ran) rest
      obtain ⟨a, ok⟩ := reading.1 fits
      cases ran.symm.trans ok

end Setting

/-- Values that can be read give no complaint. -/
theorem Complains.eq_nil {settings : List Setting} {issues : List Issue}
    (complains : Complains env keywords settings issues)
    (fits : ∀ setting ∈ settings, ∀ x, Chosen env keywords setting.name (some x) → Fits x setting) :
    issues = [] := by
  induction complains with
  | done => rfl
  | fine _ _ _ ih => exact ih fun setting mem => fits setting (List.mem_cons_of_mem _ mem)
  | invalid chosen unfit => exact absurd (fits _ List.mem_cons_self _ chosen) unfit

/-- No keyword is given as bytes. -/
def Plain (keywords : Options) : Prop :=
  ∀ row ∈ keywords.rows, ∀ data, row.2 ≠ .atom (.bytes data)

theorem Chosen.ne_bytes {setting : String} {v : Value} (plain : Plain keywords)
    (chosen : Chosen env keywords setting (some v)) : ∀ data, v ≠ .atom (.bytes data) := by
  cases chosen with
  | keyword given first named => exact plain _ (by simp [given])
  | environment shown given named => nofun

section Fits

variable {v : Value} {c : Complaint}

theorem fits_environment_iff : Fits v .environment ↔ ∃ m, readMode v = .ok m := by
  simp only [readMode_iff]
  constructor
  · rintro (⟨read⟩ | ⟨read⟩ | ⟨⟨⟩, read⟩)
    exact ⟨_, read⟩
  · rintro ⟨m, read⟩
    exact .environment read

theorem fits_logLevel_iff (noBytes : ∀ data, v ≠ .atom (.bytes data)) :
    Fits v .logLevel ↔ ∃ s, v.readText = .ok s := by
  simp only [readText_iff noBytes]
  constructor
  · rintro (⟨read⟩ | ⟨read⟩ | ⟨⟨⟩, read⟩)
    exact ⟨_, read⟩
  · rintro ⟨s, read⟩
    exact .logLevel read

theorem Setting.IsFlag.fits_iff {setting : Setting} (flag : setting.IsFlag)
    (noBytes : ∀ data, v ≠ .atom (.bytes data)) : Fits v setting ↔ ∃ b, readFlag v = .ok b := by
  simp only [readFlag_iff noBytes]
  constructor
  · rintro (⟨read⟩ | ⟨read⟩ | ⟨_, read⟩)
    · cases flag
    · cases flag
    · exact ⟨_, read⟩
  · rintro ⟨b, read⟩
    exact .flag flag read

theorem Blamed.of_readMode (failed : readMode v = .error c) : Blamed .environment c := by
  unfold readMode at failed
  split at failed
  · split at failed <;> cases failed
    exact .environment
  · cases failed
    exact .environment

theorem Blamed.of_readText (noBytes : ∀ data, v ≠ .atom (.bytes data))
    (failed : v.readText = .error c) : Blamed .logLevel c := by
  cases v with
  | atom a =>
    cases a with
    | text s => cases failed
    | bytes data => exact absurd rfl (noBytes data)
    | _ =>
      cases failed
      exact .logLevel
  | _ =>
    cases failed
    exact .logLevel

theorem flagOfWhole_error {least n : Int} (failed : flagOfWhole least n = .error c) :
    c = .notBoolean ∨ c = .unreadableBoolean := by
  unfold flagOfWhole at failed
  split at failed
  · cases failed
  · split at failed
    · cases failed
    · cases failed
      split
      · exact .inr rfl
      · exact .inl rfl

theorem readFlag_error (failed : readFlag v = .error c) :
    c = .notBoolean ∨ c = .unreadableBoolean := by
  unfold readFlag at failed
  split at failed
  next => cases failed
  next => exact flagOfWhole_error failed
  next s =>
    cases known : flagOfText? s with
    | none =>
      rw [known] at failed
      cases failed
      exact .inr rfl
    | some b =>
      rw [known] at failed
      cases failed
  next data =>
    cases known : (decodeText? data).bind flagOfText? with
    | none =>
      rw [known] at failed
      cases failed
      exact .inr rfl
    | some b =>
      rw [known] at failed
      cases failed
  next t =>
    cases whole : Decimal.wholeOfText? t with
    | none =>
      rw [whole] at failed
      cases failed
      exact .inl rfl
    | some n =>
      rw [whole] at failed
      exact flagOfWhole_error failed
  next =>
    cases failed
    exact .inl rfl

theorem Setting.IsFlag.blamed {setting : Setting} (flag : setting.IsFlag)
    (failed : readFlag v = .error c) : Blamed setting c := by
  rcases readFlag_error failed with rfl | rfl
  · exact .notFlag flag
  · exact .unreadable flag

end Fits

theorem reads_of_chosen {α : Type} {reads : Value → α → Prop} {missing a : α} {setting : String}
    {x : Value} (distinct : Distinct env)
    (gives : ∃ v, Chosen env keywords setting v ∧ Takes reads missing v a)
    (chosen : Chosen env keywords setting (some x)) : reads x a := by
  obtain ⟨v, other, takes⟩ := gives
  cases chosen.unique distinct other
  obtain ⟨read⟩ := takes
  exact read

section Resolve

variable (distinct : Distinct env) (plain : Plain keywords)

include distinct plain

/-- A setting is read to what its chosen value, if any, is read as. -/
theorem readSetting_source_iff {α : Type} {read : Value → Except Complaint α}
    {reads : Value → α → Prop} {missing a : α} {setting : String}
    (reading : ∀ x, (∀ data, x ≠ .atom (.bytes data)) → (read x = .ok a ↔ reads x a)) :
    readSetting read missing setting (source? env keywords setting) = ([], a) ↔
      ∃ v, Chosen env keywords setting v ∧ Takes reads missing v a := by
  have chosen : Chosen env keywords setting (source? env keywords setting) :=
    (chosen_iff distinct).2 rfl
  rw [readSetting_eq_iff fun x source => reading x ((source ▸ chosen).ne_bytes plain)]
  constructor
  · intro takes
    exact ⟨_, chosen, takes⟩
  · rintro ⟨v, other, takes⟩
    rwa [(chosen_iff distinct).1 other]

theorem resolve_eq_ok_iff {s : Settings} : resolve env keywords = .ok s ↔ Gives env keywords s := by
  rw [resolve_eq, conclude_eq_ok_iff, List.map_eq_nil_iff, unknown_eq_nil_iff,
    readSetting_source_iff distinct plain fun x _ => readMode_iff,
    readSetting_source_iff distinct plain fun x noBytes => readText_iff noBytes,
    readSetting_source_iff distinct plain fun x noBytes => readFlag_iff noBytes,
    readSetting_source_iff distinct plain fun x noBytes => readFlag_iff noBytes]
  constructor
  · rintro ⟨environment, logLevel, jsonLogs, strictRequired, known⟩
    exact ⟨environment, logLevel, jsonLogs, strictRequired, known⟩
  · rintro ⟨environment, logLevel, jsonLogs, strictRequired, known⟩
    exact ⟨environment, logLevel, jsonLogs, strictRequired, known⟩

/-- Without settings there are complaints: one for each value that cannot be read, then one for
each unknown keyword. -/
theorem complains_of_resolve {issues : List Issue} (failed : resolve env keywords = .error issues) :
    issues ≠ [] ∧ ∃ invalid, Complains env keywords Setting.all invalid ∧
      issues = invalid ++ (unknown keywords).map fun name => ⟨[name], .unexpected⟩ := by
  have chosen (setting : Setting) :
      Chosen env keywords setting.name (source? env keywords setting.name) :=
    (chosen_iff distinct).2 rfl
  have noBytes (setting : Setting) (x : Value)
      (source : source? env keywords setting.name = some x) : ∀ data, x ≠ .atom (.bytes data) :=
    (source ▸ chosen setting).ne_bytes plain
  have flag {setting : Setting} {settings : List Setting} {issues : List Issue}
      (flag : setting.IsFlag) (rest : Complains env keywords settings issues) :
      Complains env keywords (setting :: settings) ((readSetting readFlag false setting.name
        (source? env keywords setting.name)).1 ++ issues) :=
    .readSetting (chosen setting) (fun x source => flag.fits_iff (noBytes setting x source))
      (fun x _ c failed => flag.blamed failed) rest
  rw [resolve_eq] at failed
  obtain ⟨some, listed⟩ := conclude_eq_error failed
  refine ⟨some, _, ?_, listed⟩
  refine .readSetting (chosen .environment) (fun x _ => fits_environment_iff)
    (fun x _ c failed => .of_readMode failed) ?_
  refine .readSetting (chosen .logLevel)
    (fun x source => fits_logLevel_iff (noBytes .logLevel x source))
    (fun x source c failed => .of_readText (noBytes .logLevel x source) failed) ?_
  exact flag .jsonLogs (flag .strictRequired .done)

/-- There are settings if every chosen value can be read and every keyword is known. -/
theorem resolves_iff : (∃ s, resolve env keywords = .ok s) ↔
    (∀ setting x, Chosen env keywords (Setting.name setting) (some x) → Fits x setting) ∧
      ∀ name ∈ keywords.keys, lower name ∈ fieldNames := by
  constructor
  · rintro ⟨s, resolved⟩
    have gives := (resolve_eq_ok_iff distinct plain).1 resolved
    refine ⟨fun setting x chosen => ?_, gives.known⟩
    cases setting with
    | environment => exact .environment (reads_of_chosen distinct gives.environment chosen)
    | logLevel => exact .logLevel (reads_of_chosen distinct gives.logLevel chosen)
    | jsonLogs => exact .flag .jsonLogs (reads_of_chosen distinct gives.jsonLogs chosen)
    | strictRequired =>
      exact .flag .strictRequired (reads_of_chosen distinct gives.strictRequired chosen)
  · rintro ⟨fits, known⟩
    cases resolved : resolve env keywords with
    | ok s => exact ⟨s, rfl⟩
    | error issues =>
      obtain ⟨some, invalid, complains, rfl⟩ := complains_of_resolve distinct plain resolved
      rw [complains.eq_nil fun setting _ => fits setting, unknown_eq_nil_iff.2 known] at some
      exact absurd rfl some

end Resolve

end MapperSchema.Settings
