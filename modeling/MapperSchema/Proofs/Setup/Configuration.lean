import MapperSchema.Setup

/-! Configuring the logging. A level may be named in any letter case; a name that nothing has is
refused before anything is changed, and that of something else once the root has a handler. -/
namespace MapperSchema

namespace Level

/-- The levels by their names in capitals. Two of them have a second name. -/
def table : List (String × Nat) :=
  [("NOTSET", 0), ("DEBUG", 10), ("INFO", 20), ("WARN", 30), ("WARNING", 30), ("ERROR", 40),
    ("CRITICAL", 50), ("FATAL", 50)]

theorem number?_eq_some_iff {name : String} {n : Nat} :
    number? name = some n ↔ (upper name, n) ∈ table := by
  unfold number?
  generalize upper name = u
  constructor
  · intro named
    unfold numberOfUpper? at named
    split at named <;> cases named <;> decide
  · intro mem
    simp only [table, List.mem_cons, Prod.mk.injEq, List.not_mem_nil, or_false] at mem
    rcases mem with ⟨rfl, rfl⟩ | ⟨rfl, rfl⟩ | ⟨rfl, rfl⟩ | ⟨rfl, rfl⟩ | ⟨rfl, rfl⟩ | ⟨rfl, rfl⟩ |
      ⟨rfl, rfl⟩ | ⟨rfl, rfl⟩ <;> rfl

/-- Nothing has the name, whatever the case of its letters. -/
structure Undefined (name : String) : Prop where
  level : ∀ n, (upper name, n) ∉ table
  other : upper name ∉ others

/-- Nothing that is defined beside the levels has the name of one. -/
theorem number?_of_other {name : String} (other : upper name ∈ others) : number? name = none := by
  unfold number?
  generalize upper name = u at other
  simp only [others, List.mem_cons, List.not_mem_nil, or_false] at other
  rcases other with rfl | rfl | rfl | rfl <;> rfl

theorem Undefined.number? {name : String} (h : Undefined name) : number? name = none := by
  rw [Option.eq_none_iff_forall_not_mem]
  intro n named
  exact h.level n (number?_eq_some_iff.1 named)

end Level

namespace Logging

/-- What comes of a level name where the output is not configured yet. -/
structure Configures {ρ : Type} (run : EStateM LevelFault Logging ρ) (done : ρ)
    (levelName : String) (renderer : Renderer) : Prop where
  level : ∀ n, (Level.upper levelName, n) ∈ Level.table →
    ∃ l, run {} = .ok done l ∧ l.setup? = some ⟨n, renderer⟩
  undefined : Level.Undefined levelName → ∀ l, l.output? = none → run l = .error .undefined l
  other : Level.upper levelName ∈ Level.others → ∀ l, l.output? = none →
    run l = .error .notLevel { l with handled := true }

/-- Events are written as JSON where this is asked for, and always in production. -/
def rendererFor (json : Bool) : Renderer := if json then .json else .console

variable {environment levelName : String} {jsonLogs : Bool}

theorem configure_of_number {n : Nat} (named : Level.number? levelName = some n) (l : Logging) :
    configure environment levelName jsonLogs l =
      .ok () { l.withHandler n with
        level := n
        output? := some
          ⟨rendererFor (jsonLogs || environment == Mode.production.name), true⟩ } := by
  unfold configure
  rw [named]
  rfl

theorem configure_of_undefined (undefined : Level.Undefined levelName) (l : Logging) :
    configure environment levelName jsonLogs l = .error .undefined l := by
  have noOther : Level.isOther levelName = false := by
    rw [Level.isOther, ← Bool.not_eq_true, List.contains_iff_mem]
    exact undefined.other
  unfold configure
  rw [undefined.number?]
  simp only [noOther]
  rfl

theorem configure_of_other (other : Level.upper levelName ∈ Level.others) (l : Logging) :
    configure environment levelName jsonLogs l = .error .notLevel { l with handled := true } := by
  have isOther : Level.isOther levelName = true := List.contains_iff_mem.2 other
  unfold configure
  rw [Level.number?_of_other other]
  simp only [isOther]
  rfl

/-- The level of the root shows where the package has none, and was set along with it. -/
theorem setup?_configured (n : Nat) (renderer : Renderer) :
    setup? { ({} : Logging).withHandler n with level := n, output? := some ⟨renderer, true⟩ } =
      some ⟨n, renderer⟩ := by
  by_cases notSet : n = 0
  · subst notSet
    rfl
  · have level : effectiveLevel { ({} : Logging).withHandler n with
        level := n, output? := some ⟨renderer, true⟩ } = n := if_neg notSet
    rw [setup?, level]
    rfl

theorem configure_configures (environment levelName : String) (jsonLogs : Bool) :
    Configures (configure environment levelName jsonLogs) () levelName
      (rendererFor (jsonLogs || environment == Mode.production.name)) where
  level n mem :=
    ⟨_, configure_of_number (Level.number?_eq_some_iff.2 mem) {}, setup?_configured n _⟩
  undefined undefined l _ := configure_of_undefined undefined l
  other other l _ := configure_of_other other l

theorem setUp_eq (s : Settings) (l : Logging) :
    setUp s l = (if l.output?.isSome then pure false
      else do
        configure s.environment.name s.logLevel (s.jsonLogs || s.isProduction)
        return true : EStateM LevelFault Logging Bool) l := rfl

/-- What is configured already is left as it is. -/
theorem setUp_of_configured {l : Logging} (configured : l.output?.isSome) (s : Settings) :
    setUp s l = .ok false l := by
  rw [setUp_eq, if_pos configured]
  rfl

theorem setUp_of_unconfigured {l : Logging} (unconfigured : l.output? = none) (s : Settings) :
    setUp s l = match configure s.environment.name s.logLevel (s.jsonLogs || s.isProduction) l with
      | .ok _ l' => .ok true l'
      | .error f l' => .error f l' := by
  have none : ¬l.output?.isSome := by simp [unconfigured]
  rw [setUp_eq, if_neg none]
  change EStateM.bind _ _ l = _
  rw [EStateM.bind]
  cases configure s.environment.name s.logLevel (s.jsonLogs || s.isProduction) l <;> rfl

theorem setUp_configures (s : Settings) :
    Configures (setUp s) true s.logLevel (rendererFor (s.jsonLogs || s.isProduction)) := by
  have production : (s.environment.name == Mode.production.name) = s.isProduction := by
    unfold Settings.isProduction
    cases s.environment <;> rfl
  have configures := configure_configures s.environment.name s.logLevel
    (s.jsonLogs || s.isProduction)
  rw [production, Bool.or_assoc, Bool.or_self] at configures
  constructor
  case level =>
    intro n mem
    obtain ⟨l, ran, setup⟩ := configures.level n mem
    refine ⟨l, ?_, setup⟩
    rw [setUp_of_unconfigured rfl, ran]
  case undefined =>
    intro undefined l unconfigured
    rw [setUp_of_unconfigured unconfigured, configures.undefined undefined l unconfigured]
  case other =>
    intro other l unconfigured
    rw [setUp_of_unconfigured unconfigured, configures.other other l unconfigured]

end Logging

end MapperSchema
