import MapperSchema.Proofs.Compiler.Attachment
import MapperSchema.Proofs.Setup.Configuration

/-! Compiles under a setup. The setup has no part in what a compile gives, and of the events that
there are it keeps those at its level or above. -/
namespace MapperSchema

/-- The event is at this level or above. -/
def Entry.atLeast (level : Nat) (e : Entry) : Bool := level ≤ e.event.severity.number

/-- Of all that is reported only a failure is above the level of a success. -/
theorem Entry.atLeast_eq_false {level : Nat} (above : 20 < level) {e : Entry}
    (fine : e.event.severity ≠ .error) : e.atLeast level = false := by
  have low : e.event.severity.number ≤ 20 := by
    cases kind : e.event.severity with
    | error => exact absurd kind fine
    | debug | info => decide
  exact decide_eq_false (Nat.not_le_of_gt (Nat.lt_of_le_of_lt low above))

/-- A run under setups: what it gives, the context variables that it leaves and the session do not
depend on the setup, and of all that is written under one that keeps everything, the entries at its
level or above are written, in order. -/
structure Setup.Filters {ρ : Type} (run : Session → ρ × Session) (s : Session) : Prop where
  result : ∀ setup setup' : Setup, (setup.observe run s).1 = (setup'.observe run s).1
  context : ∀ setup : Setup, (setup.observe run s).2.1.context = s.journal.context
  session : ∀ setup setup' : Setup, (setup.observe run s).2.2 = (setup'.observe run s).2.2
  entries : ∀ setup everything : Setup, everything.threshold = 0 →
    (setup.observe run s).2.1.entries =
      (everything.observe run s).2.1.entries.filter (Entry.atLeast setup.threshold)

namespace Compiler

variable {c : Compiler} {node : Node} {options : SchemaOptions}

/-- How the compile of a root ends, and all that it writes in the context of its caller. Options
that cannot be read are not reported. -/
def reported (c : Compiler) (node : Node) (options : SchemaOptions) (ctx : Context) :
    Except Fault Schema × List Entry :=
  match options.read with
  | .ok a => (c.result node (some a) [], c.written node a ctx)
  | .error issues => (.error (.invalidOptions issues), [])

theorem reported_of_read {a : Annotation} (read : options.read = .ok a) (ctx : Context) :
    c.reported node options ctx = (c.result node (some a) [], c.written node a ctx) := by
  rw [reported, read]

theorem reported_of_unread {issues : List Issue} (unread : options.read = .error issues)
    (ctx : Context) : c.reported node options ctx = (.error (.invalidOptions issues), []) := by
  rw [reported, unread]

theorem compile_run (c : Compiler) (node : Node) (options : SchemaOptions) (j : Journal) :
    c.compile node options j = ending (c.reported node options j.context).1
      (j.addAll (c.reported node options j.context).2) := by
  cases read : options.read with
  | ok a =>
    rw [compile_of_read read, reported_of_read read]
    exact c.compileUnder_run node a j
  | error issues =>
    rw [compile_of_unread read, reported_of_unread read, Journal.addAll_nil]
    rfl

/-- Above the level of a success only the failure is left of what a compile writes. -/
theorem filter_written {level : Nat} (above : 20 < level) (node : Node) (a : Annotation)
    (ctx : Context) : (c.written node a ctx).filter (Entry.atLeast level) =
      match c.result node (some a) [] with
      | .ok _ => []
      | .error f => if level ≤ 40 then [⟨.failed "compile_schema" f, ctx⟩] else [] := by
  have silent : ∀ es : List Entry, (∀ e ∈ es, e.event.severity ≠ .error) →
      es.filter (Entry.atLeast level) = [] := by
    intro es fine
    rw [List.filter_eq_nil_iff]
    intro e mem
    rw [Entry.atLeast_eq_false above (fine e mem)]
    exact nofun
  have visits : ∀ e ∈ (c.reached (c.rootVisits node (some a) [])).map (c.entryOf ctx),
      e.event.severity ≠ .error := by
    intro e mem
    obtain ⟨v, -, rfl⟩ := List.mem_map.1 mem
    cases v <;> exact nofun
  have start : opening.severity ≠ .error := by decide
  rw [written, List.filter_append, silent _ (List.forall_mem_cons.2 ⟨start, visits⟩),
    List.nil_append]
  cases c.result node (some a) [] with
  | ok d =>
    refine silent _ fun e mem => ?_
    rcases List.mem_pair.1 mem with rfl | rfl <;> exact nofun
  | error f =>
    have kept : Entry.atLeast level ⟨.failed "compile_schema" f, ctx⟩ = decide (level ≤ 40) := rfl
    by_cases within : level ≤ 40 <;> simp [closing, kept, within]

variable {level : Nat} {ctx : Context}

theorem filter_reported_of_ok (above : 20 < level) {d : Schema}
    (ok : (c.reported node options ctx).1 = .ok d) :
    (c.reported node options ctx).2.filter (Entry.atLeast level) = [] := by
  cases read : options.read with
  | ok a =>
    rw [reported_of_read read] at ok ⊢
    have ok : c.result node (some a) [] = .ok d := ok
    rw [filter_written above, ok]
  | error issues =>
    rw [reported_of_unread read] at ok
    cases ok

theorem filter_reported_of_error (above : 20 < level) (within : level ≤ 40) {a : Annotation}
    (read : options.read = .ok a) {f : Fault}
    (failed : (c.reported node options ctx).1 = .error f) :
    (c.reported node options ctx).2.filter (Entry.atLeast level) =
      [⟨.failed "compile_schema" f, ctx⟩] := by
  rw [reported_of_read read] at failed ⊢
  have failed : c.result node (some a) [] = .error f := failed
  rw [filter_written above, failed]
  exact if_pos within

theorem filter_reported_of_above (above : 40 < level) :
    (c.reported node options ctx).2.filter (Entry.atLeast level) = [] := by
  cases read : options.read with
  | ok a =>
    rw [reported_of_read read, filter_written (Nat.lt_trans (by decide) above)]
    cases c.result node (some a) [] with
    | ok d => rfl
    | error f => exact if_neg (Nat.not_le_of_gt above)
  | error issues =>
    rw [reported_of_unread read]
    rfl

end Compiler

namespace Authoring

/-- All that an observed compile gives: the session keeps its journal, and the new journal has what
is reported at the level of the setup or above. -/
theorem observe_compile (setup : Setup) (r : Option String) (strict : Bool) (node : Node)
    (options : SchemaOptions) (s : Session) :
    let reported := (⟨s.store r, strict⟩ : Compiler).reported node options s.journal.context
    setup.observe (outcome (compile r strict node options)) s = (reported.1,
      ⟨setup.threshold, s.journal.context, reported.2.filter (Entry.atLeast setup.threshold)⟩,
      s) := by
  intro reported
  let j : Journal := { threshold := setup.threshold, context := s.journal.context }
  have store : ({ s with journal := j } : Session).store r = s.store r := by cases r <;> rfl
  have ran := (⟨s.store r, strict⟩ : Compiler).compile_run node options j
  have compiled : outcome (compile r strict node options) { s with journal := j } =
      (reported.1, { s with journal := j.addAll reported.2 }) := by
    rw [outcome_compile, store]
    exact congrArg₂ Prod.mk (Traced.outcome_of_run ran)
      (congrArg (fun j => { s with journal := j }) (Traced.journal_of_run ran))
  exact congrArg (fun out : Except Fault Schema × Session =>
    (out.1, out.2.journal, { out.2 with journal := s.journal })) compiled

theorem compile_filters (r : Option String) (strict : Bool) (node : Node) (options : SchemaOptions)
    (s : Session) : Setup.Filters (outcome (compile r strict node options)) s where
  result setup setup' := by rw [observe_compile, observe_compile]
  context setup := by rw [observe_compile]
  session setup setup' := by rw [observe_compile, observe_compile]
  entries setup everything all := by
    rw [observe_compile, observe_compile, all]
    have kept : ∀ es : List Entry, es.filter (Entry.atLeast 0) = es := by
      simp [List.filter_eq_self, Entry.atLeast]
    rw [kept]

/-- The logging does not interfere. Under any two setups a compile gives the same and leaves the
same context variables; what is written under one is what is written under one that keeps
everything, less the events below its level. Above the level of a success only a failure is
written, and above that of a failure nothing. A setup comes of every name of a level; a name that is
not defined changes nothing, and one of something else leaves no more than a handler. -/
theorem logging_noninterfering (r : Option String) (strict : Bool) (node : Node)
    (options : SchemaOptions) (s : Session) :
    let run := outcome (compile r strict node options)
    Setup.Filters run s ∧
      (∀ setup : Setup, 20 < setup.threshold → ∀ d, (setup.observe run s).1 = .ok d →
        (setup.observe run s).2.1.entries = []) ∧
      (∀ setup : Setup, 20 < setup.threshold → setup.threshold ≤ 40 →
        ∀ a f, options.read = .ok a → (setup.observe run s).1 = .error f →
          (setup.observe run s).2.1.entries =
            [⟨.failed "compile_schema" f, s.journal.context⟩]) ∧
      (∀ setup : Setup, 40 < setup.threshold → (setup.observe run s).2.1.entries = []) ∧
      (∀ environment levelName jsonLogs,
        Logging.Configures (Logging.configure environment levelName jsonLogs) () levelName
          (Logging.rendererFor (jsonLogs || environment == Mode.production.name))) ∧
      (∀ settings : Settings, Logging.Configures (Logging.setUp settings) true settings.logLevel
        (Logging.rendererFor (settings.jsonLogs || settings.isProduction))) ∧
      ∀ settings l, l.output?.isSome → Logging.setUp settings l = .ok false l := by
  intro run
  refine ⟨compile_filters r strict node options s, ?ok, ?error, ?above,
    Logging.configure_configures, Logging.setUp_configures,
    fun settings l configured => Logging.setUp_of_configured configured settings⟩
  case ok =>
    intro setup above d
    rw [observe_compile]
    exact Compiler.filter_reported_of_ok above
  case error =>
    intro setup above within a f read
    rw [observe_compile]
    exact Compiler.filter_reported_of_error above within read
  case above =>
    intro setup above
    rw [observe_compile]
    exact Compiler.filter_reported_of_above above

/-- At the level of warnings, here in small letters, a field that nothing fits is reported by one
event. -/
theorem logging_noninterfering_warning :
    let run := outcome (compile none false (.base 1 (.object [("none", .base 0 .never)]))
      (.untyped .null))
    let setup : Setup := ⟨30, .console⟩
    (∃ l, Logging.configure "testing" "warning" false {} = .ok () l ∧ l.setup? = some setup) ∧
      ∃ f, (setup.observe run {}).1 = .error f ∧
        (setup.observe run {}).2.1.entries = [⟨.failed "compile_schema" f, ∅⟩] := by
  intro run setup
  obtain ⟨-, -, failure, -, configures, -⟩ := logging_noninterfering none false
    (.base 1 (.object [("none", .base 0 .never)])) (.untyped .null) {}
  refine ⟨(configures "testing" "warning" false).level 30 (by decide), _, rfl, ?_⟩
  exact failure setup (by decide) (by decide) ∅ _ rfl rfl

end Authoring

end MapperSchema
