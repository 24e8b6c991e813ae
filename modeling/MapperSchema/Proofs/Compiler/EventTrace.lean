import Mathlib.Data.List.Basic
import MapperSchema.Proofs.Compiler.Failure
import MapperSchema.Proofs.Compiler.Root
import MapperSchema.Proofs.Schema.Walk

/-! The journal of a compile: a start, the walk of the definition, and the end. If the compile
fails, the walk stops before the first faulty position. -/
namespace MapperSchema.Compiler

variable {c : Compiler}

/-- The end of a field is written after what was written inside it. -/
theorem map_entryOf_fieldVisits {home : Path} {p : Position} (ctx : Context)
    (h : (c.visits (some home) p.path p.node).map (c.entryOf ctx) =
      ((c.typeOf p.path p.node).walk home).map (Step.entry ctx)) :
    (c.fieldVisits (some home) p).map (c.entryOf ctx) =
      ((c.fieldOf p).walk home).map (Step.entry ctx) := by
  rw [fieldVisits, List.map_append, h, fieldOf, fieldAt, Field.walk, List.map_append]
  rfl

theorem map_entryOf_schemaVisits {path : Path} {a : Annotation} {shape : List (String × Node)}
    (ctx : Context)
    (h : ∀ entry ∈ shape, (c.fieldVisits (some path) (entryAt path a entry)).map (c.entryOf ctx) =
      ((c.fieldOf (entryAt path a entry)).walk path).map (Step.entry ctx)) :
    (c.schemaVisits path a shape).map (c.entryOf ctx) =
      (c.schemaOf path a shape).walk.map (Step.entry ctx) := by
  have fields : (c.entryVisits path a shape).map (c.entryOf ctx) =
      (fieldsWalk path (c.fieldsOf path a shape)).map (Step.entry ctx) := by
    rw [entryVisits_eq_flatMap, fieldsWalk_eq_flatMap, fieldsOf_eq_map, List.flatMap_map,
      List.map_flatMap, List.map_flatMap]
    exact List.flatMap_congr h
  rw [schemaVisits, List.map_append, fields, schemaOf, Schema.walk, List.map_append, names_fieldsOf]
  rfl

/-- What the visits of a node write is the walk of its type. -/
theorem map_entryOf_visits (home path : Path) (node : Node) (ctx : Context) :
    (c.visits (some home) path node).map (c.entryOf ctx) =
      ((c.typeOf path node).walk home).map (Step.entry ctx) := by
  induction node using Node.inductUnwrapped generalizing home path with
  | object node shape base ih =>
    rw [visits_object c (some home) path base, typeOf_object c path base, FieldType.walk]
    exact map_entryOf_schemaVisits ctx fun entry mem =>
      map_entryOf_fieldVisits ctx (ih entry mem path (path ++ [entry.1]))
  | array node element base ih =>
    rw [visits_array c (some home) path base, typeOf_array c path base, FieldType.walk]
    exact map_entryOf_fieldVisits ctx (ih home (path ++ [Path.element]))
  | leaf node leaf =>
    rw [visits_leaf c (some home) path leaf, typeOf_leaf c path leaf, FieldType.walk]
    rfl

/-- The walk of the definition that comes if no position is faulty. -/
def outlineWalk (c : Compiler) (node : Node) (extra : Option Annotation) (path : Path) :
    List Step :=
  match node.unwrap.form with
  | .object shape => (c.schemaOf path (c.effective node.unwrap.id extra) shape).walk
  | _ => []

theorem map_entryOf_rootVisits (c : Compiler) (node : Node) (extra : Option Annotation)
    (path : Path) (ctx : Context) :
    (c.rootVisits node extra path).map (c.entryOf ctx) =
      (c.outlineWalk node extra path).map (Step.entry ctx) := by
  unfold rootVisits outlineWalk
  cases base : node.unwrap.form with
  | object shape =>
    exact map_entryOf_schemaVisits ctx fun entry _ =>
      map_entryOf_fieldVisits ctx (map_entryOf_visits path (path ++ [entry.1]) entry.2 ctx)
  | _ => rfl

section Root

variable {node : Node} {extra : Option Annotation} {path : Path}

/-- A compile that succeeds makes all visits, and they are the walk of what it gives. -/
theorem map_entryOf_reached_of_ok {d : Schema} (h : c.result node extra path = .ok d)
    (ctx : Context) : (c.reached (c.rootVisits node extra path)).map (c.entryOf ctx) =
      d.walk.map (Step.entry ctx) := by
  obtain ⟨shape, base, good, rfl⟩ := result_eq_ok_iff.1 h
  have none : c.firstFault? (c.rootVisits node extra path) = none :=
    firstFault?_eq_none_iff.2 fun p mem => good p (mem_positions_rootVisits_iff.1 mem)
  rw [reached_of_none none, map_entryOf_rootVisits, outlineWalk, base]

/-- What the first visits write is as much of the walk. -/
theorem map_entryOf_before {before after : List Visit}
    (h : c.rootVisits node extra path = before ++ after) (ctx : Context) :
    before.map (c.entryOf ctx) =
      ((c.outlineWalk node extra path).take before.length).map (Step.entry ctx) := by
  have length : (before.map (c.entryOf ctx)).length = before.length := List.length_map _
  rw [List.map_take, ← map_entryOf_rootVisits, h, List.map_append, List.take_left' length]

/-- A compile that fails makes the visits before the first faulty position. -/
theorem reached_of_error {f : Fault} (h : c.result node extra path = .error f) :
    (node.unwrap.form.kind ≠ .object ∧ f = .notObject node.unwrap.form.kind path ∧
      c.reached (c.rootVisits node extra path) = []) ∨
    ∃ before home p after, c.rootVisits node extra path = before ++ .field home p :: after ∧
      (∀ q ∈ positions before, ¬ c.Faulty q) ∧ c.Faulty p ∧ c.Reports p f ∧
      c.reached (c.rootVisits node extra path) = before := by
  rcases result_eq_error_iff.1 h with ⟨kind, hf⟩ | first
  · refine .inl ⟨kind, hf, ?_⟩
    unfold rootVisits
    cases base : node.unwrap.form with
    | object shape => exact absurd (by rw [base]; rfl) kind
    | _ => rfl
  · obtain ⟨before, v, after, hl, hv, hb⟩ := List.findSome?_eq_some_iff.1 first
    have none : c.firstFault? before = none := List.findSome?_eq_none_iff.2 hb
    cases v with
    | schema path names => cases hv
    | field home p =>
      have hr : c.reached (before ++ .field home p :: after) = before := by
        rw [reached_append_of_none none, reached, List.takeWhile_cons, hv]
        simp
      obtain ⟨bad, reports⟩ := fault?_eq_some_iff.1 hv
      exact .inr ⟨before, home, p, after, hl, firstFault?_eq_none_iff.1 none, bad, reports,
        by rw [hl, hr]⟩

end Root

/-- The reports of a compile without a context: a start, steps, and how it ended. -/
def report (steps : List Step) (r : Except Fault Schema) : List Entry :=
  ⟨opening, ∅⟩ :: steps.map (Step.entry ∅) ++ (closing r).map (⟨·, ∅⟩)

/-- A line that is written outside of the walk. -/
def rootLine (details : Line) : String → String → Line :=
  logLine none (("operation", .value (.text "compile_schema")) :: details)

/-- What is said of the end: the number of fields of a definition, or the fault. -/
def closingLines : Except Fault Schema → List Line
  | .ok d => [rootLine [("field_count", .value (.int d.fields.length))] "Schema compiled" "debug",
      rootLine [("duration_ms", .measured)] "Compilation completed" "info"]
  | .error f => [rootLine [("duration_ms", .measured), ("error", .value (.text f.message)),
      ("error_type", .value (.text f.name))] "Compilation failed" "error"]

/-- The lines of a compile without a context. Those of the steps have the place of the step. -/
def reportLines (steps : List Step) (r : Except Fault Schema) : List Line :=
  rootLine [] "Compilation started" "debug" :: steps.map Step.line ++ closingLines r

theorem rows_record_report (steps : List Step) (r : Except Fault Schema) :
    (report steps r).map (·.record.rows) = reportLines steps r := by
  have start : (⟨opening, ∅⟩ : Entry).record.rows = rootLine [] "Compilation started" "debug" := rfl
  have walk : (steps.map (Step.entry ∅)).map (·.record.rows) = steps.map Step.line := by
    rw [List.map_map]
    exact List.map_congr_left fun s _ => s.rows_record_entry
  have ends : ((closing r).map (⟨·, ∅⟩ : Event → Entry)).map (·.record.rows) = closingLines r := by
    cases r <;> rfl
  rw [report, List.map_append, List.map_cons, start, walk, ends]
  rfl

/-- The run adds these lines to the journal. -/
def Writes {α : Type} (run : Traced α) (j : Journal) (lines : List Line) : Prop :=
  ∃ es, (run.journal j).entries = j.entries ++ es ∧ es.map (·.record.rows) = lines

/-- With nothing bound and nothing left out, a compile that succeeds writes the lines of the walk of
the definition between those of its start and of its end. One that fails writes as much of the walk
as comes before the first faulty position, and the fault. -/
theorem compile_entries (c : Compiler) (node : Node) {options : SchemaOptions} {a : Annotation}
    {j : Journal} (valid : options.read = .ok a) (all : j.threshold = 0) (fresh : j.context = ∅) :
    let run := c.compile node options
    (∀ d, run.outcome j = .ok d → Writes run j (reportLines d.walk (.ok d))) ∧
    (∀ f, run.outcome j = .error f → ∃ n,
      Writes run j (reportLines ((c.outlineWalk node (some a) []).take n) (.error f)) ∧
      (n = 0 ∧ node.unwrap.form.kind ≠ .object ∧ f = .notObject node.unwrap.form.kind [] ∨
        ∃ before home p after, c.rootVisits node (some a) [] = before ++ .field home p :: after ∧
          before.length = n ∧ (∀ q ∈ positions before, ¬ c.Faulty q) ∧ c.Faulty p ∧
          c.Reports p f)) ∧
    (run.journal j).context = ∅ := by
  intro run
  have outcome : run.outcome j = c.result node (some a) [] := compile_outcome valid c node j
  have journal : run.journal j = j.addAll (c.written node a ∅) := by
    rw [← fresh]
    exact compile_journal valid c node j
  have entries : (run.journal j).entries = j.entries ++ c.written node a ∅ := by
    rw [journal, Journal.entries_addAll_of_zero all]
  have writes {steps : List Step} {r : Except Fault Schema}
      (h : c.written node a ∅ = report steps r) : Writes run j (reportLines steps r) := by
    rw [h] at entries
    exact ⟨_, entries, rows_record_report steps r⟩
  refine ⟨?_, ?_, ?_⟩
  · intro d hd
    rw [outcome] at hd
    apply writes
    rw [written, map_entryOf_reached_of_ok hd, hd]
    rfl
  · intro f hf
    rw [outcome] at hf
    rcases reached_of_error hf with
      ⟨kind, other, none⟩ | ⟨before, home, p, after, hl, good, bad, reports, reach⟩
    · refine ⟨0, writes ?_, .inl ⟨rfl, kind, other⟩⟩
      rw [written, none, hf]
      rfl
    · refine ⟨before.length, writes ?_, .inr ⟨before, home, p, after, hl, rfl, good, bad, reports⟩⟩
      rw [written, reach, map_entryOf_before hl, hf]
      rfl
  · rw [journal, Journal.context_addAll, fresh]

/-- A document with one list of texts, whose element stays with the document. -/
theorem compile_entries_tags :
    let node : Node := .base 2 (.object [("tags", .base 1 (.array (.base 0 (.scalar .string))))])
    let run := ({} : Compiler).compile node (.untyped .null)
    let tag : Step := .field [] ["tags", "$"] [.text "required"]
    let tags : Step := .field [] ["tags"] [.text "required", .text "default"]
    ((SchemaOptions.untyped .null).read = .ok ∅ ∧ ({} : Journal).threshold = 0 ∧
        ({} : Journal).context = ∅) ∧
      ∃ d, run.outcome {} = .ok d ∧
        Writes run {} (reportLines [tag, tags, .schema [] ["tags"]] (.ok d)) := by
  intro node run tag tags
  have valid : (SchemaOptions.untyped .null).read = .ok ∅ := rfl
  obtain ⟨d, hd, walk⟩ : ∃ d, run.outcome {} = .ok d ∧ d.walk = [tag, tags, .schema [] ["tags"]] :=
    ⟨_, rfl, rfl⟩
  have writes := (compile_entries {} node valid (j := {}) rfl rfl).1 d hd
  rw [walk] at writes
  exact ⟨⟨valid, rfl, rfl⟩, d, hd, writes⟩

end MapperSchema.Compiler
