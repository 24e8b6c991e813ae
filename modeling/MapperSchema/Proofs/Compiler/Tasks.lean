import Mathlib.Logic.Relation
import MapperSchema.Proofs.Compiler.Compiled
import MapperSchema.Proofs.Journal.Beginning

/-! The tasks of a compile. A document has the compile of its root for a part, an object those of
its entries one after the other, and a field that of the object or element which it is made of. -/
namespace MapperSchema.Compiler

inductive Task where
  | document (node : Node) (options : SchemaOptions)
  | object (node : Node) (extra : Option Annotation) (path : Path)
  | field (node : Node) (a : Option Annotation) (name : Option String) (path : Path)

def Task.Result : Task → Type
  | .document .. => Schema
  | .object .. => Schema
  | .field .. => Field

def Task.run (c : Compiler) : (task : Task) → Traced task.Result
  | .document node options => c.compile node options
  | .object node extra path => c.schema node extra path
  | .field node a name path => c.field node a name path

/-- What is around the compile of a root in that of a document. -/
def aroundRoot (schema : Traced Schema) : Traced Schema :=
  Operation.watch "compile_schema" fun operation => do
    let schema ← schema
    operation.progress "Schema compiled" (Table.single "field_count" (.int schema.size))
    return schema

/-- What is around the compile of an entry in that of an object, between entries of the object. -/
def aroundEntry (c : Compiler) (path : Path) (a : Annotation) (before : List (String × Node))
    (name : String) (after : List (String × Node)) (field : Traced Field) : Traced Schema :=
  assemble path a do
    let first ← c.entries path a before
    let field ← field
    let rest ← c.entries path a after
    return first ++ (name, field) :: rest

/-- What is around the compile of that of which a field is made. -/
def aroundInside {α : Type} (c : Compiler) (node : Node) (a : Option Annotation)
    (name : Option String) (path : Path) (type : α → FieldType) (inside : Traced α) :
    Traced Field := do
  let x ← inside
  c.finish path (overridesFor a name) node (type x)

/-- The run of one task is that of another with something around it. An object inside a field has no
annotation but its own, and an element none. -/
inductive Part (c : Compiler) :
    (whole part : Task) → (Traced part.Result → Traced whole.Result) → Prop
  | root {node options a} (valid : SchemaOptions.read options = .ok a) :
    Part c (.document node options) (.object node (some a) []) aroundRoot
  | entry {node extra path before name entry after}
    (base : node.unwrap.form = .object (before ++ (name, entry) :: after)) :
    Part c (.object node extra path)
      (.field entry (some (c.effective node.unwrap.id extra)) (some name) (path ++ [name]))
      (c.aroundEntry path (c.effective node.unwrap.id extra) before name after)
  | inner {node a name path shape} (base : node.unwrap.form = .object shape) :
    Part c (.field node a name path) (.object node.unwrap.base none path)
      (c.aroundInside node a name path .document)
  | element {node a name path element} (base : node.unwrap.form = .array element) :
    Part c (.field node a name path) (.field element none none (path ++ [Path.element]))
      (c.aroundInside node a name path .array)

/-- A task with the journal at the moment of its beginning. -/
abbrev Moment := Task × Journal

/-- On its way a task begins one of its parts. -/
inductive Starts (c : Compiler) : Moment → Moment → Prop
  | part {whole part around j j'} (h : c.Part whole part around)
    (begins : Traced.Begins around j j') : Starts c (whole, j) (part, j')

variable {c : Compiler} {path : Path} {a : Annotation} {node : Node} {extra : Option Annotation}

theorem schema_eq {shape : List (String × Node)} (base : node.unwrap.form = .object shape) :
    c.schema node extra path = assemble path (c.effective node.unwrap.id extra)
      (c.entries path (c.effective node.unwrap.id extra) shape) := by
  simp only [schema, base]
  rfl

theorem entries_append (before after : List (String × Node)) :
    c.entries path a (before ++ after) = (do
      let fields ← c.entries path a before
      return fields ++ (← c.entries path a after)) := by
  induction before with
  | nil => simp only [List.nil_append, entries, pure_bind, bind_pure]
  | cons entry before ih =>
    rw [List.cons_append, entries_cons, entries_cons, ih]
    simp only [bind_assoc, pure_bind, List.cons_append]

theorem schema_eq_aroundEntry {before after : List (String × Node)} {name : String} {entry : Node}
    (base : node.unwrap.form = .object (before ++ (name, entry) :: after)) :
    c.schema node extra path =
      c.aroundEntry path (c.effective node.unwrap.id extra) before name after
        (c.field entry (some (c.effective node.unwrap.id extra)) (some name) (path ++ [name])) := by
  have single (a : Annotation) : c.fieldRun (entryAt path a (name, entry)) =
      c.field entry (some a) (some name) (path ++ [name]) := rfl
  rw [schema_eq base, aroundEntry, entries_append, entries_cons, single]
  simp only [bind_assoc, pure_bind]

theorem field_eq_aroundInside_object {shape : List (String × Node)}
    (base : node.unwrap.form = .object shape) (a : Option Annotation) (name : Option String)
    (path : Path) : c.field node a name path =
      c.aroundInside node a name path .document (c.schema node.unwrap.base none path) := by
  have inner : c.schema node.unwrap.base none path =
      assemble path (c.store.annotationAt node.unwrap.id)
        (c.entries path (c.store.annotationAt node.unwrap.id) shape) := by
    have bare : node.unwrap.base.unwrap.form = .object shape := base
    rw [schema_eq bare, effective_none]
    rfl
  rw [field, nodeType_object c path base, aroundInside, inner]
  simp only [bind_assoc, pure_bind]

theorem field_eq_aroundInside_array {element : Node} (base : node.unwrap.form = .array element)
    (a : Option Annotation) (name : Option String) (path : Path) : c.field node a name path =
      c.aroundInside node a name path .array
        (c.field element none none (path ++ [Path.element])) := by
  rw [field, nodeType_array c path base, aroundInside]
  simp only [bind_assoc, pure_bind]
  rfl

theorem Part.run_eq {whole part : Task} {around : Traced part.Result → Traced whole.Result}
    (h : c.Part whole part around) : whole.run c = around (part.run c) := by
  cases h with
  | root valid => exact compile_of_read valid c _
  | entry base => exact schema_eq_aroundEntry base
  | inner base => exact field_eq_aroundInside_object base ..
  | element base => exact field_eq_aroundInside_array base ..

/-- What fails in a task that was begun is what the task that began it fails with. -/
theorem Starts.fails {m m' : Moment} (h : c.Starts m m') {f : Fault}
    (failed : (m'.1.run c).outcome m'.2 = .error f) : (m.1.run c).outcome m.2 = .error f := by
  cases h with
  | part h begins =>
    rw [h.run_eq]
    exact begins _ f failed

theorem fails_of_reached {m m' : Moment} (h : Relation.ReflTransGen c.Starts m m') {f : Fault}
    (failed : (m'.1.run c).outcome m'.2 = .error f) : (m.1.run c).outcome m.2 = .error f := by
  induction h with
  | refl => exact failed
  | tail _ step ih => exact ih (step.fails failed)

/-- An entry is begun after those before it have been compiled with the path of the object bound,
with the journal that they leave. -/
theorem begins_aroundEntry_iff {before after : List (String × Node)} {name : String}
    {j j' : Journal} : Traced.Begins (c.aroundEntry path a before name after) j j' ↔
      ∃ fields, c.entries path a before { j with context := j.context.under (some path) } =
        .ok fields j' := by
  let bound : Journal := { j with context := j.context.under (some path) }
  let rest (first : List (String × Field)) (field : Field) : Traced (List (String × Field)) := do
    let fields := first ++ (name, field) :: (← c.entries path a after)
    Traced.emit (.schemaCompiled (fields.map (·.1)))
    return fields
  have shape : c.aroundEntry path a before name after = fun field =>
      Traced.within (Table.single "schema_path" (.text path.location))
        (c.entries path a before >>= fun first => field >>= rest first) >>= fun fields =>
          pure (⟨path, fields, a.finalOptions, a.unknownKeys⟩ : Schema) := by
    funext field
    simp only [aroundEntry, assemble, rest, bind_assoc, pure_bind]
  rw [shape, Traced.begins_map_iff, Traced.begins_within_iff, Traced.begins_after_iff]
  simp only [Traced.begins_first_iff]
  constructor
  · rintro ⟨fields, i, done, rfl⟩
    exact ⟨fields, done⟩
  · rintro ⟨fields, done⟩
    exact ⟨fields, j', done, rfl⟩

theorem begins_aroundRoot_iff {j j' : Journal} :
    Traced.Begins aroundRoot j j' ↔ j' = j.addAll [⟨opening, j.context⟩] :=
  (Traced.begins_watch_iff ..).trans (Traced.begins_first_iff _)

theorem begins_aroundInside_iff {α : Type} {a : Option Annotation} {name : Option String}
    {type : α → FieldType} {j j' : Journal} :
    Traced.Begins (c.aroundInside node a name path type) j j' ↔ j' = j := Traced.begins_first_iff _

/-- A task that does not fail begins all its parts. -/
theorem Part.starts {whole part : Task} {around : Traced part.Result → Traced whole.Result}
    (h : c.Part whole part around) {j : Journal} (good : ∀ f, (whole.run c).outcome j ≠ .error f) :
    ∃ j', c.Starts (whole, j) (part, j') := by
  cases h with
  | root valid => exact ⟨_, .part (.root valid) (begins_aroundRoot_iff.2 rfl)⟩
  | inner base => exact ⟨_, .part (.inner base) (begins_aroundInside_iff.2 rfl)⟩
  | element base => exact ⟨_, .part (.element base) (begins_aroundInside_iff.2 rfl)⟩
  | @entry node extra path before name entry after base =>
    let bound : Journal := { j with context := j.context.under (some path) }
    cases walked : c.entries path (c.effective node.unwrap.id extra) before bound with
    | ok fields j' =>
      exact ⟨j', .part (.entry base) (begins_aroundEntry_iff.2 ⟨fields, walked⟩)⟩
    | error f j' =>
      have stopped : (c.entries path (c.effective node.unwrap.id extra) before).outcome bound =
          .error f := by rw [Traced.outcome, walked]
      have failed : (c.schema node extra path).outcome j = .error f := by
        rw [schema_eq base, entries_append]
        apply Traced.outcome_bind_of_error
        rw [Traced.outcome_within]
        exact Traced.outcome_bind_of_error _ (Traced.outcome_bind_of_error _ stopped)
      exact absurd failed (good f)

end MapperSchema.Compiler
