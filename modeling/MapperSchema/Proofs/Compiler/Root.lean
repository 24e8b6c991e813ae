import MapperSchema.Proofs.Compiler.Run

/-! The compile of a document's root. Once its options are read it is reported from start to end:
the start, the visits that are reached, and how it ended. -/
namespace MapperSchema.Compiler

/-- The compile of a root whose options have been read. -/
def compileUnder (c : Compiler) (node : Node) (a : Annotation) : Traced Schema :=
  Operation.watch "compile_schema" fun operation => do
    let schema ← c.schema node (some a) []
    operation.progress "Schema compiled" (Table.single "field_count" (.int schema.size))
    return schema

theorem compile_of_read {options : SchemaOptions} {a : Annotation} (h : options.read = .ok a)
    (c : Compiler) (node : Node) : c.compile node options = c.compileUnder node a := by
  unfold compile
  rw [h]
  rfl

/-- Options that cannot be read are refused before anything is reported. -/
theorem compile_of_unread {options : SchemaOptions} {issues : List Issue}
    (h : options.read = .error issues) (c : Compiler) (node : Node) :
    c.compile node options = throw (.invalidOptions issues) := by
  unfold compile
  rw [h]
  rfl

/-- A document's root compiles as its schema does. -/
theorem compile_congr {c d : Compiler} {node node' : Node} (options : SchemaOptions)
    (h : ∀ a, c.schema node (some a) [] = d.schema node' (some a) []) :
    c.compile node options = d.compile node' options := by
  unfold compile
  simp only [h]

def opening : Event := .started "compile_schema"

def counted (schema : Schema) : Event :=
  .progress "compile_schema" "Schema compiled" (Table.single "field_count" (.int schema.size))

/-- What is reported after the visits. -/
def closing : Except Fault Schema → List Event
  | .ok schema => [counted schema, .completed "compile_schema"]
  | .error f => [.failed "compile_schema" f]

/-- All that the compile of a root writes, in the context of its caller. -/
def written (c : Compiler) (node : Node) (a : Annotation) (ctx : Context) : List Entry :=
  ⟨opening, ctx⟩ :: (c.reached (c.rootVisits node (some a) [])).map (c.entryOf ctx) ++
    (closing (c.result node (some a) [])).map (⟨·, ctx⟩)

/-- The whole run of a root with its reports: how it ends, and what it writes. -/
theorem compileUnder_run (c : Compiler) (node : Node) (a : Annotation) (j : Journal) :
    c.compileUnder node a j =
      ending (c.result node (some a) []) (j.addAll (c.written node a j.context)) := by
  have hs := c.schema_run node (some a) [] (j.addAll [⟨opening, j.context⟩])
  unfold compileUnder written
  cases hr : c.result node (some a) [] with
  | ok schema =>
    rw [hr] at hs
    have hp := Traced.bind_of_ok (fun _ => pure schema) (Traced.emit_run (counted schema)
      ((j.addAll [⟨opening, j.context⟩]).addAll
        ((c.reached (c.rootVisits node (some a) [])).map (c.entryOf j.context))))
    rw [Traced.watch_of_ok ((Traced.bind_of_ok _ hs).trans hp)]
    simp [closing, opening]
  | error f =>
    rw [hr] at hs
    rw [Traced.watch_of_error (Traced.bind_of_error _ hs)]
    simp [closing, opening]

theorem compile_outcome {options : SchemaOptions} {a : Annotation} (h : options.read = .ok a)
    (c : Compiler) (node : Node) (j : Journal) :
    (c.compile node options).outcome j = c.result node (some a) [] := by
  rw [compile_of_read h]
  exact Traced.outcome_of_run (c.compileUnder_run node a j)

theorem compile_journal {options : SchemaOptions} {a : Annotation} (h : options.read = .ok a)
    (c : Compiler) (node : Node) (j : Journal) :
    (c.compile node options).journal j = j.addAll (c.written node a j.context) := by
  rw [compile_of_read h]
  exact Traced.journal_of_run (c.compileUnder_run node a j)

end MapperSchema.Compiler
