import MapperSchema.Proofs.Compiler.Matching
import MapperSchema.Proofs.Compiler.Root
import MapperSchema.Proofs.Table.Order

/-! What compiles end with, by whichever way they are asked for: a document with options, an object
schema under a path, or a single field. -/
namespace MapperSchema.Compiler

@[simp] theorem get?_required_fieldOptions (required : Value) (default? : Option Value)
    (given : Bag) : (fieldOptions required default? given).get? (.text "required") =
      some required := by
  cases default? <;> simp [fieldOptions, Table.insert?]

@[simp] theorem get?_default_fieldOptions (required : Value) (default? : Option Value)
    (given : Bag) : (fieldOptions required default? given).get? (.text "default") = default? := by
  cases default? <;> simp [fieldOptions, Table.insert?]

theorem required?_fieldOf (c : Compiler) (p : Position) :
    (c.fieldOf p).required? = some (c.requiredAt p) := get?_required_fieldOptions _ _ _

theorem default?_fieldOf (c : Compiler) (p : Position) : (c.fieldOf p).default? =
    default? p.node.unwrap (c.typeOf p.path p.node) (c.givenAt p) := get?_default_fieldOptions _ _ _

/-- A root compiles to this definition, as a document or as an object schema under a path. -/
inductive Compiles (c : Compiler) (root : Node) : Option Annotation → Path → Schema → Prop
  | schema {extra path d} (j : Journal) (ok : (c.schema root extra path).outcome j = .ok d) :
    Compiles c root extra path d
  | document {options a d} (j : Journal) (valid : SchemaOptions.read options = .ok a)
    (ok : (c.compile root options).outcome j = .ok d) : Compiles c root (some a) [] d

variable {c : Compiler} {root : Node} {extra : Option Annotation} {path : Path} {d : Schema}

theorem Compiles.result_eq (h : c.Compiles root extra path d) :
    c.result root extra path = .ok d := by
  cases h with
  | schema j ok => rwa [schema_outcome] at ok
  | document j valid ok => rwa [compile_outcome valid] at ok

/-- In what a root compiles to every field comes from a visited position without fault. -/
theorem Compiles.field_eq (h : c.Compiles root extra path d) {p : Position} {f : Field}
    (m : c.Matches root extra path d p f) : ¬ c.Faulty p ∧ f = c.fieldOf p := by
  obtain ⟨visited, field⟩ := m.sound h.result_eq
  obtain ⟨-, -, good, -⟩ := result_eq_ok_iff.1 h.result_eq
  exact ⟨good p visited, field⟩

/-- The position of a field that is compiled by itself. -/
def fieldAlone (node : Node) (a : Option Annotation) (name : Option String) (path : Path) :
    Position := ⟨path, overridesFor a name, node⟩

/-- The whole run of a single field: how it ends, and what it writes. -/
theorem field_run (c : Compiler) (node : Node) (a : Option Annotation) (name : Option String)
    (path : Path) (j : Journal) :
    let p := fieldAlone node a name path
    c.field node a name path j = ending (c.verdict (c.fieldVisits none p) (c.fieldOf p))
      (j.addAll ((c.reached (c.fieldVisits none p)).map (c.entryOf j.context))) := by
  intro p
  have h : c.Follows none (c.fieldRun p) (c.fieldVisits none p) (c.fieldOf p) :=
    fieldRun_follows nodeType_follows
  exact h j.context j rfl

theorem field_outcome (c : Compiler) (node : Node) (a : Option Annotation) (name : Option String)
    (path : Path) (j : Journal) :
    let p := fieldAlone node a name path
    (c.field node a name path).outcome j = c.verdict (c.fieldVisits none p) (c.fieldOf p) :=
  Traced.outcome_of_run (c.field_run node a name path j)

theorem field_eq_of_ok {node : Node} {a : Option Annotation} {name : Option String} {j : Journal}
    {f : Field} (ok : (c.field node a name path).outcome j = .ok f) :
    ¬ c.Faulty (fieldAlone node a name path) ∧ f = c.fieldOf (fieldAlone node a name path) := by
  rw [field_outcome, verdict_eq_ok_iff, firstFault?_eq_none_iff] at ok
  exact ⟨ok.1 _ ((mem_positions_fieldVisits _ _ _ _).2 (.inr rfl)), ok.2.symm⟩

end MapperSchema.Compiler
