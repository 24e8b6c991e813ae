import MapperSchema.Journal.Event
import MapperSchema.Proofs.Compiler.Outline

/-! What a compile goes through, in order: a field is finished after everything in it, and an
object schema after its last entry. -/
namespace MapperSchema

/-- A moment of a compile. The home of a field is the object schema that is being walked when the
field is finished. -/
inductive Visit where
  | field (home : Option Path) (position : Position)
  | schema (path : Path) (names : List String)

namespace Visit

def home : Visit → Option Path
  | .field home _ => home
  | .schema path _ => some path

def position? : Visit → Option Position
  | .field _ p => some p
  | .schema _ _ => none

end Visit

namespace Compiler

mutual
/-- What comes before a field with this node is finished. -/
def visits (c : Compiler) (home : Option Path) (path : Path) : Node → List Visit
  | .base id form => formVisits c home path id form
  | .wrap _ _ inner => visits c home path inner

def formVisits (c : Compiler) (home : Option Path) (path : Path) (id : NodeId) :
    Form → List Visit
  | .object shape =>
    entryVisits c path (c.store.annotationAt id) shape ++ [.schema path (shape.map (·.1))]
  | .array element =>
    visits c home (path ++ [Path.element]) element ++ [.field home (elementAt path element)]
  | _ => []

def entryVisits (c : Compiler) (path : Path) (a : Annotation) :
    List (String × Node) → List Visit
  | [] => []
  | (name, node) :: rest =>
    (visits c (some path) (path ++ [name]) node ++
      [.field (some path) (entryAt path a (name, node))]) ++ entryVisits c path a rest
end

/-- What comes up to and with the end of an object schema. -/
def schemaVisits (c : Compiler) (path : Path) (a : Annotation) (shape : List (String × Node)) :
    List Visit :=
  c.entryVisits path a shape ++ [.schema path (shape.map (·.1))]

/-- What comes up to and with the end of the field at a position. -/
def fieldVisits (c : Compiler) (home : Option Path) (p : Position) : List Visit :=
  c.visits home p.path p.node ++ [.field home p]

theorem entryVisits_eq_flatMap (c : Compiler) (path : Path) (a : Annotation)
    (shape : List (String × Node)) : c.entryVisits path a shape =
      shape.flatMap fun entry => c.fieldVisits (some path) (entryAt path a entry) := by
  induction shape with
  | nil => simp [entryVisits]
  | cons entry rest ih => rw [entryVisits, ih]; rfl

theorem visits_eq (c : Compiler) (home : Option Path) (path : Path) (node : Node) :
    c.visits home path node = c.formVisits home path node.unwrap.id node.unwrap.form := by
  induction node with
  | wrap id modifier inner ih => simpa [visits] using ih
  | _ => simp [visits]

theorem visits_object (c : Compiler) (home : Option Path) (path : Path) {node : Node}
    {shape : List (String × Node)} (h : node.unwrap.form = .object shape) :
    c.visits home path node = c.schemaVisits path (c.store.annotationAt node.unwrap.id) shape := by
  rw [visits_eq, h, formVisits]
  rfl

theorem visits_array (c : Compiler) (home : Option Path) (path : Path) {node element : Node}
    (h : node.unwrap.form = .array element) :
    c.visits home path node = c.fieldVisits home (elementAt path element) := by
  rw [visits_eq, h, formVisits]
  rfl

theorem visits_leaf (c : Compiler) (home : Option Path) (path : Path) {node : Node}
    (h : node.unwrap.form.isLeaf) : c.visits home path node = [] := by
  rw [visits_eq]
  cases hf : node.unwrap.form with
  | object shape => simp [hf, Form.isLeaf] at h
  | array element => simp [hf, Form.isLeaf] at h
  | _ => simp [formVisits]

/-- The annotation under which a root is compiled. -/
def effective (c : Compiler) (id : NodeId) (extra : Option Annotation) : Annotation :=
  (c.store.annotationAt id).merge (extra.getD ∅)

theorem effective_none (c : Compiler) (id : NodeId) :
    c.effective id none = c.store.annotationAt id := Annotation.merge_empty _

def rootVisits (c : Compiler) (node : Node) (extra : Option Annotation) (path : Path) :
    List Visit :=
  match node.unwrap.form with
  | .object shape => c.schemaVisits path (c.effective node.unwrap.id extra) shape
  | _ => []

/-- The positions of fields among visits, in order. -/
def positions (vs : List Visit) : List Position := vs.filterMap Visit.position?

@[simp] theorem positions_field (home : Option Path) (p : Position) (vs : List Visit) :
    positions (.field home p :: vs) = p :: positions vs := rfl

@[simp] theorem positions_schema (path : Path) (names : List String) (vs : List Visit) :
    positions (.schema path names :: vs) = positions vs := rfl

@[simp] theorem positions_append (vs ws : List Visit) :
    positions (vs ++ ws) = positions vs ++ positions ws := List.filterMap_append

theorem positions_fieldVisits (c : Compiler) (home : Option Path) (p : Position) :
    positions (c.fieldVisits home p) = positions (c.visits home p.path p.node) ++ [p] := by
  rw [fieldVisits, positions_append]
  rfl

theorem positions_schemaVisits (c : Compiler) (path : Path) (a : Annotation)
    (shape : List (String × Node)) : positions (c.schemaVisits path a shape) =
      shape.flatMap fun entry => positions (c.fieldVisits (some path) (entryAt path a entry)) := by
  rw [schemaVisits, entryVisits_eq_flatMap, positions_append, positions_schema, positions,
    List.filterMap_flatMap]
  exact List.append_nil _

theorem mem_positions_fieldVisits (c : Compiler) (home : Option Path) (q p : Position) :
    p ∈ positions (c.fieldVisits home q) ↔ p ∈ positions (c.visits home q.path q.node) ∨ p = q := by
  rw [positions_fieldVisits, List.mem_append, List.mem_singleton]

theorem mem_positions_schemaVisits (c : Compiler) (path : Path) (a : Annotation)
    (shape : List (String × Node)) (p : Position) :
    p ∈ positions (c.schemaVisits path a shape) ↔
      ∃ entry ∈ shape, p ∈ positions (c.fieldVisits (some path) (entryAt path a entry)) := by
  rw [positions_schemaVisits, List.mem_flatMap]

end Compiler

end MapperSchema
