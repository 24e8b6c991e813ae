import MapperSchema.Compiler.Basic
import MapperSchema.Proofs.Compiler.Position

/-! The outline of a compile: the schema that it gives if no position is faulty. -/
namespace MapperSchema

/-- The type of a field in which no further fields are found. A `never` has none and stands as
mixed. -/
def Form.primitive : Form → Primitive
  | .scalar s => s.primitive
  | .literal v => v.primitive
  | _ => .mixed

namespace Compiler

mutual
/-- The type of a field with this node. -/
def typeOf (c : Compiler) (path : Path) : Node → FieldType
  | .base id form => formTypeOf c path id form
  | .wrap _ _ inner => typeOf c path inner

def formTypeOf (c : Compiler) (path : Path) (id : NodeId) : Form → FieldType
  | .object shape =>
    let a := c.store.annotationAt id
    .document ⟨path, fieldsOf c path a shape, a.finalOptions, a.unknownKeys⟩
  | .array element =>
    .array (c.fieldAt ⟨path ++ [Path.element], ∅, element⟩
      (typeOf c (path ++ [Path.element]) element))
  | form => .primitive form.primitive

def fieldsOf (c : Compiler) (path : Path) (a : Annotation) :
    List (String × Node) → List (String × Field)
  | [] => []
  | (name, node) :: rest =>
    (name, c.fieldAt ⟨path ++ [name], a.overrides name, node⟩ (typeOf c (path ++ [name]) node)) ::
      fieldsOf c path a rest
end

/-- The position of an entry. -/
def entryAt (path : Path) (a : Annotation) (entry : String × Node) : Position :=
  ⟨path ++ [entry.1], a.overrides entry.1, entry.2⟩

/-- The position of an element. -/
def elementAt (path : Path) (element : Node) : Position := ⟨path ++ [Path.element], ∅, element⟩

/-- The whole field at a position. -/
def fieldOf (c : Compiler) (p : Position) : Field := c.fieldAt p (c.typeOf p.path p.node)

def schemaOf (c : Compiler) (path : Path) (a : Annotation) (shape : List (String × Node)) :
    Schema :=
  ⟨path, c.fieldsOf path a shape, a.finalOptions, a.unknownKeys⟩

theorem fieldsOf_eq_map (c : Compiler) (path : Path) (a : Annotation)
    (shape : List (String × Node)) : c.fieldsOf path a shape =
      shape.map fun entry => (entry.1, c.fieldOf (entryAt path a entry)) := by
  induction shape with
  | nil => simp [fieldsOf]
  | cons entry rest ih => rw [fieldsOf, ih]; rfl

theorem names_fieldsOf (c : Compiler) (path : Path) (a : Annotation)
    (shape : List (String × Node)) : (c.fieldsOf path a shape).map (·.1) = shape.map (·.1) := by
  rw [fieldsOf_eq_map, List.map_map]
  rfl

/-- Wrappers do not show in a type. -/
theorem typeOf_eq (c : Compiler) (path : Path) (node : Node) :
    c.typeOf path node = c.formTypeOf path node.unwrap.id node.unwrap.form := by
  induction node with
  | wrap id modifier inner ih => simpa [typeOf] using ih
  | _ => simp [typeOf]

theorem typeOf_object (c : Compiler) (path : Path) {node : Node} {shape : List (String × Node)}
    (h : node.unwrap.form = .object shape) : c.typeOf path node =
      .document (c.schemaOf path (c.store.annotationAt node.unwrap.id) shape) := by
  rw [typeOf_eq, h, formTypeOf]
  rfl

theorem typeOf_array (c : Compiler) (path : Path) {node element : Node}
    (h : node.unwrap.form = .array element) :
    c.typeOf path node = .array (c.fieldOf (elementAt path element)) := by
  rw [typeOf_eq, h, formTypeOf]
  rfl

theorem typeOf_leaf (c : Compiler) (path : Path) {node : Node} (h : node.unwrap.form.isLeaf) :
    c.typeOf path node = .primitive node.unwrap.form.primitive := by
  rw [typeOf_eq]
  cases hf : node.unwrap.form with
  | object shape => simp [hf, Form.isLeaf] at h
  | array element => simp [hf, Form.isLeaf] at h
  | _ => simp [formTypeOf]

end Compiler

end MapperSchema
