import MapperSchema.Compiler.Options
import MapperSchema.Journal.Operation
import MapperSchema.Annotation.Coercion

/-! Compiling a validator node to a mapper schema. The recursion follows the node; a field is
finished after its type, so the faults of its parts come before its own. -/
namespace MapperSchema

def Scalar.primitive : Scalar → Primitive
  | .string => .string
  | .number => .number
  | .boolean => .boolean
  | .date => .date
  | .any => .mixed

/-- The type of the values equal to a literal. -/
def Value.primitive : Value → Primitive
  | .atom (.bool _) => .boolean
  | .atom (.int _) => .number
  | .atom (.float _) => .number
  | .atom (.nan _) => .number
  | .atom (.text _) => .string
  | _ => .mixed

namespace Compiler

/-- Finishes a field whose type is known. -/
def finish (c : Compiler) (path : Path) (overrides : Options) (node : Node) (type : FieldType) :
    Traced Field := do
  let u := node.unwrap
  let given := c.givenOptions u overrides
  let required ← Traced.ofExcept (c.required u path given)
  let options := fieldOptions required (default? u type given) given
  Traced.emit (.fieldCompiled path options.keys)
  return ⟨path, type, options⟩

/-- Assembles an object schema from its entries, which run with its path in their context. -/
def assemble (path : Path) (a : Annotation) (entries : Traced (List (String × Field))) :
    Traced Schema := do
  let fields ← Traced.within (Table.single "schema_path" (.text path.location)) do
    let fields ← entries
    Traced.emit (.schemaCompiled (fields.map (·.1)))
    return fields
  return ⟨path, fields, a.finalOptions, a.unknownKeys⟩

mutual
def nodeType (c : Compiler) (path : Path) : Node → Traced FieldType
  | .base id form => formType c path id form
  | .wrap _ _ inner => nodeType c path inner

/-- Objects inside others compile with their own annotations only. -/
def formType (c : Compiler) (path : Path) (id : NodeId) : Form → Traced FieldType
  | .scalar s => return .primitive s.primitive
  | .never => throw (.unsupportedKind .never path)
  | .literal v => return .primitive v.primitive
  | .object shape => do
    let a := c.store.annotationAt id
    return .document (← assemble path a (entries c path a shape))
  | .array element => do
    let type ← nodeType c (path ++ [Path.element]) element
    return .array (← c.finish (path ++ [Path.element]) ∅ element type)
  | .union _ => return .primitive .mixed

def entries (c : Compiler) (path : Path) (a : Annotation) :
    List (String × Node) → Traced (List (String × Field))
  | [] => return []
  | (name, node) :: rest => do
    let type ← nodeType c (path ++ [name]) node
    let field ← c.finish (path ++ [name]) (a.overrides name) node type
    return (name, field) :: (← entries c path a rest)
end

/-- Overrides apply where both an annotation and a name to look up are given. -/
def overridesFor : Option Annotation → Option String → Options
  | some a, some name => a.overrides name
  | _, _ => ∅

/-- One field of an object schema, or an element. -/
def field (c : Compiler) (node : Node) (a : Option Annotation) (name : Option String)
    (path : Path) : Traced Field := do
  let type ← c.nodeType path node
  c.finish path (overridesFor a name) node type

/-- An object node, under its attached annotation with an extra one merged in. -/
def schema (c : Compiler) (node : Node) (extra : Option Annotation) (path : Path) :
    Traced Schema :=
  let u := node.unwrap
  match u.form with
  | .object shape =>
    let a := (c.store.annotationAt u.id).merge (extra.getD ∅)
    assemble path a (c.entries path a shape)
  | form => throw (.notObject form.kind path)

/-- The root of a document. Its extra options are read before anything is reported. -/
def compile (c : Compiler) (node : Node) (options : SchemaOptions) : Traced Schema := do
  let a ← Traced.ofExcept (options.read.mapError .invalidOptions)
  Operation.watch "compile_schema" fun operation => do
    let schema ← c.schema node (some a) []
    operation.progress "Schema compiled" (Table.single "field_count" (.int schema.size))
    return schema

end Compiler

end MapperSchema
