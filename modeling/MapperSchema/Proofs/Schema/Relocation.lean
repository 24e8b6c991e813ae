import MapperSchema.Fault
import MapperSchema.Schema.Basic

/-! Relocation: a path put in front of all paths of a definition, or of a fault. -/
namespace MapperSchema

mutual
def Schema.relocate (p : Path) : Schema → Schema
  | ⟨path, fields, options, unknownKeys⟩ =>
    ⟨p ++ path, relocateFields p fields, options, unknownKeys⟩

def relocateFields (p : Path) : List (String × Field) → List (String × Field)
  | [] => []
  | (name, field) :: rest => (name, Field.relocate p field) :: relocateFields p rest

def Field.relocate (p : Path) : Field → Field
  | ⟨path, type, options⟩ => ⟨p ++ path, FieldType.relocate p type, options⟩

def FieldType.relocate (p : Path) : FieldType → FieldType
  | .primitive k => .primitive k
  | .array items => .array (Field.relocate p items)
  | .document schema => .document (Schema.relocate p schema)
end

theorem relocateFields_eq_map (p : Path) (fields : List (String × Field)) :
    relocateFields p fields = fields.map fun field => (field.1, field.2.relocate p) := by
  induction fields with
  | nil => simp [relocateFields]
  | cons field rest ih => simp [relocateFields, ih]

@[simp] theorem FieldType.isPrimitive_relocate (p : Path) (type : FieldType) :
    (type.relocate p).isPrimitive = type.isPrimitive := by
  cases type <;> simp [FieldType.relocate, FieldType.isPrimitive]

namespace Fault

def relocate (p : Path) : Fault → Fault
  | .requiredConflict path required optional nullable =>
    .requiredConflict (p ++ path) required optional nullable
  | .unsupportedKind kind path => .unsupportedKind kind (p ++ path)
  | .notObject kind path => .notObject kind (p ++ path)
  | f => f

/-- A relocated fault is of the same class. -/
@[simp] theorem name_relocate (p : Path) (f : Fault) : (f.relocate p).name = f.name := by
  cases f <;> rfl

end Fault

/-- The same end of a compile, under a path. -/
def relocated (p : Path) : Except Fault Schema → Except Fault Schema
  | .ok schema => .ok (schema.relocate p)
  | .error f => .error (f.relocate p)

end MapperSchema
