import MapperSchema.Annotation.Basic
import MapperSchema.Path

/-! Compiled schemas, as handed to the document mapper. -/
namespace MapperSchema

/-- Field types without parts. -/
inductive Primitive where
  | string | number | boolean | date | mixed
  deriving DecidableEq, Repr

def Primitive.name : Primitive → String
  | .string => "String"
  | .number => "Number"
  | .boolean => "Boolean"
  | .date => "Date"
  | .mixed => "Mixed"

mutual
/-- The options begin with `required`, then `default` if there is one. -/
structure Field where
  path : Path
  type : FieldType
  options : Bag

inductive FieldType where
  | primitive (p : Primitive)
  | array (items : Field)
  | document (schema : Schema)

/-- The fields of one object in declared order, and the options of the schema as a whole. -/
structure Schema where
  path : Path
  fields : List (String × Field)
  options : Options
  unknownKeys : Option UnknownKeys
end

def FieldType.isPrimitive : FieldType → Bool
  | .primitive _ => true
  | _ => false

namespace Field

def required? (f : Field) : Option Value := f.options.get? (.text "required")

/-- The resolved default; `unset` is one. -/
def default? (f : Field) : Option Value := f.options.get? (.text "default")

def hasDefault (f : Field) : Bool := f.default?.isSome

/-- The resolved default; a field without one reads as unset. -/
def default (f : Field) : Value := f.default?.getD .unset

end Field

namespace Schema

def field? (s : Schema) (name : String) : Option Field := s.fields.lookup name

def size (s : Schema) : Nat := s.fields.length

end Schema

end MapperSchema
