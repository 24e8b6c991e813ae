import MapperSchema.Text.Quoted

/-! The kinds of validator nodes and their names. -/
namespace MapperSchema

inductive Kind where
  | string | number | boolean | date | any | never | literal | object | array | union
  | optional | nullable | default | effects
  deriving DecidableEq, Repr

namespace Kind

def all : List Kind :=
  [.string, .number, .boolean, .date, .any, .never, .literal, .object, .array, .union,
   .optional, .nullable, .default, .effects]

def name : Kind → String
  | .string => "string"
  | .number => "number"
  | .boolean => "boolean"
  | .date => "date"
  | .any => "any"
  | .never => "never"
  | .literal => "literal"
  | .object => "object"
  | .array => "array"
  | .union => "union"
  | .optional => "optional"
  | .nullable => "nullable"
  | .default => "default"
  | .effects => "effects"

/-- Nodes of these kinds only modify the node inside them. -/
def isWrapper : Kind → Bool
  | .optional | .nullable | .default | .effects => true
  | _ => false

def ofName? (name : String) : Option Kind := all.find? (·.name == name)

/-- What is said of a name that no kind has. -/
def refusal (name : String) : String := Text.quoted name ++ " is not a valid NodeKind"

@[simp] theorem ofName?_name (k : Kind) : ofName? k.name = some k := by cases k <;> decide

end Kind

end MapperSchema
