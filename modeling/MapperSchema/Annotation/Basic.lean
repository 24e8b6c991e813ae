import MapperSchema.Value.Equality

/-! Schema annotations: options of a whole object schema, overrides of its fields' options by
name, and what becomes of keys outside its shape. -/
namespace MapperSchema

/-- What the mapper does with keys that the shape does not declare. -/
inductive UnknownKeys where
  | ignore | strip | throw
  deriving DecidableEq, Repr

namespace UnknownKeys

def names : List String := ["ignore", "strip", "throw"]

def name : UnknownKeys → String
  | .ignore => "ignore"
  | .strip => "strip"
  | .throw => "throw"

def ofName? : String → Option UnknownKeys
  | "ignore" => some .ignore
  | "strip" => some .strip
  | "throw" => some .throw
  | _ => none

/-- The mapper's own spelling, for its option `strict`. -/
def strict : UnknownKeys → Value
  | .ignore => .bool false
  | .strip => .bool true
  | .throw => .text "throw"

@[simp] theorem ofName?_name (m : UnknownKeys) : ofName? m.name = some m := by cases m <;> rfl

end UnknownKeys

structure Annotation where
  schemaOptions : Options := ∅
  typeOptions : Table String Options := ∅
  unknownKeys : Option UnknownKeys := none
  deriving Repr

namespace Annotation

def empty : Annotation := {}

instance : EmptyCollection Annotation := ⟨empty⟩
instance : Inhabited Annotation := ⟨empty⟩

/-- Overrides merge field by field, and option by option within a field. -/
def mergeTypeOptions (t u : Table String Options) : Table String Options :=
  u.rows.foldl (fun t row => t.insert row.1 (((t.get? row.1).getD ∅).merge row.2)) t

/-- The second annotation takes precedence. -/
def merge (a b : Annotation) : Annotation where
  schemaOptions := a.schemaOptions.merge b.schemaOptions
  typeOptions := mergeTypeOptions a.typeOptions b.typeOptions
  unknownKeys := b.unknownKeys.or a.unknownKeys

/-- The overrides for one field, empty if it has none. -/
def overrides (a : Annotation) (name : String) : Options := (a.typeOptions.get? name).getD ∅

/-- The overrides as a mapping of mappings. -/
def typeOptionsValue (a : Annotation) : Value := .ofOptions (a.typeOptions.mapValues .ofOptions)

/-- All three parts equal, without regard to the order of keys. -/
def equal (a b : Annotation) : Bool :=
  (Value.ofOptions a.schemaOptions).equal (.ofOptions b.schemaOptions)
    && a.typeOptionsValue.equal b.typeOptionsValue && a.unknownKeys == b.unknownKeys

@[simp] theorem merge_empty (a : Annotation) : a.merge ∅ = a := by
  cases a; rfl

/-- The name of a timestamp field: its own name unless another is given, false if disabled. -/
def resolvedTimestamp (own : String) : Option Value → Value
  | none => .text own
  | some (.bool true) => .text own
  | some (.bool false) => .bool false
  | some .null => .bool false
  | some v => v

/-- Both timestamp fields, whatever was said of them. -/
def timestampsOption (given : Bag) : Value :=
  .mapping [(.text "createdAt", resolvedTimestamp "createdAt" (given.get? (.text "createdAt"))),
    (.text "updatedAt", resolvedTimestamp "updatedAt" (given.get? (.text "updatedAt")))]

def withTimestamps (options : Options) : Options :=
  match options.get? "timestamps" with
  | some (.mapping entries) => options.insert "timestamps" (timestampsOption (Table.ofList entries))
  | _ => options

def withStrict (mode : Option UnknownKeys) (options : Options) : Options :=
  match mode with
  | some m => if options.contains "strict" then options else options.insert "strict" m.strict
  | none => options

/-- Schema options in the mapper's terms: timestamps spelled out, and the unknown-keys mode as
`strict` unless that is given. -/
def finalOptions (a : Annotation) : Options :=
  withStrict a.unknownKeys (withTimestamps a.schemaOptions)

end Annotation

end MapperSchema
