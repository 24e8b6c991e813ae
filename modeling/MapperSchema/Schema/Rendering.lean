import MapperSchema.Schema.Basic

/-! Compiled schemas as plain values. A field is a mapping of its type and its options together,
an array type a list of one field, and a schema inside a field a mapping of its two parts. -/
namespace MapperSchema

mutual
/-- An option that is itself called `type` takes the place of the type. -/
def Field.render : Field → Value
  | ⟨_, type, options⟩ => ((Table.single (.text "type") type.render).merge options).toValue

def FieldType.render : FieldType → Value
  | .primitive p => .text p.name
  | .array items => .list [items.render]
  | .document schema => schema.render

def Schema.render : Schema → Value
  | ⟨_, fields, options, _⟩ =>
    .mapping [(.text "definition", .mapping (Schema.renderFields fields)),
      (.text "options", .ofOptions options)]

def Schema.renderFields : List (String × Field) → List (Key × Value)
  | [] => []
  | (name, field) :: rest => (.text name, field.render) :: Schema.renderFields rest
end

/-- The definition and the options for the constructor of a mapper schema. -/
def Schema.parts (s : Schema) : Value × Value :=
  (.mapping (Schema.renderFields s.fields), .ofOptions s.options)

end MapperSchema
