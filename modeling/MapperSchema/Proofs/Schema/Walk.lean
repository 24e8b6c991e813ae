import MapperSchema.Proofs.Journal.Writing
import MapperSchema.Schema.Basic

/-! What is reported of a finished definition: every field after all that is found in it, every
object schema after its last field. -/
namespace MapperSchema

/-- A report within a walk. The home of a field is the innermost object schema around it. -/
inductive Step where
  | field (home path : Path) (options : List Key)
  | schema (path : Path) (fields : List String)

namespace Step

def home : Step → Path
  | .field home _ _ => home
  | .schema path _ => path

def event : Step → Event
  | .field _ path options => .fieldCompiled path options
  | .schema _ fields => .schemaCompiled fields

/-- What is written of a step. -/
def entry (ctx : Context) (s : Step) : Entry := ⟨s.event, ctx.under (some s.home)⟩

end Step

mutual
def Schema.walk : Schema → List Step
  | ⟨path, fields, _, _⟩ => fieldsWalk path fields ++ [.schema path (fields.map (·.1))]

def fieldsWalk (home : Path) : List (String × Field) → List Step
  | [] => []
  | (_, field) :: rest => Field.walk home field ++ fieldsWalk home rest

/-- Items of an array stay with the object that holds the array. -/
def Field.walk (home : Path) : Field → List Step
  | ⟨path, type, options⟩ => FieldType.walk home type ++ [.field home path options.keys]

def FieldType.walk (home : Path) : FieldType → List Step
  | .primitive _ => []
  | .array items => Field.walk home items
  | .document schema => Schema.walk schema
end

theorem fieldsWalk_eq_flatMap (home : Path) (fields : List (String × Field)) :
    fieldsWalk home fields = fields.flatMap fun field => field.2.walk home := by
  induction fields with
  | nil => simp [fieldsWalk]
  | cons field rest ih => simp [fieldsWalk, ih]

/-- The rows of a record, in order. -/
abbrev Line := List (String × Attribute)

/-- A line that the compiler writes: the object schema that is being walked, if one is, what is said
in particular, and what every line has. -/
def logLine (home : Option Path) (details : Line) (message level : String) : Line :=
  let text (s : String) : Attribute := .value (.text s)
  let place (p : Path) := ("schema_path", text (if p.text = "" then "<root>" else p.text))
  (home.map place).toList ++ details ++ [("event", text message),
    ("logger", text "docschema.core.compiler"), ("timestamp", .measured), ("level", text level),
    ("service", text "docschema"), ("component", text "docschema.core.compiler")]

/-- The line of a step. A field tells its path and the keys of its options, an object schema the
names of its fields. -/
def Step.line : Step → Line
  | .field home path options => logLine (some home)
    [("path", .value (.text path.text)), ("options", .value (.list (options.map Key.toValue)))]
    "Compiled field" "debug"
  | .schema path fields => logLine (some path)
    [("fields", .value (.list (fields.map .text)))] "Compiled schema" "debug"

theorem Step.rows_record_entry (s : Step) : (s.entry ∅).record.rows = s.line := by
  cases s <;> rfl

end MapperSchema
