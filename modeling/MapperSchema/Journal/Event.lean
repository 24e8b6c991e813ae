import MapperSchema.Fault
import MapperSchema.Journal.Context
import MapperSchema.Journal.Level

/-! Events of authoring and compiling, and how one is written as a record. -/
namespace MapperSchema

inductive Event where
  | started (operation : String)
  | progress (operation message : String) (details : Options)
  | completed (operation : String)
  | failed (operation : String) (fault : Fault)
  | schemaCompiled (fields : List String)
  | fieldCompiled (path : Path) (options : List Key)
  | timestampsGenerated (created updated : Option String)

/-- Part of a record: a value, or a measurement of time, which is not modelled. -/
inductive Attribute where
  | value (v : Value)
  | measured
  deriving Repr

namespace Event

def message : Event → String
  | .started _ => "Compilation started"
  | .progress _ message _ => message
  | .completed _ => "Compilation completed"
  | .failed _ _ => "Compilation failed"
  | .schemaCompiled _ => "Compiled schema"
  | .fieldCompiled _ _ => "Compiled field"
  | .timestampsGenerated _ _ => "Generated timestamps schema"

def severity : Event → Severity
  | .completed _ => .info
  | .failed _ _ => .error
  | _ => .debug

/-- The name of the component that reports the event. -/
def component : Event → String
  | .timestampsGenerated _ _ => "docschema.core.timestamps"
  | _ => "docschema.core.compiler"

def nameValue : Option String → Value
  | some s => .text s
  | none => .null

def details : Event → Table String Attribute
  | .started operation => .ofList [("operation", .value (.text operation))]
  | .progress operation _ details =>
    (Table.single "operation" (.value (.text operation))).merge (details.mapValues .value)
  | .completed operation =>
    .ofList [("operation", .value (.text operation)), ("duration_ms", .measured)]
  | .failed operation fault =>
    .ofList [("operation", .value (.text operation)), ("duration_ms", .measured),
      ("error", .value (.text fault.message)), ("error_type", .value (.text fault.name))]
  | .schemaCompiled fields => .ofList [("fields", .value (.list (fields.map .text)))]
  | .fieldCompiled path options =>
    .ofList [("path", .value (.text path.text)),
      ("options", .value (.list (options.map Key.toValue)))]
  | .timestampsGenerated created updated =>
    .ofList [("created_at", .value (nameValue created)), ("updated_at", .value (nameValue updated))]

end Event

/-- Adds the service, and the component that the event came from. -/
def tagged {κ α : Type} [BEq κ] (key : String → κ) (value : String → α) (event : Table κ α) :
    Table κ α :=
  (event.insert (key "service") (value "docschema")).insert (key "component")
    ((event.get? (key "logger")).getD (value "unknown"))

/-- An event with the context variables of its moment. -/
structure Entry where
  event : Event
  context : Context

/-- The full record of an entry. Its own details win over context variables. -/
def Entry.record (e : Entry) : Table String Attribute :=
  let text s := Attribute.value (.text s)
  tagged id text <| (((((e.context.mapValues .value).merge e.event.details).insert
    "event" (text e.event.message)).insert "logger" (text e.event.component)).insert
    "timestamp" .measured).insert "level" (text e.event.severity.name)

end MapperSchema
