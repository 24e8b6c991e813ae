import MapperSchema.Issue
import MapperSchema.Path
import MapperSchema.Validator.Kind
import MapperSchema.Value.Basic

/-! What can go wrong while a schema is authored or compiled. -/
namespace MapperSchema

inductive Fault where
  /-- The given `required` contradicts the field's modifiers. -/
  | requiredConflict (path : Path) (required : Value) (optional nullable : Bool)
  /-- No rule compiles this kind of node. -/
  | unsupportedKind (kind : Kind) (path : Path)
  /-- An object node was asked for. -/
  | notObject (kind : Kind) (path : Path)
  | duplicateTimestamp (name : String)
  | invalidOptions (issues : List Issue)
  | other (message : String)

namespace Fault

def flagText (b : Bool) : String := if b then "True" else "False"

def conflictReason : Value → String
  | .bool true => "is optional or nullable but `required` is set to true"
  | .bool false => "is neither optional nor nullable but `required` is set to false"
  | _ => "is neither optional nor nullable but `required` is a function"

def message : Fault → String
  | .requiredConflict path required optional nullable =>
    "Field `" ++ path.text ++ "` " ++ conflictReason required ++ " (optional=" ++ flagText optional
      ++ ", nullable=" ++ flagText nullable ++ ")"
  | .unsupportedKind kind path =>
    "Unsupported validator node kind `" ++ kind.name ++ "` at `" ++ path.location ++ "`"
  | .notObject kind path =>
    "Expected object node at `" ++ path.location ++ "`, got `" ++ kind.name ++ "`"
  | .duplicateTimestamp _ => "`createdAt` and `updatedAt` fields must be different"
  | .invalidOptions _ => "Invalid schema options"
  | .other message => message

/-- The class of the fault, as reported to callers and in the journal. -/
def name : Fault → String
  | .requiredConflict .. => "RequiredConflictError"
  | .unsupportedKind .. => "UnsupportedNodeKindError"
  | .notObject .. => "UnsupportedNodeKindError"
  | .duplicateTimestamp _ => "DuplicateTimestampNameError"
  | .invalidOptions _ => "SchemaOptionsError"
  | .other _ => "DocSchemaError"

/-- What a validation complained about, where that is the cause of the fault. -/
def cause? : Fault → Option (List Issue)
  | .invalidOptions issues => some issues
  | _ => none

/-- A text for each complaint of the cause. -/
def errors (f : Fault) : List String := (f.cause?.getD []).map Issue.text

end Fault

end MapperSchema
