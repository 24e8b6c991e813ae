/-! Complaints about untyped input, each with the place it is about. -/
namespace MapperSchema

inductive Complaint where
  | neitherForm
  | notMapping
  | notText
  | undecodableText
  | notOneOf (choices : List String)
  | notBoolean
  | unreadableBoolean
  | unexpected
  | keyNotText
  deriving DecidableEq, Repr

namespace Complaint

/-- `'a', 'b' or 'c'`. -/
def choicesText : List String → String
  | [] => ""
  | [a] => "'" ++ a ++ "'"
  | [a, b] => "'" ++ a ++ "' or '" ++ b ++ "'"
  | a :: rest => "'" ++ a ++ "', " ++ choicesText rest

def message : Complaint → String
  | .neitherForm => "Input should be a valid dictionary or instance of SchemaAnnotation"
  | .notMapping => "Input should be a valid dictionary"
  | .notText => "Input should be a valid string"
  | .undecodableText =>
    "Input should be a valid string, unable to parse raw data as a unicode string"
  | .notOneOf choices => "Input should be " ++ choicesText choices
  | .notBoolean => "Input should be a valid boolean"
  | .unreadableBoolean => "Input should be a valid boolean, unable to interpret input"
  | .unexpected => "Extra inputs are not permitted"
  | .keyNotText => "Keys should be strings"

end Complaint

structure Issue where
  location : List String
  complaint : Complaint
  deriving DecidableEq, Repr

def Issue.text (i : Issue) : String :=
  ".".intercalate i.location ++ ": " ++ i.complaint.message

example : (Issue.mk ["a", "b"] (.notOneOf ["x", "y", "z"])).text
    = "a.b: Input should be 'x', 'y' or 'z'" := by decide +kernel

end MapperSchema
