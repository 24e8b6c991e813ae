import MapperSchema.Issue
import MapperSchema.Value.Basic

/-! Lenient reading of text: bytes pass for the text that they encode in UTF-8, and among keys a
member of an enumeration for the text of its value. -/
namespace MapperSchema

def decodeText? (data : List UInt8) : Option String := String.fromUTF8? ⟨data.toArray⟩

def Atom.readText : Atom → Except Complaint String
  | .text s => .ok s
  | .bytes data =>
    match decodeText? data with
    | some s => .ok s
    | none => .error .undecodableText
  | _ => .error .notText

def Key.readText : Key → Except Complaint String
  | .atom a => a.readText
  | _ => .error .notText

def Value.readText : Value → Except Complaint String
  | .atom a => a.readText
  | _ => .error .notText

/-- The keys that are members of enumerations, each with the text of its value. A member stands as a
function does: by the name under which it is shown and a tag of its own. -/
abbrev Members := Table Key String

def Members.readText (members : Members) (k : Key) : Except Complaint String :=
  match k.readText with
  | .error .notText =>
    match members.get? k with
    | some s => .ok s
    | none => .error .notText
  | read => read

end MapperSchema
