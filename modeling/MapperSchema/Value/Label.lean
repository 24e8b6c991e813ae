import MapperSchema.Value.Basic
import MapperSchema.Text.Quoted

/-! The text of a key: as part of a location, and as it is shown among other values. -/
namespace MapperSchema

/-- An atom as it is shown: text and bytes are quoted. -/
def Atom.shown : Atom → String
  | .null => "None"
  | .bool b => if b then "True" else "False"
  | .int n => toString n
  | .float t => t
  | .nan _ => "nan"
  | .text s => Text.quoted s
  | .bytes data => Text.quotedBytes data
  | .function name _ => name
  | .unset => "UNSET"

mutual
def Key.shown : Key → String
  | .atom a => a.shown
  | .tuple [k] => "(" ++ k.shown ++ ",)"
  | .tuple items => "(" ++ ", ".intercalate (Key.shownAll items) ++ ")"

def Key.shownAll : List Key → List String
  | [] => []
  | k :: ks => k.shown :: Key.shownAll ks
end

/-- A key as a step of a location: text stands for itself and a truth value for its number. -/
def Key.label : Key → String
  | .atom (.text s) => s
  | .atom (.bool b) => if b then "1" else "0"
  | k => k.shown

@[simp] theorem Key.label_text (s : String) : (Key.text s).label = s := rfl

example : (Key.tuple [.atom (.int 1)]).label = "(1,)" := by decide
example : (Key.tuple [.atom .null, .text "a"]).label = "(None, 'a')" := by decide +kernel

end MapperSchema
