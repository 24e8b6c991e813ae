/-! Paths from a root schema: names of entries, and `$` for the element of an array. -/
namespace MapperSchema

abbrev Path := List String

namespace Path

def element : String := "$"

def text (p : Path) : String := ".".intercalate p

/-- The text, or `<root>` where it is empty. -/
def location (p : Path) : String := if p.text = "" then "<root>" else p.text

example : text ["a", "$", "b"] = "a.$.b" := by decide +kernel
example : location [""] = "<root>" := by decide +kernel

end Path

end MapperSchema
