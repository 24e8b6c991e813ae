import MapperSchema.Session

/-! Building and annotating validator nodes. Building makes a new node, with an identity that no
other has; annotating returns the node that it was given. -/
namespace MapperSchema.Authoring

def freshId : Authoring NodeId := fun s => .ok s.nextId { s with nextId := s.nextId + 1 }

def base (form : Form) : Authoring Node := return .base (← freshId) form

def scalar (s : Scalar) : Authoring Node := base (.scalar s)

/-- Of entries with one name the last stands, at the place of the first. -/
def object (shape : List (String × Node)) : Authoring Node :=
  base (.object (Table.ofList shape).rows)

def wrap (modifier : Modifier) (inner : Node) : Authoring Node :=
  return .wrap (← freshId) modifier inner

def optional (node : Node) : Authoring Node := wrap .optional node

def nullable (node : Node) : Authoring Node := wrap .nullable node

def nullish (node : Node) : Authoring Node := do optional (← nullable node)

/-- Parts the options that a call gives all together, under the name `options`, from those that
it gives one by one. -/
def together (named : Options) : Value × Options :=
  ((named.get? "options").getD .null, named.erase "options")

/-- Adds options to a node's bag; those given by name come last. -/
def annotateField (node : Node) (options : Bag) (named : Options) : Authoring Node := do
  updateStore none (·.addToBag node.id (options.merge named.textKeys))
  return node

def readOptions (options : SchemaOptions) : Authoring Annotation :=
  match options.read with
  | .ok a => return a
  | .error issues => throw (.invalidOptions issues)

/-- Adds to an object node's annotation. Nothing is attached unless both parts can be read. Some
keys inside what is given by name may be members of enumerations. -/
def annotateSchema (node : Node) (options : SchemaOptions) (named : Options)
    (members : Members := ∅) : Authoring Node := do
  if !node.isObject then throw (.notObject node.kind [])
  let a ← readOptions options
  let b ← if named.isEmpty then pure ∅ else readOptions (.untyped (.ofOptions named) members)
  updateStore none (·.annotate node.id (a.merge b))
  return node

/-- A new object node with further entries. The annotation attached so far carries over. -/
def extend (node : Node) (shape : List (String × Node)) : Authoring Node := do
  let extended ← object ((node.shape?.getD []) ++ shape)
  updateStore none (·.carryOver node.id extended.id)
  return extended

def flags (names : List String) : Options := .ofList (names.map (·, .bool true))

/-- A date field that the mapper fills, marked with the given flags. -/
def timestamp (names : List String) : Authoring Node := do
  annotateField (← scalar .date) ∅ (flags names)

def timestampEntry (names : List String) : Option String → Authoring (List (String × Node))
  | none => return []
  | some name => return [(name, ← timestamp names)]

def nameOrFalse : Option String → Value
  | some name => .text name
  | none => .bool false

/-- What the mapper is told about its timestamps. -/
def timestampOptions (created updated : Option String) : Value :=
  .mapping [(.text "timestamps", .mapping
    [(.text "createdAt", nameOrFalse created), (.text "updatedAt", nameOrFalse updated)])]

/-- An object schema of the mapper's two timestamps. A timestamp without a name is left out; the
two names must differ. -/
def timestamps (created updated : Option String) : Authoring Node := do
  if let some name := created then
    if updated = some name then throw (.duplicateTimestamp name)
  let first ← timestampEntry ["required", "index", "immutable"] created
  let second ← timestampEntry ["required", "index"] updated
  traced (Traced.emit (.timestampsGenerated created updated))
  let node ← object (first ++ second)
  annotateSchema node (.untyped .null)
    (Table.single "schema_options" (timestampOptions created updated))

end MapperSchema.Authoring
