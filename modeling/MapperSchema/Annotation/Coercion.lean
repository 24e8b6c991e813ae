import MapperSchema.Annotation.Basic
import MapperSchema.Value.Label
import MapperSchema.Value.Reading

/-! Reading an annotation from an untyped mapping. Each of its three parts may come under either
of two spellings; all complaints are collected, in the order of the parts. -/
namespace MapperSchema.Annotation

/-- Reads a mapping with text keys whose values are read by `item`. A complaint about a key comes
before those about its value. -/
def readMapping {α : Type} (members : Members) (item : List String → Value → List Issue × α)
    (location : List String) : Value → List Issue × Table String α
  | .mapping entries =>
    let read := entries.map fun (k, v) =>
      (k, members.readText k, item (location ++ [k.label]) v)
    (read.flatMap fun (k, key, issues, _) =>
        (match key with
          | .ok _ => []
          | .error c => [⟨location ++ [k.label, "[key]"], c⟩]) ++ issues,
      Table.ofList (read.filterMap fun (_, key, _, x) => key.toOption.map (·, x)))
  | _ => ([⟨location, .notMapping⟩], ∅)

def readOptions (members : Members) : List String → Value → List Issue × Options :=
  readMapping members fun _ v => ([], v)

def readTypeOptions (members : Members) :
    List String → Value → List Issue × Table String Options :=
  readMapping members (readOptions members)

def readUnknownKeys (location : List String) : Value → List Issue × Option UnknownKeys
  | .null => ([], none)
  | .text s =>
    match UnknownKeys.ofName? s with
    | some m => ([], some m)
    | none => ([⟨location, .notOneOf UnknownKeys.names⟩], none)
  | _ => ([⟨location, .notOneOf UnknownKeys.names⟩], none)

/-- The two spellings of a part. -/
structure Spelling where
  compact : String
  spaced : String

def schemaOptionsSpelling : Spelling := ⟨"schemaOptions", "schema_options"⟩
def typeOptionsSpelling : Spelling := ⟨"typeOptions", "type_options"⟩
def unknownKeysSpelling : Spelling := ⟨"unknownKeys", "unknown_keys"⟩

/-- The spelling under which a part is given, the compact one first. -/
def Spelling.find? (s : Spelling) (given : Bag) : Option (String × Value) :=
  match given.get? (.text s.compact) with
  | some v => some (s.compact, v)
  | none => (given.get? (.text s.spaced)).map (s.spaced, ·)

/-- Reads one part, or takes it as empty. -/
def readPart {α : Type} (s : Spelling) (item : List String → Value → List Issue × α) (missing : α)
    (given : Bag) : List Issue × α :=
  match s.find? given with
  | some (name, v) => item [name] v
  | none => ([], missing)

/-- The keys under which the three parts are found. -/
def usedKeys (given : Bag) : List String :=
  [schemaOptionsSpelling, typeOptionsSpelling, unknownKeysSpelling].filterMap
    fun s => (s.find? given).map (·.1)

def keyIssue? (used : List String) : Key → Option Issue
  | .atom (.text s) => if used.contains s then none else some ⟨[s], .unexpected⟩
  | k => some ⟨[k.label], .keyNotText⟩

def ofBag (members : Members) (given : Bag) : Except (List Issue) Annotation :=
  let (schemaIssues, schemaOptions) :=
    readPart schemaOptionsSpelling (readOptions members) ∅ given
  let (typeIssues, typeOptions) := readPart typeOptionsSpelling (readTypeOptions members) ∅ given
  let (modeIssues, unknownKeys) := readPart unknownKeysSpelling readUnknownKeys none given
  let keyIssues := given.keys.filterMap (keyIssue? (usedKeys given))
  match schemaIssues ++ typeIssues ++ modeIssues ++ keyIssues with
  | [] => .ok ⟨schemaOptions, typeOptions, unknownKeys⟩
  | issues => .error issues

/-- Null is the empty annotation. -/
def ofValue (members : Members) : Value → Except (List Issue) Annotation
  | .null => .ok ∅
  | .mapping entries => ofBag members (Table.ofList entries)
  | _ => .error [⟨[], .neitherForm⟩]

end Annotation

/-- Schema-level options as a caller gives them. A mapping may be of any class, a view of another
one for instance: it stands here by its items, which are all that is read of it. Some of its keys
may be members of enumerations. -/
inductive SchemaOptions where
  | untyped (value : Value) (members : Members := ∅)
  | typed (a : Annotation)
  deriving Repr

def SchemaOptions.read : SchemaOptions → Except (List Issue) Annotation
  | .untyped v members => Annotation.ofValue members v
  | .typed a => .ok a

end MapperSchema
