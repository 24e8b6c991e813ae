import MapperSchema.Compiler.Basic

/-! Sessions: the stores in use, the journal, and the identity that the next node gets. There is
one shared store, which authoring writes to, and any number of named ones. -/
namespace MapperSchema

structure Session where
  nextId : NodeId := 0
  shared : Store := ∅
  named : Table String Store := ∅
  journal : Journal := {}

namespace Session

def store (s : Session) : Option String → Store
  | none => s.shared
  | some name => (s.named.get? name).getD ∅

def putStore (s : Session) (st : Store) : Option String → Session
  | none => { s with shared := st }
  | some name => { s with named := s.named.insert name st }

@[simp] theorem store_putStore (s : Session) (st : Store) (r r' : Option String) :
    (s.putStore st r).store r' = if r = r' then st else s.store r' := by
  cases r <;> cases r' <;> simp [putStore, store]
  split <;> simp_all

end Session

/-- A run in a session. What it did before failing stays. -/
abbrev Authoring := EStateM Fault Session

namespace Authoring

def traced {α : Type} (run : Traced α) : Authoring α := fun s =>
  match run s.journal with
  | .ok a j => .ok a { s with journal := j }
  | .error f j => .error f { s with journal := j }

/-- How a run ends, with the session after it in either case. -/
def outcome {α : Type} (run : Authoring α) (s : Session) : Except Fault α × Session :=
  match run s with
  | .ok a s' => (.ok a, s')
  | .error f s' => (.error f, s')

def readStore (r : Option String) : Authoring Store := return (← get).store r

def updateStore (r : Option String) (f : Store → Store) : Authoring Unit :=
  modify fun s => s.putStore (f (s.store r)) r

def compiler (r : Option String) (strict : Bool) : Authoring Compiler :=
  return ⟨← readStore r, strict⟩

/-- Compiles a root with the options of one of the session's stores. -/
def compile (r : Option String) (strict : Bool) (node : Node) (options : SchemaOptions) :
    Authoring Schema := do
  traced ((← compiler r strict).compile node options)

/-- Compiles an object node under a path, as part of a document or by itself. -/
def compileSchema (r : Option String) (strict : Bool) (node : Node) (extra : Option Annotation)
    (path : Path) : Authoring Schema := do
  traced ((← compiler r strict).schema node extra path)

def compileField (r : Option String) (strict : Bool) (node : Node) (a : Option Annotation)
    (name : Option String) (path : Path) : Authoring Field := do
  traced ((← compiler r strict).field node a name path)

end Authoring

end MapperSchema
