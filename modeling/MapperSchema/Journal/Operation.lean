import MapperSchema.Journal.Basic

/-! Operations reported from start to end. One that was never started reports no end. -/
namespace MapperSchema

structure Operation where
  name : String
  started : Bool := false

namespace Operation

def start (o : Operation) : Traced Operation := do
  Traced.emit (.started o.name)
  return { o with started := true }

def progress (o : Operation) (message : String) (details : Options) : Traced Unit :=
  Traced.emit (.progress o.name message details)

def finish (o : Operation) (failure : Option Fault) : Traced Unit :=
  if o.started then
    match failure with
    | none => Traced.emit (.completed o.name)
    | some f => Traced.emit (.failed o.name f)
  else pure ()

/-- Runs, then reports how the run ended; a failure is reported and passed on. -/
def ending {α : Type} (o : Operation) (run : Traced α) : Traced α := fun j =>
  match run j with
  | .ok a j' => (do o.finish none; return a) j'
  | .error f j' => (do o.finish (some f); throw f) j'

/-- Runs the operation from its start to its end. -/
def watch {α : Type} (name : String) (run : Operation → Traced α) : Traced α := do
  let o ← start ⟨name, false⟩
  o.ending (run o)

end Operation

end MapperSchema
