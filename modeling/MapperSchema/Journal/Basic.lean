import MapperSchema.Journal.Event

/-! The journal: events at or above a threshold are kept, with the context of their moment. Runs
that write to it may fail; what they wrote before failing stays. -/
namespace MapperSchema

structure Journal where
  threshold : Nat := 0
  context : Context := ∅
  entries : List Entry := []

def Journal.add (j : Journal) (e : Event) : Journal :=
  if j.threshold ≤ e.severity.number then { j with entries := j.entries ++ [⟨e, j.context⟩] } else j

/-- A run that writes to the journal and may fail. -/
abbrev Traced := EStateM Fault Journal

namespace Traced

def emit (e : Event) : Traced Unit := modify (·.add e)

def ofExcept {α : Type} : Except Fault α → Traced α
  | .ok a => pure a
  | .error f => throw f

/-- Runs with further context variables, which are put back however the run ends. -/
def within {α : Type} (values : Options) (run : Traced α) : Traced α := fun j =>
  let (bound, replaced) := j.context.bind values
  match run { j with context := bound } with
  | .ok a j' => .ok a { j' with context := j'.context.restore replaced }
  | .error f j' => .error f { j' with context := j'.context.restore replaced }

end Traced

end MapperSchema
