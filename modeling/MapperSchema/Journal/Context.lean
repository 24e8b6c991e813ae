import MapperSchema.Value.Basic

/-! Context variables: named values that accompany every event. What a binding replaced is
remembered, so that it can be put back. -/
namespace MapperSchema

abbrev Context := Options

/-- The keys of one binding, each with the value it had before. -/
abbrev Replaced := List (String × Option Value)

namespace Context

def bind (c : Context) (values : Options) : Context × Replaced :=
  (Table.merge c values, values.keys.map fun k => (k, Table.get? c k))

def putBack (c : Context) : String × Option Value → Context
  | (k, some v) => Table.insert c k v
  | (k, none) => Table.erase c k

def restore (c : Context) (r : Replaced) : Context := r.foldl putBack c

/-- A single variable bound and put back leaves the context as it was, order included. -/
theorem restore_bind (c : Context) (k : String) (v : Value) :
    (c.bind (Table.single k v)).1.restore (c.bind (Table.single k v)).2 = c := by
  change putBack (Table.insert c k v) (k, Table.get? c k) = c
  cases h : Table.get? c k with
  | none => exact Table.erase_insert v h
  | some w =>
    have : Table.insert (Table.insert c k v) k w = Table.insert c k w :=
      Table.ext (Table.writeRow_writeRow k v w c.rows)
    exact this.trans (Table.insert_of_get? h)

/-- A context and what each of its bindings so far replaced, oldest first. -/
structure History where
  current : Context := ∅
  bindings : List Replaced := []

def History.bind (h : History) (values : Options) : History :=
  let (c, r) := h.current.bind values
  ⟨c, h.bindings ++ [r]⟩

/-- Undoes the binding with the given number, counted from zero. -/
def History.reset (h : History) (i : Nat) : History :=
  { h with current := h.current.restore (h.bindings[i]?.getD []) }

end Context

end MapperSchema
