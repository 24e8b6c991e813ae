import MapperSchema.Value.Basic

/-! Defaults that a document may change. A list, mapping or set is handed out by a producer, and
each copy can then be changed in place without the next copy showing it. -/
namespace MapperSchema.Value

/-- The default as handed to documents. -/
def asDefault : Value → Value
  | .list items => .producer (.list items)
  | .mapping entries => .producer (.mapping entries)
  | .set members => .producer (.set members)
  | v => v

/-- What a producer gives when asked. -/
def produced? : Value → Option Value
  | .producer v => some v
  | _ => none

/-- Position of an index among `n` items; a negative one counts from the end. -/
def position? (i : Int) (n : Nat) : Option Nat :=
  let j := if i < 0 then i + n else i
  if 0 ≤ j ∧ j < n then some j.toNat else none

def modifyAt? (f : Value → Option Value) (items : List Value) (i : Nat) : Option (List Value) :=
  (items[i]?.bind f).map (items.set i)

/-- Grows a container by one value: at the end of a list, under the key `pushed` of a mapping,
or as a further member of a set. -/
def push? (v : Value) : Value → Option Value
  | .list items => some (.list (items ++ [v]))
  | .mapping entries => some (Table.insert (Table.ofList entries) (.text "pushed") v).toValue
  | .set members => v.toKey?.map fun k =>
    .set (if members.any (· == k) then members else members ++ [k])
  | _ => none

/-- Changes the part of a container that a key or index leads to. -/
def modifyIn? (f : Value → Option Value) : Key → Value → Option Value
  | .atom a, .list items =>
    a.whole?.bind fun i => (position? i items.length).bind fun j =>
      (modifyAt? f items j).map .list
  | .atom a, .tuple items =>
    a.whole?.bind fun i => (position? i items.length).bind fun j =>
      (modifyAt? f items j).map .tuple
  | k, .mapping entries =>
    let t : Bag := Table.ofList entries
    ((t.get? k).bind f).map fun w => (t.insert k w).toValue
  | _, _ => none

/-- Grows the container found by following keys and indices. -/
def pushAt? (v : Value) : List Key → Value → Option Value
  | [] => push? v
  | k :: path => modifyIn? (pushAt? v path) k

example : pushAt? (int 3) [.text "a"] (.mapping [(.text "a", .list [int 1])]) =
    some (.mapping [(.text "a", .list [int 1, int 3])]) := rfl

end MapperSchema.Value
