import MapperSchema.Fault
import MapperSchema.Schema.Basic
import MapperSchema.Store
import MapperSchema.Validator.Unwrapped
import MapperSchema.Value.Fresh

/-! The options of one field: bags of all layers merged from the inside out, then the overrides
of the enclosing object; `required` checked against the modifiers; `default` resolved. -/
namespace MapperSchema

/-- What a compilation reads apart from the node: a store, and whether `required` may be a
predicate on a field that is always present. -/
structure Compiler where
  store : Store := ∅
  strictRequired : Bool := false

namespace Compiler

/-- The bags of a node's layers, outer ones winning. -/
def layerBag (c : Compiler) (layers : List Node) : Bag :=
  layers.foldr (fun node inner => inner.merge (c.store.bagAt node.id)) ∅

/-- All options given for a field, overrides winning. -/
def givenOptions (c : Compiler) (u : Unwrapped) (overrides : Options) : Bag :=
  (c.layerBag u.layers).merge overrides.textKeys

/-- Whether a given `required` contradicts the modifiers. A literal null may be required although
it is null; a predicate is refused only by a strict compiler. -/
def conflicts (c : Compiler) (u : Unwrapped) : Value → Bool
  | .bool true => u.optional || (u.nullable && !u.form.acceptsOnlyNull)
  | .bool false => !u.admitsAbsence
  | _ => c.strictRequired && !u.admitsAbsence

theorem conflicts_of_other (c : Compiler) (u : Unwrapped) {r : Value} (notTrue : r ≠ .bool true)
    (notFalse : r ≠ .bool false) : c.conflicts u r = (c.strictRequired && !u.admitsAbsence) := by
  unfold conflicts
  split <;> simp_all

def required (c : Compiler) (u : Unwrapped) (path : Path) (given : Bag) : Except Fault Value :=
  match given.get? (.text "required") with
  | none => .ok (.bool !u.admitsAbsence)
  | some r =>
    if c.conflicts u r then .error (.requiredConflict path r u.optional u.nullable) else .ok r

/-- A given default stands as it is, then comes the outermost default wrapper. Arrays and
documents without either are left unset, so that the mapper adds none of its own. -/
def default? (u : Unwrapped) (type : FieldType) (given : Bag) : Option Value :=
  match given.get? (.text "default") with
  | some v => some v
  | none =>
    match u.default? with
    | some v => some v.asDefault
    | none => if type.isPrimitive then none else some .unset

/-- The compiled options: `required`, the default, then all else in the order in which it was
given. -/
def fieldOptions (required : Value) (default? : Option Value) (given : Bag) : Bag :=
  ((Table.single (.text "required") required).insert? (.text "default") default?).merge
    ((given.erase (.text "required")).erase (.text "default"))

end Compiler

end MapperSchema
