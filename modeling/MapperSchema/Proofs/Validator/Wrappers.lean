import MapperSchema.Validator.Unwrapped

/-! Chains of wrappers. What unwrapping finds is read off the chain: which kinds of wrapper are
crossed, and the value of the outermost default. -/
namespace MapperSchema

structure Wrapper where
  id : NodeId
  modifier : Modifier

namespace Wrapper

def kind (w : Wrapper) : Kind := w.modifier.kind

def default? (w : Wrapper) : Option Value :=
  match w.modifier with
  | .default v => some v
  | _ => none

theorem isSome_default?_iff (w : Wrapper) : w.default?.isSome ↔ w.kind = .default := by
  obtain ⟨id, modifier⟩ := w
  cases modifier <;> simp [default?, kind, Modifier.kind]

theorem isSome_findSome?_default?_iff (ws : List Wrapper) :
    (ws.findSome? default?).isSome ↔ ∃ w ∈ ws, w.kind = .default := by
  rw [List.isSome_findSome?, List.any_eq_true]
  exact exists_congr fun w => and_congr_right fun _ => w.isSome_default?_iff

theorem default?_eq_none {w : Wrapper} (h : w.kind ≠ .default) : w.default? = none := by
  rw [← Option.not_isSome_iff_eq_none, isSome_default?_iff]
  exact h

end Wrapper

namespace Node

/-- The node inside wrappers, of which the first is the outermost. -/
def wrapped (base : Node) (ws : List Wrapper) : Node :=
  ws.foldr (fun w inner => .wrap w.id w.modifier inner) base

/-- A wrapper of this kind is crossed on the way to the base. -/
def crosses (kind : Kind) : Node → Bool
  | .base _ _ => false
  | .wrap _ modifier inner => decide (modifier.kind = kind) || inner.crosses kind

/-- The value of the first default that is met from the outside. -/
def outermostDefault? : Node → Option Value
  | .base _ _ => none
  | .wrap _ (.default v) _ => some v
  | .wrap _ _ inner => inner.outermostDefault?

theorem optional_unwrap (n : Node) : n.unwrap.optional = n.crosses .optional := by
  induction n with
  | wrap id modifier inner ih =>
    cases modifier <;> simp [Unwrapped.under, crosses, Modifier.kind, ih]
  | _ => rfl

/-- A literal null is nullable by itself. -/
theorem nullable_unwrap (n : Node) :
    n.unwrap.nullable = (n.crosses .nullable || n.unwrap.form.acceptsOnlyNull) := by
  induction n with
  | wrap id modifier inner ih =>
    cases modifier <;> simp [Unwrapped.under, crosses, Modifier.kind, ih]
  | _ => rfl

theorem default?_unwrap (n : Node) : n.unwrap.default? = n.outermostDefault? := by
  induction n with
  | wrap id modifier inner ih =>
    cases modifier <;> simp [Unwrapped.under, outermostDefault?, ih]
  | _ => rfl

variable (base : Node) (w : Wrapper) (ws : List Wrapper)

@[simp] theorem wrapped_cons :
    base.wrapped (w :: ws) = .wrap w.id w.modifier (base.wrapped ws) := rfl

@[simp] theorem base_unwrap_wrapped : (base.wrapped ws).unwrap.base = base.unwrap.base := by
  induction ws with
  | nil => rfl
  | cons w ws ih => rw [wrapped_cons, unwrap_wrap, Unwrapped.base_under, ih]

@[simp] theorem id_unwrap_wrapped : (base.wrapped ws).unwrap.id = base.unwrap.id :=
  (Node.base.inj (base.base_unwrap_wrapped ws)).1

@[simp] theorem form_unwrap_wrapped : (base.wrapped ws).unwrap.form = base.unwrap.form :=
  (Node.base.inj (base.base_unwrap_wrapped ws)).2

@[simp] theorem crosses_wrapped (kind : Kind) :
    (base.wrapped ws).crosses kind = ((ws.any fun w => w.kind = kind) || base.crosses kind) := by
  induction ws with
  | nil => rfl
  | cons w ws ih => rw [wrapped_cons, crosses, ih, List.any_cons, Bool.or_assoc]; rfl

@[simp] theorem outermostDefault?_wrapped : (base.wrapped ws).outermostDefault? =
    (ws.findSome? Wrapper.default?).or base.outermostDefault? := by
  induction ws with
  | nil => rfl
  | cons w ws ih =>
    obtain ⟨id, modifier⟩ := w
    rw [wrapped_cons, List.findSome?_cons]
    cases modifier <;> simp [outermostDefault?, Wrapper.default?, ih]

end Node

end MapperSchema
