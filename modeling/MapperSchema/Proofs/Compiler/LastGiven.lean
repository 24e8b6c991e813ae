import MapperSchema.Compiler.Options

/-! The value that an option has for a field: the one that was given last, where overrides come
after all layers and an outer layer after an inner one. -/
namespace MapperSchema

@[simp] theorem Table.get?_textKeys (t : Options) (name : String) :
    t.textKeys.get? (.text name) = t.get? name := by
  change ((t.rows.map _).find? _).map _ = (t.rows.find? _).map _
  rw [List.find?_map, Option.map_map]
  simp only [Function.comp_def, Key.text_beq_text]

/-- The option under one key, of a node and of the nodes inside its wrappers. -/
def Node.attached? (s : Store) (k : Key) : Node → Option Value
  | .base id _ => (s.bagAt id).get? k
  | .wrap id _ inner => ((s.bagAt id).get? k).or (inner.attached? s k)

namespace Compiler

/-- The value that is given last for a field which these overrides reach. -/
def lastGiven? (c : Compiler) (overrides : Options) (node : Node) (name : String) : Option Value :=
  (overrides.get? name).or (node.attached? c.store (.text name))

theorem get?_layerBag (c : Compiler) (k : Key) (node : Node) :
    (c.layerBag node.unwrap.layers).get? k = node.attached? c.store k := by
  induction node with
  | wrap id modifier inner ih =>
    unfold layerBag at ih ⊢
    rw [Node.unwrap_wrap, Unwrapped.layers_under, List.foldr_cons, Table.get?_merge, ih]
    rfl
  | _ => simp [layerBag, Node.attached?, Node.id]

theorem get?_givenOptions (c : Compiler) (overrides : Options) (node : Node) (name : String) :
    (c.givenOptions node.unwrap overrides).get? (.text name) =
      c.lastGiven? overrides node name := by
  rw [givenOptions, Table.get?_merge, Table.get?_textKeys, get?_layerBag, lastGiven?]

end Compiler

end MapperSchema
