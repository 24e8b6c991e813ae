import MapperSchema.Validator.Node

/-! A node with its wrappers taken off. Flags add up in whatever order the wrappers come; of
several defaults the outermost is kept. -/
namespace MapperSchema

structure Unwrapped where
  id : NodeId
  form : Form
  optional : Bool
  nullable : Bool
  default? : Option Value
  /-- All nodes crossed, outermost first, the base last. -/
  layers : List Node

namespace Unwrapped

def base (u : Unwrapped) : Node := .base u.id u.form

/-- Neither missing nor null is ruled out. -/
def admitsAbsence (u : Unwrapped) : Bool := u.optional || u.nullable

/-- The same node seen through one more wrapper. -/
def under (u : Unwrapped) (outer : Node) : Modifier → Unwrapped
  | .optional => { u with optional := true, layers := outer :: u.layers }
  | .nullable => { u with nullable := true, layers := outer :: u.layers }
  | .default v => { u with default? := some v, layers := outer :: u.layers }
  | .effects => { u with layers := outer :: u.layers }

@[simp] theorem layers_under (u : Unwrapped) (outer : Node) (m : Modifier) :
    (u.under outer m).layers = outer :: u.layers := by cases m <;> rfl

@[simp] theorem id_under (u : Unwrapped) (outer : Node) (m : Modifier) :
    (u.under outer m).id = u.id := by cases m <;> rfl

@[simp] theorem form_under (u : Unwrapped) (outer : Node) (m : Modifier) :
    (u.under outer m).form = u.form := by cases m <;> rfl

@[simp] theorem base_under (u : Unwrapped) (outer : Node) (m : Modifier) :
    (u.under outer m).base = u.base := by cases m <;> rfl

end Unwrapped

def Node.unwrap : Node → Unwrapped
  | .base id form => ⟨id, form, false, form.acceptsOnlyNull, none, [.base id form]⟩
  | .wrap id modifier inner => inner.unwrap.under (.wrap id modifier inner) modifier

@[simp] theorem Node.unwrap_base (id : NodeId) (form : Form) :
    (Node.base id form).unwrap =
      ⟨id, form, false, form.acceptsOnlyNull, none, [.base id form]⟩ := rfl

@[simp] theorem Node.unwrap_wrap (id : NodeId) (m : Modifier) (inner : Node) :
    (Node.wrap id m inner).unwrap = inner.unwrap.under (.wrap id m inner) m := rfl

/-- Induction on nodes as they are seen without their wrappers: what holds of the nodes in which a
field is found holds of the whole. It goes by the form, which a wrapper has from the node inside. -/
theorem Node.inductUnwrapped {motive : Node → Prop}
    (object : ∀ node shape, node.unwrap.form = .object shape →
      (∀ entry ∈ shape, motive entry.2) → motive node)
    (array : ∀ node element, node.unwrap.form = .array element → motive element → motive node)
    (leaf : ∀ node, node.unwrap.form.isLeaf → motive node) (node : Node) : motive node := by
  have h : ∀ n m : Node, m.unwrap.form = n.unwrap.form → motive m := by
    intro n
    induction n with
    | object id shape ih => exact fun m h => object m shape h fun entry he => ih entry he _ rfl
    | array id element ih => exact fun m h => array m element h (ih _ rfl)
    | wrap id modifier inner ih => exact fun m h => ih m (by simpa using h)
    | _ => exact fun m h => leaf m (by rw [h]; rfl)
  exact h node node rfl

example : (Node.wrap 2 (.default (.int 1)) (.wrap 1 (.default (.int 2))
    (.base 0 .never))).unwrap.default? = some (.int 1) := rfl

end MapperSchema
