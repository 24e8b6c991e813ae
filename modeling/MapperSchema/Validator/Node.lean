import MapperSchema.Value.Basic
import MapperSchema.Validator.Kind

/-! Validator nodes. Every node has an identity, to which options are attached; two nodes of one
form are different nodes. -/
namespace MapperSchema

abbrev NodeId := Nat

inductive Scalar where
  | string | number | boolean | date | any
  deriving DecidableEq, Repr

/-- What a wrapper adds to the node inside it. -/
inductive Modifier where
  | optional
  | nullable
  | default (value : Value)
  | effects
  deriving Repr

mutual
inductive Node where
  | base (id : NodeId) (form : Form)
  | wrap (id : NodeId) (modifier : Modifier) (inner : Node)

/-- What a node without wrappers accepts. -/
inductive Form where
  | scalar (scalar : Scalar)
  | never
  | literal (value : Value)
  | object (shape : List (String × Node))
  | array (element : Node)
  | union (members : List Node)
end

def Scalar.kind : Scalar → Kind
  | .string => .string
  | .number => .number
  | .boolean => .boolean
  | .date => .date
  | .any => .any

def Modifier.kind : Modifier → Kind
  | .optional => .optional
  | .nullable => .nullable
  | .default _ => .default
  | .effects => .effects

namespace Form

def kind : Form → Kind
  | .scalar s => s.kind
  | .never => .never
  | .literal _ => .literal
  | .object _ => .object
  | .array _ => .array
  | .union _ => .union

/-- Forms in which no further fields are found. -/
def isLeaf : Form → Bool
  | .object _ | .array _ => false
  | _ => true

/-- The literal that accepts nothing but null. -/
def acceptsOnlyNull : Form → Bool
  | .literal v => v.isNull
  | _ => false

theorem acceptsOnlyNull_iff (f : Form) : f.acceptsOnlyNull ↔ f = .literal .null := by
  cases f with
  | literal v =>
    cases v with
    | atom a => cases a <;> simp [acceptsOnlyNull, Value.isNull]
    | _ => simp [acceptsOnlyNull, Value.isNull]
  | _ => simp [acceptsOnlyNull]

theorem kind_eq_object_iff (f : Form) : f.kind = .object ↔ ∃ shape, f = .object shape := by
  cases f with
  | scalar s => cases s <;> simp [kind, Scalar.kind]
  | _ => simp [kind]

theorem kind_eq_array_iff (f : Form) : f.kind = .array ↔ ∃ element, f = .array element := by
  cases f with
  | scalar s => cases s <;> simp [kind, Scalar.kind]
  | _ => simp [kind]

theorem isLeaf_iff (f : Form) : f.isLeaf ↔ f.kind ≠ .object ∧ f.kind ≠ .array := by
  cases f with
  | scalar s => cases s <;> simp [isLeaf, kind, Scalar.kind]
  | _ => simp [isLeaf, kind]

@[simp] theorem isWrapper_kind (f : Form) : f.kind.isWrapper = false := by
  cases f with
  | scalar s => cases s <;> rfl
  | _ => rfl

end Form

namespace Node

def id : Node → NodeId
  | .base i _ => i
  | .wrap i _ _ => i

def kind : Node → Kind
  | .base _ form => form.kind
  | .wrap _ modifier _ => modifier.kind

def isObject (n : Node) : Bool := n.kind = .object

/-- The entries of an object node. -/
def shape? : Node → Option (List (String × Node))
  | .base _ (.object shape) => some shape
  | _ => none

def member? (n : Node) (name : String) : Option Node := n.shape?.bind (·.lookup name)

def inner? : Node → Option Node
  | .wrap _ _ inner => some inner
  | .base _ _ => none

/-- Induction on nodes, with the nodes inside a form taken one by one. -/
@[induction_eliminator]
theorem induct {motive : Node → Prop}
    (scalar : ∀ id s, motive (.base id (.scalar s)))
    (never : ∀ id, motive (.base id .never))
    (literal : ∀ id v, motive (.base id (.literal v)))
    (object : ∀ id shape, (∀ entry ∈ shape, motive entry.2) → motive (.base id (.object shape)))
    (array : ∀ id element, motive element → motive (.base id (.array element)))
    (union : ∀ id members, (∀ m ∈ members, motive m) → motive (.base id (.union members)))
    (wrap : ∀ id modifier inner, motive inner → motive (.wrap id modifier inner))
    (node : Node) : motive node :=
  Node.rec (motive_1 := motive) (motive_2 := fun form => ∀ id, motive (.base id form))
    (motive_3 := fun shape => ∀ entry ∈ shape, motive entry.2)
    (motive_4 := fun members => ∀ m ∈ members, motive m)
    (motive_5 := fun entry => motive entry.2)
    (fun id _ h => h id) wrap (fun s id => scalar id s) never (fun v id => literal id v)
    (fun shape h id => object id shape h) (fun element h id => array id element h)
    (fun members h id => union id members h)
    (by simp) (fun _ _ head tail => List.forall_mem_cons.2 ⟨head, tail⟩)
    (by simp) (fun _ _ head tail => List.forall_mem_cons.2 ⟨head, tail⟩)
    (fun _ _ h => h) node

end Node

end MapperSchema
