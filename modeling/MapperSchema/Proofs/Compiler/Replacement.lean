import Mathlib.Logic.Relation
import MapperSchema.Proofs.Compiler.Root

/-! Nodes that take each other's place. If no compile tells two nodes apart, none tells apart what
is made of them; so whatever is put in place of such nodes, in any number of places, the root
compiles as before. -/
namespace MapperSchema.Compiler

/-- One replacement, somewhere in a node. The nodes above it may be new ones, but what is attached
to them stays. -/
inductive Replaced (c : Compiler) (R : Node → Node → Prop) : Node → Node → Prop
  | here {n m} (h : R n m) : Replaced c R n m
  | entry {id id'} (before) {name n m after} (inside : Replaced c R n m)
    (bag : c.store.bagAt id = c.store.bagAt id')
    (attached : c.store.annotationAt id = c.store.annotationAt id') :
    Replaced c R (.base id (.object (before ++ (name, n) :: after)))
      (.base id' (.object (before ++ (name, m) :: after)))
  | element {id id' n m} (inside : Replaced c R n m)
    (bag : c.store.bagAt id = c.store.bagAt id') :
    Replaced c R (.base id (.array n)) (.base id' (.array m))
  | member {id id'} (before) {n m after} (inside : Replaced c R n m)
    (bag : c.store.bagAt id = c.store.bagAt id') :
    Replaced c R (.base id (.union (before ++ n :: after)))
      (.base id' (.union (before ++ m :: after)))
  | wrap {id id' modifier n m} (inside : Replaced c R n m)
    (bag : c.store.bagAt id = c.store.bagAt id') :
    Replaced c R (.wrap id modifier n) (.wrap id' modifier m)

variable {c : Compiler} {n m : Node}

/-- No compile tells the nodes apart. -/
structure Interchangeable (c : Compiler) (n m : Node) : Prop where
  optional : n.unwrap.optional = m.unwrap.optional
  nullable : n.unwrap.nullable = m.unwrap.nullable
  default? : n.unwrap.default? = m.unwrap.default?
  acceptsOnlyNull : n.unwrap.form.acceptsOnlyNull = m.unwrap.form.acceptsOnlyNull
  bag : c.layerBag n.unwrap.layers = c.layerBag m.unwrap.layers
  nodeType : ∀ path, c.nodeType path n = c.nodeType path m
  schema : ∀ extra path, c.schema n extra path = c.schema m extra path

/-- Under these overrides a field is finished alike for both nodes. -/
structure FinishedAlike (c : Compiler) (overrides : Options) (n m : Node) : Prop where
  optional : n.unwrap.optional = m.unwrap.optional
  nullable : n.unwrap.nullable = m.unwrap.nullable
  acceptsOnlyNull : n.unwrap.form.acceptsOnlyNull = m.unwrap.form.acceptsOnlyNull
  bag : c.layerBag n.unwrap.layers = c.layerBag m.unwrap.layers
  default? : ∀ type, Compiler.default? n.unwrap type (c.givenOptions n.unwrap overrides) =
    Compiler.default? m.unwrap type (c.givenOptions m.unwrap overrides)

namespace FinishedAlike

variable {overrides : Options}

theorem givenOptions (h : c.FinishedAlike overrides n m) :
    c.givenOptions n.unwrap overrides = c.givenOptions m.unwrap overrides := by
  rw [Compiler.givenOptions, Compiler.givenOptions, h.bag]

theorem required (h : c.FinishedAlike overrides n m) (path : Path) (given : Bag) :
    c.required n.unwrap path given = c.required m.unwrap path given := by
  have conflicts := c.conflicts_congr h.optional h.nullable h.acceptsOnlyNull
  unfold Compiler.required Unwrapped.admitsAbsence
  simp only [conflicts, h.optional, h.nullable]

theorem finish (h : c.FinishedAlike overrides n m) (path : Path) (type : FieldType) :
    c.finish path overrides n type = c.finish path overrides m type := by
  have resolved := h.default? type
  rw [h.givenOptions] at resolved
  simp only [Compiler.finish, h.givenOptions, h.required, resolved]

theorem fieldRun (h : c.FinishedAlike overrides n m) {path : Path}
    (type : c.nodeType path n = c.nodeType path m) :
    c.fieldRun ⟨path, overrides, n⟩ = c.fieldRun ⟨path, overrides, m⟩ := by
  rw [Compiler.fieldRun, Compiler.fieldRun, type]
  simp only [h.finish]

end FinishedAlike

namespace Interchangeable

theorem finishedAlike (h : c.Interchangeable n m) (overrides : Options) :
    c.FinishedAlike overrides n m where
  optional := h.optional
  nullable := h.nullable
  acceptsOnlyNull := h.acceptsOnlyNull
  bag := h.bag
  default? type := by
    unfold Compiler.default? Compiler.givenOptions
    rw [h.default?, h.bag]

theorem fieldRun (h : c.Interchangeable n m) (path : Path) (overrides : Options) :
    c.fieldRun ⟨path, overrides, n⟩ = c.fieldRun ⟨path, overrides, m⟩ :=
  (h.finishedAlike overrides).fieldRun (h.nodeType path)

theorem field (h : c.Interchangeable n m) (a : Option Annotation) (name : Option String)
    (path : Path) : c.field n a name path = c.field m a name path := h.fieldRun path _

theorem entries (h : c.Interchangeable n m) (path : Path) (a : Annotation) (name : String)
    (before after : List (String × Node)) :
    c.entries path a (before ++ (name, n) :: after) =
      c.entries path a (before ++ (name, m) :: after) :=
  entries_congr (h.fieldRun _ _) before after

/-- The places in which such nodes stand are not told apart either. -/
theorem entry (h : c.Interchangeable n m) {id id' : NodeId} (name : String)
    (before after : List (String × Node)) (bag : c.store.bagAt id = c.store.bagAt id')
    (attached : c.store.annotationAt id = c.store.annotationAt id') :
    c.Interchangeable (.base id (.object (before ++ (name, n) :: after)))
      (.base id' (.object (before ++ (name, m) :: after))) where
  optional := rfl
  nullable := rfl
  default? := rfl
  acceptsOnlyNull := rfl
  bag := congrArg (Table.merge ∅) bag
  nodeType path := by
    simp only [Compiler.nodeType, formType, h.entries, attached]
  schema extra path := by
    simp only [Compiler.schema, Node.unwrap_base, h.entries, attached]

theorem element (h : c.Interchangeable n m) {id id' : NodeId}
    (bag : c.store.bagAt id = c.store.bagAt id') :
    c.Interchangeable (.base id (.array n)) (.base id' (.array m)) where
  optional := rfl
  nullable := rfl
  default? := rfl
  acceptsOnlyNull := rfl
  bag := congrArg (Table.merge ∅) bag
  nodeType path := by
    rw [nodeType_array c path rfl, nodeType_array c path rfl]
    exact congrArg (· >>= _) (h.fieldRun _ ∅)
  schema _ _ := rfl

/-- The members of a union do not matter at all. -/
theorem union {id id' : NodeId} (members members' : List Node)
    (bag : c.store.bagAt id = c.store.bagAt id') :
    c.Interchangeable (.base id (.union members)) (.base id' (.union members')) where
  optional := rfl
  nullable := rfl
  default? := rfl
  acceptsOnlyNull := rfl
  bag := congrArg (Table.merge ∅) bag
  nodeType _ := by simp only [Compiler.nodeType, formType]
  schema _ _ := rfl

theorem wrap (h : c.Interchangeable n m) {id id' : NodeId} (modifier : Modifier)
    (bag : c.store.bagAt id = c.store.bagAt id') :
    c.Interchangeable (.wrap id modifier n) (.wrap id' modifier m) where
  optional := by cases modifier <;> simp [Unwrapped.under, h.optional]
  nullable := by cases modifier <;> simp [Unwrapped.under, h.nullable]
  default? := by cases modifier <;> simp [Unwrapped.under, h.default?]
  acceptsOnlyNull := by simpa using h.acceptsOnlyNull
  bag := by
    have inner := h.bag
    rw [Node.unwrap_wrap, Node.unwrap_wrap, Unwrapped.layers_under, Unwrapped.layers_under]
    unfold layerBag at inner ⊢
    rw [List.foldr_cons, List.foldr_cons, inner]
    exact congrArg _ bag
  nodeType path := by
    rw [Compiler.nodeType, Compiler.nodeType, h.nodeType]
  schema extra path := by
    have inner := h.schema extra path
    unfold Compiler.schema at inner ⊢
    simpa using inner

end Interchangeable

section Replaced

variable {R : Node → Node → Prop}

theorem Replaced.interchangeable (hR : ∀ n m, R n m → c.Interchangeable n m)
    (h : c.Replaced R n m) : c.Interchangeable n m := by
  induction h with
  | here h => exact hR _ _ h
  | entry before inside bag attached ih => exact ih.entry _ _ _ bag attached
  | element inside bag ih => exact ih.element bag
  | member before inside bag ih => exact .union _ _ bag
  | wrap inside bag ih => exact ih.wrap _ bag

/-- Roots that come from each other by such replacements compile alike, with the same journal. -/
theorem schema_of_replaced (hR : ∀ n m, R n m → c.Interchangeable n m) {root root' : Node}
    (h : Relation.ReflTransGen (c.Replaced R) root root') (extra : Option Annotation)
    (path : Path) : c.schema root extra path = c.schema root' extra path := by
  induction h with
  | refl => rfl
  | tail _ step ih => exact ih.trans ((step.interchangeable hR).schema extra path)

end Replaced

end MapperSchema.Compiler
