import MapperSchema.Proofs.Compiler.LastGiven
import MapperSchema.Proofs.Compiler.Wrapping

/-! Defaults that are never seen: one that has another further out, and one of a field that is given
a default. Whatever values such defaults have, the compile is the same. -/
namespace MapperSchema.Compiler

/-- A default that is not seen gets another value, somewhere in a node under these overrides. -/
inductive Revalued (c : Compiler) : Options → Node → Node → Prop
  /-- Another default is further out. -/
  | shadowed {overrides} {base : Node} {id v v'} (before : List Wrapper) {after}
    (outer : ∃ w ∈ before, w.kind = .default) :
    Revalued c overrides (base.wrapped (before ++ ⟨id, .default v⟩ :: after))
      (base.wrapped (before ++ ⟨id, .default v'⟩ :: after))
  /-- A default is given for the field. -/
  | given {overrides} {base : Node} {id v v'} (before : List Wrapper) {after}
    (given : (c.lastGiven? overrides (base.wrapped (before ++ ⟨id, .default v⟩ :: after))
      "default").isSome) :
    Revalued c overrides (base.wrapped (before ++ ⟨id, .default v⟩ :: after))
      (base.wrapped (before ++ ⟨id, .default v'⟩ :: after))
  | entry (ws) {overrides id} (before) {name n m after}
    (inside : Revalued c ((c.store.annotationAt id).overrides name) n m) :
    Revalued c overrides ((Node.base id (.object (before ++ (name, n) :: after))).wrapped ws)
      ((Node.base id (.object (before ++ (name, m) :: after))).wrapped ws)
  | element (ws) {overrides id n m} (inside : Revalued c ∅ n m) :
    Revalued c overrides ((Node.base id (.array n)).wrapped ws)
      ((Node.base id (.array m)).wrapped ws)
  /-- Members of a union are not compiled, so any overrides will do. -/
  | member (ws) {overrides id} (before) {other n m after} (inside : Revalued c other n m) :
    Revalued c overrides ((Node.base id (.union (before ++ n :: after))).wrapped ws)
      ((Node.base id (.union (before ++ m :: after))).wrapped ws)

/-- A default that is not seen gets another value, somewhere in a root. Of the defaults around the
root none is seen. -/
inductive RootRevalued (c : Compiler) (extra : Option Annotation) : Node → Node → Prop
  | around {base : Node} {id v v'} (before : List Wrapper) {after} :
    RootRevalued c extra (base.wrapped (before ++ ⟨id, .default v⟩ :: after))
      (base.wrapped (before ++ ⟨id, .default v'⟩ :: after))
  | entry (ws) {id} (before) {name n m after}
    (inside : c.Revalued ((c.effective id extra).overrides name) n m) :
    RootRevalued c extra ((Node.base id (.object (before ++ (name, n) :: after))).wrapped ws)
      ((Node.base id (.object (before ++ (name, m) :: after))).wrapped ws)

variable {c : Compiler} {overrides : Options} {n m : Node}

/-- A default that is given stands as it is. -/
theorem default?_of_given {v : Value} (given : c.lastGiven? overrides n "default" = some v)
    (u : Unwrapped) (type : FieldType) :
    default? u type (c.givenOptions n.unwrap overrides) = some v := by
  rw [default?, get?_givenOptions, given]

theorem FinishedAlike.of_crosses (crossed : ∀ kind, n.crosses kind = m.crosses kind)
    (null : n.unwrap.form.acceptsOnlyNull = m.unwrap.form.acceptsOnlyNull)
    (bag : c.layerBag n.unwrap.layers = c.layerBag m.unwrap.layers)
    (default? : n.outermostDefault? = m.outermostDefault? ∨
      (c.lastGiven? overrides n "default").isSome) : c.FinishedAlike overrides n m where
  optional := by rw [Node.optional_unwrap, Node.optional_unwrap, crossed]
  nullable := by rw [Node.nullable_unwrap, Node.nullable_unwrap, crossed, null]
  acceptsOnlyNull := null
  bag := bag
  default? type := by
    have same : c.givenOptions m.unwrap overrides = c.givenOptions n.unwrap overrides := by
      rw [Compiler.givenOptions, Compiler.givenOptions, bag]
    rw [same]
    rcases default? with outermost | given
    · unfold Compiler.default?
      rw [Node.default?_unwrap, Node.default?_unwrap, outermost]
    · obtain ⟨v, given⟩ := Option.isSome_iff_exists.1 given
      rw [default?_of_given given, default?_of_given given]

/-- Under the same wrappers a field is finished by its flags, not by its parts. -/
theorem finishedAlike_wrapped (c : Compiler) (overrides : Options) (id : NodeId) {form form' : Form}
    (null : form.acceptsOnlyNull = form'.acceptsOnlyNull) (ws : List Wrapper) :
    c.FinishedAlike overrides ((Node.base id form).wrapped ws)
      ((Node.base id form').wrapped ws) := by
  apply FinishedAlike.of_crosses
  case crossed =>
    intro kind
    rw [Node.crosses_wrapped, Node.crosses_wrapped]
    rfl
  case null => rwa [Node.form_unwrap_wrapped, Node.form_unwrap_wrapped]
  case bag =>
    rw [layerBag_wrapped, layerBag_wrapped]
    rfl
  case default? =>
    rw [Node.outermostDefault?_wrapped, Node.outermostDefault?_wrapped]
    exact .inl rfl

section Value

variable {base : Node} {id : NodeId} {v v' : Value} {before after : List Wrapper}

theorem outermostDefault?_shadowed (outer : ∃ w ∈ before, w.kind = .default) :
    (base.wrapped (before ++ ⟨id, .default v⟩ :: after)).outermostDefault? =
      (base.wrapped (before ++ ⟨id, .default v'⟩ :: after)).outermostDefault? := by
  have found := (Wrapper.isSome_findSome?_default?_iff before).2 outer
  obtain ⟨first, hfirst⟩ := Option.isSome_iff_exists.1 found
  simp only [Node.outermostDefault?_wrapped, List.findSome?_append, hfirst, Option.some_or]

/-- Where the value of a default is not seen, the field is finished in the same way with another. -/
theorem finishedAlike_revalued (hidden : (∃ w ∈ before, w.kind = .default) ∨
    (c.lastGiven? overrides (base.wrapped (before ++ ⟨id, .default v⟩ :: after))
      "default").isSome) :
    c.FinishedAlike overrides (base.wrapped (before ++ ⟨id, .default v⟩ :: after))
      (base.wrapped (before ++ ⟨id, .default v'⟩ :: after)) := by
  apply FinishedAlike.of_crosses
  case crossed =>
    intro kind
    rw [Node.crosses_wrapped, Node.crosses_wrapped, List.any_append, List.any_append]
    rfl
  case null => rw [Node.form_unwrap_wrapped, Node.form_unwrap_wrapped]
  case bag =>
    rw [layerBag_wrapped, layerBag_wrapped, List.foldr_append, List.foldr_append]
    rfl
  case default? => exact hidden.imp_left outermostDefault?_shadowed

theorem nodeType_revalued (path : Path) :
    c.nodeType path (base.wrapped (before ++ ⟨id, .default v⟩ :: after)) =
      c.nodeType path (base.wrapped (before ++ ⟨id, .default v'⟩ :: after)) := by
  simp only [nodeType_eq, Node.id_unwrap_wrapped, Node.form_unwrap_wrapped]

end Value

/-- The run of a field stays as it is: around the place of the change it is finished alike, and at
the place it runs alike. -/
theorem Revalued.fieldRun_eq (h : c.Revalued overrides n m) (path : Path) :
    c.fieldRun ⟨path, overrides, n⟩ = c.fieldRun ⟨path, overrides, m⟩ := by
  induction h generalizing path with
  | shadowed before outer =>
    exact (finishedAlike_revalued (.inl outer)).fieldRun (nodeType_revalued path)
  | given before given =>
    exact (finishedAlike_revalued (.inr given)).fieldRun (nodeType_revalued path)
  | @entry ws overrides id before name n m after inside ih =>
    refine (finishedAlike_wrapped c overrides id (by rfl) ws).fieldRun ?_
    have entries := entries_congr (ih (path ++ [name])) before after
    simp only [nodeType_eq, Node.id_unwrap_wrapped, Node.form_unwrap_wrapped, Node.unwrap_base,
      formType, entries]
  | @element ws overrides id n m inside ih =>
    refine (finishedAlike_wrapped c overrides id (by rfl) ws).fieldRun ?_
    rw [nodeType_array c path (Node.form_unwrap_wrapped _ ws),
      nodeType_array c path (Node.form_unwrap_wrapped _ ws)]
    exact congrArg (· >>= _) (ih (path ++ [Path.element]))
  | @member ws overrides id before other n m after inside ih =>
    refine (finishedAlike_wrapped c overrides id (by rfl) ws).fieldRun ?_
    simp only [nodeType_eq, Node.form_unwrap_wrapped, Node.unwrap_base, formType]

theorem field_of_revalued {a : Option Annotation} {name : Option String}
    (h : Relation.ReflTransGen (c.Revalued (overridesFor a name)) n m) (path : Path) :
    c.field n a name path = c.field m a name path := by
  induction h with
  | refl => rfl
  | tail _ step ih => exact ih.trans (step.fieldRun_eq path)

variable {extra : Option Annotation} {root root' : Node}

theorem RootRevalued.schema_eq (h : c.RootRevalued extra root root') (path : Path) :
    c.schema root extra path = c.schema root' extra path := by
  cases h with
  | around before =>
    apply schema_of_base
    rw [Node.base_unwrap_wrapped, Node.base_unwrap_wrapped]
  | @entry ws id before name n m after inside =>
    have entries := entries_congr (inside.fieldRun_eq (path ++ [name])) before after
    simp only [schema, Node.id_unwrap_wrapped, Node.form_unwrap_wrapped, Node.unwrap_base]
    exact congrArg _ entries

/-- Roots that differ in such values compile alike, with the same journal. -/
theorem schema_of_revalued (h : Relation.ReflTransGen (c.RootRevalued extra) root root')
    (path : Path) : c.schema root extra path = c.schema root' extra path := by
  induction h with
  | refl => rfl
  | tail _ step ih => exact ih.trans (step.schema_eq path)

end MapperSchema.Compiler
