import MapperSchema.Proofs.Compiler.Composition
import MapperSchema.Proofs.Compiler.Fields
import MapperSchema.Proofs.Compiler.Locality
import MapperSchema.Proofs.Compiler.Tasks

/-! Overrides reach the entries of their own object, each by its plain name, and nothing inside
them. Compiles of one object under annotations that differ in the overrides of one name differ in
the options of that field at most. -/
namespace MapperSchema

/-- Annotations that differ at most in the overrides of one name. -/
structure Annotation.AgreesBut (name : String) (a b : Annotation) : Prop where
  schemaOptions : a.schemaOptions = b.schemaOptions
  unknownKeys : a.unknownKeys = b.unknownKeys
  others : ∀ other, other ≠ name → a.typeOptions.get? other = b.typeOptions.get? other

namespace Annotation.AgreesBut

variable {name other : String} {a b : Annotation}

theorem overrides (h : AgreesBut name a b) (apart : other ≠ name) :
    a.overrides other = b.overrides other := by
  unfold Annotation.overrides
  rw [h.others other apart]

theorem finalOptions (h : AgreesBut name a b) : a.finalOptions = b.finalOptions := by
  unfold Annotation.finalOptions
  rw [h.schemaOptions, h.unknownKeys]

end Annotation.AgreesBut

namespace Compiler

variable {c d : Compiler} {path : Path}

/-- The compilers are equally strict and find the same at all fields of a node. -/
structure SameInside (c d : Compiler) (root : Node) : Prop where
  strict : c.strictRequired = d.strictRequired
  bags : ∀ field, root.HasField field → ∀ layer ∈ field.unwrap.layers,
    c.store.bagAt layer.id = d.store.bagAt layer.id
  annotations : ∀ field, root.HasField field → field.unwrap.form.kind = .object →
    c.store.annotationAt field.unwrap.id = d.store.annotationAt field.unwrap.id

namespace SameInside

variable {root field : Node}

theorem refl (c : Compiler) (root : Node) : c.SameInside c root :=
  ⟨rfl, fun _ _ _ _ => rfl, fun _ _ _ => rfl⟩

theorem finish_eq (h : c.SameInside d root) (hasField : root.HasField field) (path : Path)
    (overrides : Options) (type : FieldType) :
    c.finish path overrides field type = d.finish path overrides field type := by
  have given : c.givenOptions field.unwrap overrides = d.givenOptions field.unwrap overrides := by
    rw [givenOptions, givenOptions, layerBag_congr (h.bags field hasField)]
  have conflicts : c.conflicts field.unwrap = d.conflicts field.unwrap := by
    funext r
    unfold Compiler.conflicts
    rw [h.strict]
  simp only [finish, required, given, conflicts]

theorem fieldRun_eq (h : c.SameInside d root) {p : Position} (hasField : root.HasField p.node)
    (type : c.nodeType p.path p.node = d.nodeType p.path p.node) : c.fieldRun p = d.fieldRun p := by
  unfold fieldRun
  rw [type]
  exact congrArg _ (funext fun type => h.finish_eq hasField p.path p.overrides type)

theorem entries_eq {shape : List (String × Node)} {a b : Annotation}
    (h : ∀ entry ∈ shape, c.fieldRun (entryAt path a entry) = d.fieldRun (entryAt path b entry)) :
    c.entries path a shape = d.entries path b shape := by
  induction shape with
  | nil => rfl
  | cons entry rest ih =>
    obtain ⟨head, tail⟩ := List.forall_mem_cons.1 h
    rw [entries_cons, entries_cons, head, ih tail]

/-- The type of a field is compiled alike, with all that is in it. -/
theorem nodeType_eq (h : c.SameInside d root) (hasField : root.HasField field) (path : Path) :
    c.nodeType path field = d.nodeType path field := by
  induction field using Node.inductUnwrapped generalizing path with
  | object node shape base ih =>
    have attached := h.annotations node hasField (by rw [base]; rfl)
    rw [nodeType_object c path base, nodeType_object d path base, ← attached]
    have entries : c.entries path (c.store.annotationAt node.unwrap.id) shape =
        d.entries path (c.store.annotationAt node.unwrap.id) shape := by
      refine entries_eq fun entry mem => ?_
      have inner : root.HasField entry.2 := .inner hasField base mem
      exact h.fieldRun_eq inner (ih entry mem inner _)
    simp only [entries]
  | array node element base ih =>
    have inner : root.HasField element := .element hasField base
    rw [nodeType_array c path base, nodeType_array d path base,
      h.fieldRun_eq (p := elementAt path element) inner (ih inner _)]
  | leaf node leaf =>
    by_cases never : node.unwrap.form.kind = .never
    · rw [nodeType_never c path never, nodeType_never d path never]
    · rw [nodeType_leaf c path leaf never, nodeType_leaf d path leaf never]

theorem field_eq (h : c.SameInside d root) (hasField : root.HasField field)
    {a b : Option Annotation} {name : Option String}
    (overrides : overridesFor a name = overridesFor b name) (path : Path) :
    c.field field a name path = d.field field b name path := by
  have run := h.fieldRun_eq (p := fieldAlone field a name path) hasField
    (h.nodeType_eq hasField path)
  unfold Compiler.field
  rw [← overrides]
  exact run

theorem alike (h : c.SameInside d root) {extra : Option Annotation} {p : Position}
    (visited : c.Visited root extra path p) : c.Alike d p :=
  ⟨h.bags p.node visited.hasField, h.annotations p.node visited.hasField⟩

end SameInside

/-- Two compiles of one object, under annotations that differ at most in the overrides of one
name. -/
structure DifferAt (c d : Compiler) (root : Node) (extra extra' : Option Annotation)
    (name : String) : Prop where
  inside : c.SameInside d root
  effective : Annotation.AgreesBut name (c.effective root.unwrap.id extra)
    (d.effective root.unwrap.id extra')

/-- Definitions that differ in the field of one name at most, and there in the options. -/
structure AgreeBut (name : String) (s s' : Schema) : Prop where
  path : s.path = s'.path
  names : s.fields.map (·.1) = s'.fields.map (·.1)
  others : ∀ other, other ≠ name → s.field? other = s'.field? other
  own : (s.field? name).map (fun f => (f.path, f.type)) =
    (s'.field? name).map fun f => (f.path, f.type)
  inside : ∀ q, 2 ≤ q.length → s.below? q = s'.below? q
  options : s.options = s'.options
  unknownKeys : s.unknownKeys = s'.unknownKeys

/-- What is found inside a field depends on its type alone. -/
theorem below?_congr {s s' : Schema}
    (types : ∀ name, (s.field? name).map (·.type) = (s'.field? name).map (·.type)) {q : Path}
    (deep : 2 ≤ q.length) : s.below? q = s'.below? q := by
  match q, deep with
  | name :: next :: rest, _ =>
    have spelled : ∀ s : Schema, s.below? (name :: next :: rest) =
        ((s.field? name).map (·.type)).bind fun type =>
          (type.child? next).bind (·.below? rest) := by
      intro s
      rw [Option.bind_map]
      rfl
    rw [spelled, spelled, types]

section Root

variable {root : Node} {extra extra' : Option Annotation} {name : String}
  {shape : List (String × Node)}

/-- An entry comes to the same field under both annotations, up to its options; those are the same
too if it has another name. -/
theorem DifferAt.fieldOf_eq (h : c.DifferAt d root extra extra' name)
    (base : root.unwrap.form = .object shape) {entry : String × Node} (mem : entry ∈ shape)
    (path : Path) :
    let f := c.fieldOf (entryAt path (c.effective root.unwrap.id extra) entry)
    let f' := d.fieldOf (entryAt path (d.effective root.unwrap.id extra') entry)
    f.path = f'.path ∧ f.type = f'.type ∧ (entry.1 ≠ name → f = f') := by
  intro f f'
  have visited : c.Visited root extra path (entryAt path _ entry) := .entry base mem
  have same : f = d.fieldOf (entryAt path (c.effective root.unwrap.id extra) entry) :=
    visited.field_eq fun _ => h.inside.alike
  have type : f.type = _ := congrArg Field.type same
  refine ⟨rfl, type, fun apart => ?_⟩
  have overrides := h.effective.overrides apart
  rw [same, entryAt, overrides]
  rfl

theorem DifferAt.field?_eq (h : c.DifferAt d root extra extra' name)
    (base : root.unwrap.form = .object shape) (path : Path) (other : String) :
    let s := c.schemaOf path (c.effective root.unwrap.id extra) shape
    let s' := d.schemaOf path (d.effective root.unwrap.id extra') shape
    (s.field? other).map (fun f => (f.path, f.type)) =
        (s'.field? other).map (fun f => (f.path, f.type)) ∧
      (other ≠ name → s.field? other = s'.field? other) := by
  intro s s'
  have read : s.field? other = _ := lookup_fieldsOf path _ shape other
  have read' : s'.field? other = _ := lookup_fieldsOf path _ shape other
  rw [read, read']
  cases found : shape.lookup other with
  | none => exact ⟨rfl, fun _ => rfl⟩
  | some node =>
    obtain ⟨place, type, same⟩ := h.fieldOf_eq base (mem_of_lookup found) path
    exact ⟨congrArg some (Prod.ext place type), fun apart => congrArg some (same apart)⟩

theorem DifferAt.agreeBut (h : c.DifferAt d root extra extra' name)
    (base : root.unwrap.form = .object shape) (path : Path) :
    AgreeBut name (c.schemaOf path (c.effective root.unwrap.id extra) shape)
      (d.schemaOf path (d.effective root.unwrap.id extra') shape) where
  path := rfl
  names := by rw [schemaOf, schemaOf, names_fieldsOf, names_fieldsOf]
  others other := (h.field?_eq base path other).2
  own := (h.field?_eq base path name).1
  inside q deep := by
    refine below?_congr (fun other => ?_) deep
    have types := congrArg (Option.map Prod.snd) (h.field?_eq base path other).1
    rwa [Option.map_map, Option.map_map] at types
  options := h.effective.finalOptions
  unknownKeys := h.effective.unknownKeys

/-- If the name is not declared nothing tells the two compiles apart. -/
theorem DifferAt.schema_eq (h : c.DifferAt d root extra extra' name)
    (base : root.unwrap.form = .object shape) (undeclared : name ∉ shape.map (·.1)) (path : Path) :
    c.schema root extra path = d.schema root extra' path := by
  have entries : c.entries path (c.effective root.unwrap.id extra) shape =
      d.entries path (d.effective root.unwrap.id extra') shape := by
    refine SameInside.entries_eq fun entry mem => ?_
    have apart : entry.1 ≠ name := fun same => undeclared (same ▸ List.mem_map_of_mem mem)
    have hasField : root.HasField entry.2 := .entry base mem
    have overrides := h.effective.overrides apart
    rw [entryAt, entryAt, ← overrides]
    exact h.inside.fieldRun_eq (p := ⟨_, _, entry.2⟩) hasField (h.inside.nodeType_eq hasField _)
  rw [Compiler.schema_eq base, Compiler.schema_eq base, entries, assemble, assemble,
    h.effective.finalOptions, h.effective.unknownKeys]

/-- Overrides of one name touch the field of that name, and there the options. All other entries of
the object compile alike, and so does all that is inside an entry, that of the name included,
whatever the name is. Nothing is touched if the name is not declared. -/
theorem overrides_confined (h : c.DifferAt d root extra extra' name)
    (base : root.unwrap.form = .object shape) (path : Path) :
    let a := c.effective root.unwrap.id extra
    let b := d.effective root.unwrap.id extra'
    (∀ entry ∈ shape, let place := path ++ [entry.1]
      c.nodeType place entry.2 = d.nodeType place entry.2 ∧
      (entry.1 ≠ name → c.field entry.2 (some a) (some entry.1) place =
        d.field entry.2 (some b) (some entry.1) place) ∧
      ∀ j j' f f', (c.field entry.2 (some a) (some entry.1) place).outcome j = .ok f →
        (d.field entry.2 (some b) (some entry.1) place).outcome j' = .ok f' →
        f.path = f'.path ∧ f.type = f'.type) ∧
    a.finalOptions = b.finalOptions ∧ a.unknownKeys = b.unknownKeys ∧
    (∀ j j' s s', (c.schema root extra path).outcome j = .ok s →
      (d.schema root extra' path).outcome j' = .ok s' → AgreeBut name s s') ∧
    (name ∉ shape.map (·.1) → c.schema root extra path = d.schema root extra' path) := by
  intro a b
  refine ⟨fun entry mem => ?entries, h.effective.finalOptions, h.effective.unknownKeys, ?schemas,
    fun undeclared => h.schema_eq base undeclared path⟩
  case entries =>
    intro place
    have hasField : root.HasField entry.2 := .entry base mem
    refine ⟨h.inside.nodeType_eq hasField place, fun apart => ?_, ?_⟩
    · have overrides : overridesFor (some a) (some entry.1) =
          overridesFor (some b) (some entry.1) := h.effective.overrides apart
      exact h.inside.field_eq hasField overrides place
    · intro j j' f f' ok ok'
      obtain ⟨-, rfl⟩ := field_eq_of_ok ok
      obtain ⟨-, rfl⟩ := field_eq_of_ok ok'
      obtain ⟨same, type, -⟩ := h.fieldOf_eq base mem path
      exact ⟨same, type⟩
  case schemas =>
    intro j j' s s' ok ok'
    rw [schema_outcome] at ok ok'
    obtain ⟨shape, base', -, rfl⟩ := result_eq_ok_iff.1 ok
    obtain ⟨shape', base'', -, rfl⟩ := result_eq_ok_iff.1 ok'
    cases base'.symm.trans base''
    exact h.agreeBut base' path

end Root

/-- Tags that are an index in one of two compiles, and an override named as their element is in the
path, which reaches nothing. -/
theorem overrides_confined_tags :
    let c : Compiler := { strictRequired := true }
    let text : Node := .base 0 (.scalar .string)
    let shape : List (String × Node) :=
      [("tags", .base 1 (.array text)), ("title", .base 2 (.scalar .string))]
    let root : Node := .base 3 (.object shape)
    let onTags : Annotation :=
      { typeOptions := Table.single "tags" (Table.single "index" (.bool true)) }
    let onElement : Annotation :=
      { typeOptions := Table.single "$" (Table.single "required" (.bool false)) }
    (root.unwrap.form = .object shape ∧ c.DifferAt c root (some onTags) none "tags" ∧
      c.DifferAt c root (some onElement) none "$" ∧ "$" ∉ shape.map (·.1)) ∧
    (∃ s s', (c.schema root (some onTags) []).outcome {} = .ok s ∧
      (c.schema root none []).outcome {} = .ok s' ∧ s.field? "title" = s'.field? "title" ∧
      s.below? ["tags", "$"] = s'.below? ["tags", "$"]) ∧
    c.schema root (some onElement) [] = c.schema root none [] := by
  intro c text shape root onTags onElement
  have apart : ∀ (name : String) (options : Options) (other : String), other ≠ name →
      (Table.single name options).get? other = none := by
    intro name options other h
    simpa using h.symm
  have tags : c.DifferAt c root (some onTags) none "tags" :=
    ⟨.refl c root, rfl, rfl, apart "tags" _⟩
  have element : c.DifferAt c root (some onElement) none "$" :=
    ⟨.refl c root, rfl, rfl, apart "$" _⟩
  have undeclared : "$" ∉ shape.map (·.1) := by decide
  have base : root.unwrap.form = .object shape := rfl
  obtain ⟨-, -, -, schemas, -⟩ := overrides_confined tags base []
  obtain ⟨-, -, -, -, same⟩ := overrides_confined element base []
  have agree := schemas {} {} _ _ rfl rfl
  exact ⟨⟨base, tags, element, undeclared⟩,
    ⟨_, _, rfl, rfl, agree.others "title" (by decide), agree.inside ["tags", "$"] (by decide)⟩,
    same undeclared⟩

end Compiler

end MapperSchema
