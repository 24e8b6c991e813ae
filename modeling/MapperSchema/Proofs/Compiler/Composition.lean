import MapperSchema.Proofs.Compiler.Relocation

/-! A compile is made of compiles. What is found on a way into a definition is the field of what is
found on the same way into the node, and an object in there compiles to the same by itself. -/
namespace MapperSchema

theorem rel_bind {α β : Type} {r r' : α → β → Prop} {a : Option α} {b : Option β}
    {f : α → Option α} {g : β → Option β} (h : Option.Rel r a b)
    (h' : ∀ a b, r a b → Option.Rel r' (f a) (g b)) : Option.Rel r' (a.bind f) (b.bind g) := by
  cases h with
  | none => exact .none
  | some h => exact h' _ _ h

theorem rel_mono {α β : Type} {r r' : α → β → Prop} {a : Option α} {b : Option β}
    (h : Option.Rel r a b) (h' : ∀ a b, r a b → r' a b) : Option.Rel r' a b := by
  cases h with
  | none => exact .none
  | some h => exact .some (h' _ _ h)

/-- The node one step further in: an entry of an object, or the element of an array. -/
def Node.child? (node : Node) (name : String) : Option Node :=
  match node.unwrap.form with
  | .object shape => shape.lookup name
  | .array element => if name = Path.element then some element else none
  | _ => none

def Node.below? (node : Node) : Path → Option Node
  | [] => some node
  | name :: rest => (node.child? name).bind (·.below? rest)

/-- The field one step further in. -/
def FieldType.child? (type : FieldType) (name : String) : Option Field :=
  match type with
  | .document schema => schema.field? name
  | .array items => if name = Path.element then some items else none
  | .primitive _ => none

def Field.below? (field : Field) : Path → Option Field
  | [] => some field
  | name :: rest => (field.type.child? name).bind (·.below? rest)

def Schema.below? (schema : Schema) : Path → Option Field
  | [] => none
  | name :: rest => (schema.field? name).bind (·.below? rest)

namespace Compiler

variable {c : Compiler} {root : Node} {extra : Option Annotation} {path : Path}

/-- The field is the one of a visited position with the node. -/
def Found (c : Compiler) (root : Node) (extra : Option Annotation) (path place : Path) (node : Node)
    (field : Field) : Prop :=
  ∃ p, c.Visited root extra path p ∧ p.path = place ∧ p.node = node ∧ field = c.fieldOf p

theorem lookup_fieldsOf (path : Path) (a : Annotation) (shape : List (String × Node))
    (name : String) : (c.fieldsOf path a shape).lookup name =
      (shape.lookup name).map fun node => c.fieldOf (entryAt path a (name, node)) := by
  rw [fieldsOf_eq_map]
  induction shape with
  | nil => rfl
  | cons entry rest ih =>
    rw [List.map_cons, List.lookup_cons, List.lookup_cons]
    cases h : name == entry.1 with
    | false => exact ih
    | true => rw [beq_iff_eq.1 h]; rfl

theorem mem_of_lookup {shape : List (String × Node)} {name : String} {node : Node}
    (h : shape.lookup name = some node) : (name, node) ∈ shape := by
  obtain ⟨before, after, hl, -⟩ := List.lookup_eq_some_iff.1 h
  rw [hl]
  simp

section Inward

variable {P : Position → Prop} {place : Path}

/-- The field is the one of a position with this property and this node. -/
def FieldAt (c : Compiler) (P : Position → Prop) (place : Path) (node : Node) (field : Field) :
    Prop :=
  ∃ p, P p ∧ p.path = place ∧ p.node = node ∧ field = c.fieldOf p

/-- What holds of a position holds of those one step further in. -/
structure Inward (c : Compiler) (P : Position → Prop) : Prop where
  entry : ∀ {p shape entry}, P p → p.node.unwrap.form = .object shape → entry ∈ shape →
    P (entryAt p.path (c.store.annotationAt p.node.unwrap.id) entry)
  element : ∀ {p element}, P p → p.node.unwrap.form = .array element →
    P (elementAt p.path element)

theorem Visited.inward : c.Inward (c.Visited root extra path) := ⟨.inner, .element⟩

/-- Entries of an object and fields of its schema are found under the same names. -/
theorem rel_field? {a : Annotation} {shape : List (String × Node)} (name : String)
    (h : ∀ entry ∈ shape, P (entryAt place a entry)) :
    Option.Rel (c.FieldAt P (place ++ [name])) (shape.lookup name)
      ((c.schemaOf place a shape).field? name) := by
  rw [Schema.field?, schemaOf, lookup_fieldsOf]
  cases hl : shape.lookup name with
  | none => exact .none
  | some node => exact .some ⟨_, h _ (mem_of_lookup hl), rfl, rfl, rfl⟩

theorem Inward.child? (inward : c.Inward P) {p : Position} (h : P p) (name : String) :
    Option.Rel (c.FieldAt P (p.path ++ [name])) (p.node.child? name)
      ((c.typeOf p.path p.node).child? name) := by
  unfold Node.child?
  cases base : p.node.unwrap.form with
  | object shape =>
    rw [typeOf_object c _ base]
    exact rel_field? name fun entry mem => inward.entry h base mem
  | array element =>
    rw [typeOf_array c _ base, FieldType.child?]
    change Option.Rel _ (if name = Path.element then some element else none) _
    by_cases hn : name = Path.element
    · rw [if_pos hn, if_pos hn, hn]
      exact .some ⟨_, inward.element h base, rfl, rfl, rfl⟩
    · rw [if_neg hn, if_neg hn]
      exact .none
  | _ =>
    rw [typeOf_leaf c _ (by rw [base]; rfl)]
    exact .none

/-- Step by step the fields found in a field are those of the nodes found in its node. -/
theorem Inward.below? (inward : c.Inward P) {node : Node} {field : Field}
    (h : c.FieldAt P place node field) (q : Path) :
    Option.Rel (c.FieldAt P (place ++ q)) (node.below? q) (field.below? q) := by
  induction q generalizing place node field with
  | nil =>
    rw [List.append_nil]
    exact .some h
  | cons name rest ih =>
    obtain ⟨p, hp, rfl, rfl, rfl⟩ := h
    refine rel_bind (inward.child? hp name) fun node field found => ?_
    have inner := ih found
    rwa [List.append_assoc] at inner

theorem Inward.below_root? (inward : c.Inward P) {a : Annotation} {shape : List (String × Node)}
    (base : root.unwrap.form = .object shape) (h : ∀ entry ∈ shape, P (entryAt place a entry))
    {q : Path} (ne : q ≠ []) : Option.Rel (c.FieldAt P (place ++ q)) (root.below? q)
      ((c.schemaOf place a shape).below? q) := by
  obtain ⟨name, rest, rfl⟩ := List.exists_cons_of_ne_nil ne
  have entries : Option.Rel (c.FieldAt P (place ++ [name])) (root.child? name)
      ((c.schemaOf place a shape).field? name) := by
    rw [Node.child?, base]
    exact rel_field? name h
  refine rel_bind entries fun node field found => ?_
  have inner := inward.below? found rest
  rwa [List.append_assoc] at inner

end Inward

theorem rel_below? {d : Schema} (h : c.result root extra path = .ok d) {q : Path} (ne : q ≠ []) :
    Option.Rel (c.Found root extra path (path ++ q)) (root.below? q) (d.below? q) := by
  obtain ⟨shape, base, -, rfl⟩ := result_eq_ok_iff.1 h
  exact Visited.inward.below_root? base (fun _ mem => .entry base mem) ne

/-- What is visited from the base of a visited node is visited from the root. -/
theorem Visited.of_base {p q : Position} (outer : c.Visited root extra path p)
    (inner : c.Visited p.node.unwrap.base none p.path q) : c.Visited root extra path q := by
  induction inner with
  | @entry shape entry base mem =>
    have base' : p.node.unwrap.form = .object shape := base
    have visited := Visited.inner outer base' mem
    rwa [← effective_none] at visited
  | inner _ base mem ih => exact .inner ih base mem
  | element _ base ih => exact .element ih base

/-- Within a compile that succeeds, an object compiles by itself to the type of its field. -/
theorem result_base {d : Schema} (h : c.result root extra path = .ok d) {p : Position}
    (visited : c.Visited root extra path p) (object : p.node.unwrap.form.kind = .object) :
    ∃ schema, (c.fieldOf p).type = .document schema ∧
      c.result p.node.unwrap.base none p.path = .ok schema := by
  obtain ⟨-, -, good, -⟩ := result_eq_ok_iff.1 h
  obtain ⟨shape, base⟩ := (Form.kind_eq_object_iff _).1 object
  refine ⟨_, typeOf_object c _ base, result_eq_ok_iff.2 ⟨shape, base, ?_, ?_⟩⟩
  · exact fun q inner => good q (visited.of_base inner)
  · rw [effective_none]
    rfl

/-- The field at a path, for a node found there. If the base of the node is an object, the type
of the field is what the base compiles to by itself. -/
structure Stands (c : Compiler) (path : Path) (node : Node) (field : Field) : Prop where
  path_eq : field.path = path
  alone : node.unwrap.form.kind = .object → ∃ schema, field.type = .document schema ∧
    ∀ j, (c.schema node.unwrap.base none path).outcome j = .ok schema

/-- A compile below a path ends as it does at the top, relocated; and whatever annotation a root is
compiled under, the objects in it compile as they do by themselves. -/
theorem schema_compositional (c : Compiler) (node : Node) (extra : Option Annotation) (path : Path)
    (j j' : Journal) :
    (c.schema node extra path).outcome j = relocated path ((c.schema node extra []).outcome j') ∧
    ∀ d, (c.schema node extra path).outcome j = .ok d →
      ∀ q, q ≠ [] → Option.Rel (c.Stands (path ++ q)) (node.below? q) (d.below? q) := by
  rw [schema_outcome, schema_outcome]
  constructor
  · have h := result_relocate path c node extra []
    rwa [List.append_nil] at h
  · intro d hd q ne
    refine rel_mono (rel_below? hd ne) fun m f found => ?_
    obtain ⟨p, visited, place, rfl, rfl⟩ := found
    refine ⟨place, fun object => ?_⟩
    obtain ⟨schema, type, own⟩ := result_base hd visited object
    refine ⟨schema, type, fun j => ?_⟩
    rw [schema_outcome, ← place, own]

end Compiler

end MapperSchema
