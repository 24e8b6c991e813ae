import MapperSchema.Proofs.Authoring.Declared
import MapperSchema.Proofs.Compiler.Composition
import MapperSchema.Proofs.Compiler.Fieldwise

/-! The compiled tree mirrors the tree of nodes: the same positions with the same names, paths that
lead to them, and at each a type of the kind that the node has under its wrappers. -/
namespace MapperSchema

/-- The primitive type that a base without parts is compiled to. -/
inductive Form.MapsTo : Form → Primitive → Prop
  | string : MapsTo (.scalar .string) .string
  | number : MapsTo (.scalar .number) .number
  | boolean : MapsTo (.scalar .boolean) .boolean
  | date : MapsTo (.scalar .date) .date
  | any : MapsTo (.scalar .any) .mixed
  | union (members) : MapsTo (.union members) .mixed
  | truth (b) : MapsTo (.literal (.bool b)) .boolean
  | int (n) : MapsTo (.literal (.int n)) .number
  | float (text) : MapsTo (.literal (.atom (.float text))) .number
  | nan (tag) : MapsTo (.literal (.atom (.nan tag))) .number
  | text (s) : MapsTo (.literal (.text s)) .string
  | other {v} (truth : ∀ b, v ≠ .bool b) (int : ∀ n, v ≠ .int n)
    (float : ∀ text, v ≠ .atom (.float text)) (nan : ∀ tag, v ≠ .atom (.nan tag))
    (text : ∀ s, v ≠ .text s) : MapsTo (.literal v) .mixed

theorem Form.mapsTo_literal (v : Value) : (Form.literal v).MapsTo v.primitive := by
  unfold Value.primitive
  split
  · exact .truth _
  · exact .int _
  · exact .float _
  · exact .nan _
  · exact .text _
  next truth int float nan text => exact .other truth int float nan text

theorem Form.mapsTo_primitive {form : Form} (leaf : form.isLeaf) (base : form.kind ≠ .never) :
    form.MapsTo form.primitive := by
  cases form with
  | scalar s => cases s <;> constructor
  | never => exact absurd rfl base
  | literal v => exact mapsTo_literal v
  | object shape => cases leaf
  | array element => cases leaf
  | union members => exact .union members

/-- The definition of an object with this shape: its names, each once, in declared order. -/
structure Schema.Lists (d : Schema) (place : Path) (shape : List (String × Node)) : Prop where
  path : d.path = place
  names : d.fields.map (·.1) = shape.map (·.1)
  nodup : (d.fields.map (·.1)).Nodup

namespace Compiler

variable {c : Compiler} {p : Position}

/-- A field at a place, and the node that is compiled there. -/
structure Mirrors (c : Compiler) (place : Path) (node : Node) (field : Field) : Prop where
  path : field.path = place
  possible : node.unwrap.form.kind ≠ .never
  document_iff : (∃ schema, field.type = .document schema) ↔ node.unwrap.form.kind = .object
  array_iff : (∃ items, field.type = .array items) ↔ node.unwrap.form.kind = .array
  primitive : node.unwrap.form.kind ≠ .object → node.unwrap.form.kind ≠ .array →
    ∃ type, field.type = .primitive type ∧ node.unwrap.form.MapsTo type
  lists : ∀ shape schema, node.unwrap.form = .object shape → field.type = .document schema →
    schema.Lists place shape
  items : ∀ element items, node.unwrap.form = .array element → field.type = .array items →
    ∀ j, (c.field element none none (place ++ [Path.element])).outcome j = .ok items

/-- Nothing is faulty at the position or inside it. -/
def Sound (c : Compiler) (p : Position) : Prop :=
  ∀ x ∈ positions (c.fieldVisits none p), ¬c.Faulty x

theorem Sound.here (h : c.Sound p) : ¬c.Faulty p :=
  h p ((mem_positions_fieldVisits _ _ _ _).2 (.inr rfl))

theorem Sound.entry {shape : List (String × Node)} {entry : String × Node} (h : c.Sound p)
    (base : p.node.unwrap.form = .object shape) (mem : entry ∈ shape) :
    c.Sound (entryAt p.path (c.store.annotationAt p.node.unwrap.id) entry) := by
  intro x inside
  apply h x
  rw [mem_positions_fieldVisits, visits_object c none p.path base]
  rw [positions_fieldVisits_home c none (some p.path)] at inside
  exact .inl ((mem_positions_schemaVisits _ _ _ _ _).2 ⟨entry, mem, inside⟩)

theorem Sound.element {element : Node} (h : c.Sound p)
    (base : p.node.unwrap.form = .array element) : c.Sound (elementAt p.path element) := by
  intro x inside
  apply h x
  rw [mem_positions_fieldVisits, visits_array c none p.path base]
  exact .inl inside

/-- A field compiles exactly if nothing in it is faulty. -/
theorem field_outcome_eq_ok_iff {node : Node} {a : Option Annotation} {name : Option String}
    {path : Path} {j : Journal} {f : Field} : (c.field node a name path).outcome j = .ok f ↔
      c.Sound (fieldAlone node a name path) ∧ f = c.fieldOf (fieldAlone node a name path) := by
  rw [field_outcome, verdict_eq_ok_iff, firstFault?_eq_none_iff]
  exact and_congr_right fun _ => eq_comm

theorem Sound.mirrors (h : c.Sound p) (declared : p.node.Declared) :
    c.Mirrors p.path p.node (c.fieldOf p) where
  path := rfl
  possible base := h.here (.never base)
  document_iff := by
    rw [Form.kind_eq_object_iff]
    constructor
    · rintro ⟨schema, type⟩
      obtain ⟨shape, base, -⟩ := typeOf_eq_document type
      exact ⟨shape, base⟩
    · rintro ⟨shape, base⟩
      exact ⟨_, typeOf_object c p.path base⟩
  array_iff := by
    rw [Form.kind_eq_array_iff]
    constructor
    · rintro ⟨items, type⟩
      obtain ⟨element, base, -⟩ := typeOf_eq_array type
      exact ⟨element, base⟩
    · rintro ⟨element, base⟩
      exact ⟨_, typeOf_array c p.path base⟩
  primitive notObject notArray := by
    have leaf := p.node.unwrap.form.isLeaf_iff.2 ⟨notObject, notArray⟩
    have maps := Form.mapsTo_primitive leaf fun base => h.here (.never base)
    exact ⟨_, typeOf_leaf c p.path leaf, maps⟩
  lists shape schema base type := by
    obtain ⟨shape', base', rfl⟩ := typeOf_eq_document type
    cases base.symm.trans base'
    have names := c.names_fieldsOf p.path (c.store.annotationAt p.node.unwrap.id) shape
    exact ⟨rfl, names, names ▸ declared.names base⟩
  items element items base type j := by
    obtain ⟨element', base', rfl⟩ := typeOf_eq_array type
    cases base.symm.trans base'
    exact field_outcome_eq_ok_iff.2 ⟨h.element base, rfl⟩

theorem sound_inward : c.Inward fun p => c.Sound p ∧ p.node.Declared where
  entry := fun ⟨sound, declared⟩ base mem => ⟨sound.entry base mem, declared.entry base mem⟩
  element := fun ⟨sound, declared⟩ base => ⟨sound.element base, declared.element base⟩

theorem FieldAt.mirrors {place : Path} {node : Node} {field : Field}
    (h : c.FieldAt (fun p => c.Sound p ∧ p.node.Declared) place node field) :
    c.Mirrors place node field := by
  obtain ⟨p, ⟨sound, declared⟩, rfl, rfl, rfl⟩ := h
  exact sound.mirrors declared

/-- What is visited in a root without faulty positions is sound. -/
theorem Visited.sound {root : Node} {extra : Option Annotation} {path : Path}
    (visited : c.Visited root extra path p)
    (good : ∀ x, c.Visited root extra path x → ¬c.Faulty x) : c.Sound p := by
  intro x inside
  rcases (mem_positions_fieldVisits _ _ _ _).1 inside with inside | rfl
  · exact good x (visited.of_mem_visits inside)
  · exact good x visited

/-- In whatever is compiled, a definition or a single field, the same is found by the same steps as
in the node: a field with the path of those steps, which mirrors the node that stands there. -/
theorem compile_mirrors (c : Compiler) {root : Node} (declared : root.Declared) :
    (∀ extra path d, c.Compiles root extra path d →
      (∃ shape, root.unwrap.form = .object shape ∧ d.Lists path shape) ∧
      ∀ q, q ≠ [] → Option.Rel (c.Mirrors (path ++ q)) (root.below? q) (d.below? q)) ∧
    ∀ a name path j f, (c.field root a name path).outcome j = .ok f →
      ∀ q, Option.Rel (c.Mirrors (path ++ q)) (root.below? q) (f.below? q) := by
  constructor
  · intro extra path d compiled
    obtain ⟨shape, base, good, rfl⟩ := result_eq_ok_iff.1 compiled.result_eq
    constructor
    · have names := c.names_fieldsOf path (c.effective root.unwrap.id extra) shape
      exact ⟨shape, base, rfl, names, names ▸ declared.names base⟩
    · intro q ne
      let a := c.effective root.unwrap.id extra
      have entries : ∀ entry ∈ shape, c.Sound (entryAt path a entry) ∧ entry.2.Declared :=
        fun entry mem => ⟨(Visited.entry base mem).sound good, declared.entry base mem⟩
      exact rel_mono (sound_inward.below_root? base entries ne) fun _ _ => FieldAt.mirrors
  · intro a name path j f ok q
    obtain ⟨sound, rfl⟩ := field_outcome_eq_ok_iff.1 ok
    have whole : c.FieldAt (fun p => c.Sound p ∧ p.node.Declared) path root _ :=
      ⟨_, ⟨sound, declared⟩, rfl, rfl, rfl⟩
    exact rel_mono (sound_inward.below? whole q) fun _ _ => FieldAt.mirrors

/-- A shop with labels, a mark that is always set, and an address of its own in an optional one. -/
theorem compile_mirrors_shop :
    let c : Compiler := ⟨∅, true⟩
    let labels : Node := .base 2 (.array (.wrap 1 .nullable (.base 0 (.scalar .any))))
    let open_ : Node := .base 3 (.literal (.bool true))
    let place : Node := .base 4 (.scalar .string)
    let address : Node := .wrap 6 .optional (.base 5 (.object [("place", place)]))
    let root : Node := .wrap 8 .effects
      (.base 7 (.object [("labels", labels), ("open", open_), ("address", address)]))
    root.Declared ∧ ∃ d, c.Compiles root none ["shop"] d ∧
      d.fields.map (·.1) = ["labels", "open", "address"] ∧
      (∃ f, d.below? ["labels", "$"] = some f ∧ f.path.text = "shop.labels.$" ∧
        f.type = .primitive .mixed) ∧
      (∃ f, d.below? ["open"] = some f ∧ f.type = .primitive .boolean) ∧
      ∃ f schema, d.below? ["address"] = some f ∧ f.type = .document schema ∧
        schema.Lists ["shop", "address"] [("place", place)] := by
  intro c labels open_ place address root
  have place' : place.Declared := Node.declared_base nofun nofun
  have any' : (Node.base 0 (.scalar .any)).Declared := Node.declared_base nofun nofun
  have labels' : labels.Declared := by
    refine Node.declared_base nofun fun part mem => ?_
    rw [List.mem_singleton.1 mem]
    exact Node.declared_wrap any'
  have address' : address.Declared := by
    refine Node.declared_wrap (Node.declared_base ?_ fun part mem => ?_)
    · rintro shape ⟨⟩
      decide
    · rw [List.mem_singleton.1 mem]
      exact place'
  have root' : root.Declared := by
    refine Node.declared_wrap (Node.declared_base ?_ ?_)
    · rintro shape ⟨⟩
      decide
    · rintro part (_ | ⟨_, _ | ⟨_, _ | ⟨_, ⟨⟩⟩⟩⟩)
      · exact labels'
      · exact Node.declared_base nofun nofun
      · exact address'
  have compiled : c.Compiles root none ["shop"] _ := .schema {} rfl
  obtain ⟨⟨shape, base, lists⟩, fields⟩ := (c.compile_mirrors root').1 _ _ _ compiled
  cases base
  refine ⟨root', _, compiled, lists.names, ⟨_, rfl, ?_, rfl⟩, ⟨_, rfl, rfl⟩, ?_⟩
  · cases fields ["labels", "$"] (by decide) with
    | some h =>
      rw [h.path]
      decide +kernel
  · cases fields ["address"] (by decide) with
    | some h => exact ⟨_, _, rfl, rfl, h.lists _ _ rfl rfl⟩

end Compiler

end MapperSchema
