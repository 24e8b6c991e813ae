import Mathlib.Data.List.Basic
import MapperSchema.Proofs.Compiler.Failure

/-! The fields of a definition, and the positions that they come from: a position in a node and a
field in its definition belong together if they are reached by the same steps. -/
namespace MapperSchema

/-- The field is found in the definition, at whatever depth. -/
inductive Schema.Holds (d : Schema) : Field → Prop
  | entry {entry} (mem : entry ∈ d.fields) : Holds d entry.2
  | inner {f schema entry} (outer : Holds d f) (type : f.type = .document schema)
    (mem : entry ∈ schema.fields) : Holds d entry.2
  | items {f items} (outer : Holds d f) (type : f.type = .array items) : Holds d items

namespace Compiler

/-- The position in the root and the field in the definition are found by the same steps: the same
entries of objects, and elements of arrays. -/
inductive Matches (c : Compiler) (root : Node) (extra : Option Annotation) (path : Path)
    (d : Schema) : Position → Field → Prop
  | entry {shape} {i : Nat} {entry f} (base : root.unwrap.form = .object shape)
    (node : shape[i]? = some entry) (field : d.fields[i]? = some (entry.1, f)) :
    Matches c root extra path d (entryAt path (c.effective root.unwrap.id extra) entry) f
  | inner {p g schema shape} {i : Nat} {entry f} (outer : Matches c root extra path d p g)
    (base : p.node.unwrap.form = .object shape) (type : g.type = .document schema)
    (node : shape[i]? = some entry) (field : schema.fields[i]? = some (entry.1, f)) :
    Matches c root extra path d
      (entryAt p.path (c.store.annotationAt p.node.unwrap.id) entry) f
  | element {p g element items} (outer : Matches c root extra path d p g)
    (base : p.node.unwrap.form = .array element) (type : g.type = .array items) :
    Matches c root extra path d (elementAt p.path element) items

variable {c : Compiler} {root : Node} {extra : Option Annotation} {path : Path} {d : Schema}

theorem getElem?_fieldsOf (c : Compiler) (place : Path) (a : Annotation)
    (shape : List (String × Node)) (i : Nat) : (c.fieldsOf place a shape)[i]? =
      shape[i]?.map fun entry => (entry.1, c.fieldOf (entryAt place a entry)) := by
  rw [fieldsOf_eq_map, List.getElem?_map]

theorem typeOf_eq_document {place : Path} {node : Node} {schema : Schema}
    (h : c.typeOf place node = .document schema) :
    ∃ shape, node.unwrap.form = .object shape ∧
      schema = c.schemaOf place (c.store.annotationAt node.unwrap.id) shape := by
  cases base : node.unwrap.form with
  | object shape =>
    rw [typeOf_object c place base, FieldType.document.injEq] at h
    exact ⟨shape, rfl, h.symm⟩
  | array element =>
    rw [typeOf_array c place base] at h
    cases h
  | _ =>
    rw [typeOf_leaf c place (by rw [base]; rfl)] at h
    cases h

theorem typeOf_eq_array {place : Path} {node : Node} {items : Field}
    (h : c.typeOf place node = .array items) :
    ∃ element, node.unwrap.form = .array element ∧ items = c.fieldOf (elementAt place element) := by
  cases base : node.unwrap.form with
  | object shape =>
    rw [typeOf_object c place base] at h
    cases h
  | array element =>
    rw [typeOf_array c place base, FieldType.array.injEq] at h
    exact ⟨element, rfl, h.symm⟩
  | _ =>
    rw [typeOf_leaf c place (by rw [base]; rfl)] at h
    cases h

/-- In a compile that succeeds the field of a position is the one that is compiled there. -/
theorem Matches.sound {p : Position} {f : Field} (m : c.Matches root extra path d p f)
    (ok : c.result root extra path = .ok d) :
    c.Visited root extra path p ∧ f = c.fieldOf p := by
  induction m with
  | @entry shape i entry f base node field =>
    obtain ⟨shape', base', -, rfl⟩ := result_eq_ok_iff.1 ok
    cases base.symm.trans base'
    rw [schemaOf, getElem?_fieldsOf, node, Option.map_some, Option.some.injEq,
      Prod.mk.injEq] at field
    exact ⟨.entry base (List.mem_of_getElem? node), field.2.symm⟩
  | @inner p g schema shape i entry f outer base type node field ih =>
    obtain ⟨visited, rfl⟩ := ih
    obtain ⟨shape', base', rfl⟩ := typeOf_eq_document type
    cases base.symm.trans base'
    rw [schemaOf, getElem?_fieldsOf, node, Option.map_some, Option.some.injEq,
      Prod.mk.injEq] at field
    exact ⟨.inner visited base (List.mem_of_getElem? node), field.2.symm⟩
  | @element p g element items outer base type ih =>
    obtain ⟨visited, rfl⟩ := ih
    obtain ⟨element', base', rfl⟩ := typeOf_eq_array type
    cases base.symm.trans base'
    exact ⟨.element visited base, rfl⟩

theorem exists_entry_of_mem {place : Path} {a : Annotation} {shape : List (String × Node)}
    {field : String × Field} (mem : field ∈ c.fieldsOf place a shape) :
    ∃ (i : Nat) (entry : String × Node), shape[i]? = some entry ∧
      (c.fieldsOf place a shape)[i]? = some (entry.1, field.2) := by
  obtain ⟨i, hi⟩ := List.mem_iff_getElem?.1 mem
  have h := hi
  rw [getElem?_fieldsOf] at h
  obtain ⟨entry, node, rfl⟩ := Option.map_eq_some_iff.1 h
  exact ⟨i, entry, node, hi⟩

/-- Every field of a definition comes from a position. -/
theorem Matches.of_holds (ok : c.result root extra path = .ok d) {f : Field} (h : d.Holds f) :
    ∃ p, c.Matches root extra path d p f := by
  induction h with
  | @entry field mem =>
    obtain ⟨shape, base, -, rfl⟩ := result_eq_ok_iff.1 ok
    obtain ⟨i, entry, node, field⟩ := exists_entry_of_mem mem
    exact ⟨_, .entry base node field⟩
  | @inner g schema field outer type mem ih =>
    obtain ⟨p, m⟩ := ih
    obtain ⟨-, rfl⟩ := m.sound ok
    obtain ⟨shape, base, rfl⟩ := typeOf_eq_document type
    obtain ⟨i, entry, node, field⟩ := exists_entry_of_mem mem
    exact ⟨_, .inner m base type node field⟩
  | @items g items outer type ih =>
    obtain ⟨p, m⟩ := ih
    obtain ⟨-, rfl⟩ := m.sound ok
    obtain ⟨element, base, rfl⟩ := typeOf_eq_array type
    exact ⟨_, .element m base type⟩

end Compiler

end MapperSchema
