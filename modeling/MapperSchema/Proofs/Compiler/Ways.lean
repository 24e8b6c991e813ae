import MapperSchema.Proofs.Authoring.Declared
import MapperSchema.Proofs.Compiler.Matching
import MapperSchema.Proofs.Schema.Revision

/-! Ways into a node, and into a definition: the turns that are taken, told by number, and the
segments that they are called by. A definition has the ways of its node; and as every object
declares different names, and is not an array at the same time, the segments determine the way. -/
namespace MapperSchema

/-- What a turn is called, and the node that it leads to. -/
def Form.step? : Turn → Form → Option (String × Node)
  | .entry i, .object shape => shape[i]?
  | .items, .array element => some (Path.element, element)
  | _, _ => none

/-- What a turn is called, and the field that it leads to. -/
def FieldType.step? : Turn → FieldType → Option (String × Field)
  | .entry i, .document schema => schema.fields[i]?
  | .items, .array items => some (Path.element, items)
  | _, _ => none

/-- The way leads to the node, past these segments: names of entries, and `$` for elements. -/
inductive Form.Leads (form : Form) : List Turn → Path → Node → Prop
  | one {turn name node} (step : form.step? turn = some (name, node)) :
    Leads form [turn] [name] node
  | on {way q outer turn name node} (before : Leads form way q outer)
    (step : outer.unwrap.form.step? turn = some (name, node)) :
    Leads form (way ++ [turn]) (q ++ [name]) node

/-- The way leads to the field, past these segments. -/
inductive FieldType.Leads (type : FieldType) : List Turn → Path → Field → Prop
  | one {turn name field} (step : type.step? turn = some (name, field)) :
    Leads type [turn] [name] field
  | on {way q outer turn name field} (before : Leads type way q outer)
    (step : outer.type.step? turn = some (name, field)) :
    Leads type (way ++ [turn]) (q ++ [name]) field

theorem Form.exists_step?_entry {form : Form} {shape : List (String × Node)}
    {entry : String × Node} (base : form = .object shape) (mem : entry ∈ shape) :
    ∃ i, form.step? (.entry i) = some entry := by
  rw [base]
  exact List.mem_iff_getElem?.1 mem

theorem Form.step?_items {form : Form} {element : Node} (base : form = .array element) :
    form.step? .items = some (Path.element, element) := by
  rw [base]
  rfl

theorem FieldType.exists_step?_entry {type : FieldType} {schema : Schema} {entry : String × Field}
    (document : type = .document schema) (mem : entry ∈ schema.fields) :
    ∃ i, type.step? (.entry i) = some entry := by
  rw [document]
  exact List.mem_iff_getElem?.1 mem

theorem FieldType.step?_items {type : FieldType} {items : Field} (array : type = .array items) :
    type.step? .items = some (Path.element, items) := by
  rw [array]
  rfl

/-- Every field of a definition is found on a way. -/
theorem Schema.Holds.leads {d : Schema} {field : Field} (held : d.Holds field) :
    ∃ way q, (FieldType.document d).Leads way q field := by
  induction held with
  | entry mem =>
    obtain ⟨i, step⟩ := FieldType.exists_step?_entry rfl mem
    exact ⟨_, _, .one step⟩
  | inner _ type mem ih =>
    obtain ⟨way, q, led⟩ := ih
    obtain ⟨i, step⟩ := FieldType.exists_step?_entry type mem
    exact ⟨_, _, .on led step⟩
  | items _ type ih =>
    obtain ⟨way, q, led⟩ := ih
    exact ⟨_, _, .on led (FieldType.step?_items type)⟩

/-- Entries are told apart by their names. -/
theorem eq_of_getElem?_names {α : Type} {entries : List (String × α)} {i i' : Nat} {name : String}
    {a a' : α} (nodup : (entries.map (·.1)).Nodup) (here : entries[i]? = some (name, a))
    (there : entries[i']? = some (name, a')) : i = i' := by
  have lt : i < (entries.map (·.1)).length := by
    rw [List.length_map]
    exact (List.getElem?_eq_some_iff.1 here).1
  apply (List.getElem?_inj lt nodup).1
  rw [List.getElem?_map, List.getElem?_map, here, there]
  rfl

namespace Form

variable {form : Form} {turn turn' : Turn} {name : String} {n n' root : Node}

/-- One turn has the name. An entry may be called `$`, but the form that has it is no array. -/
theorem step?_eq_of_name (nodup : ∀ shape, form = .object shape → (shape.map (·.1)).Nodup)
    (h : form.step? turn = some (name, n)) (h' : form.step? turn' = some (name, n')) :
    turn = turn' ∧ n = n' := by
  have same : turn = turn' := by
    cases form with
    | object shape =>
      cases turn with
      | items => cases h
      | entry i =>
        cases turn' with
        | items => cases h'
        | entry i' => rw [eq_of_getElem?_names (nodup shape rfl) h h']
    | array element =>
      cases turn with
      | entry i => cases h
      | items =>
        cases turn' with
        | entry i' => cases h'
        | items => rfl
    | _ => cases turn <;> cases h
  subst same
  exact ⟨rfl, (Prod.mk.inj (Option.some.inj (h.symm.trans h'))).2⟩

theorem declared_of_step? (declared : root.Declared)
    (step : root.unwrap.form.step? turn = some (name, n)) : n.Declared := by
  cases base : root.unwrap.form with
  | object shape =>
    rw [base] at step
    cases turn with
    | items => cases step
    | entry i => exact declared.entry base (List.mem_of_getElem? step)
  | array element =>
    rw [base] at step
    cases turn with
    | entry i => cases step
    | items =>
      cases step
      exact declared.element base
  | _ =>
    rw [base] at step
    cases turn <;> cases step

variable {way way' : List Turn} {q : Path}

theorem Leads.declared (h : root.unwrap.form.Leads way q n) (declared : root.Declared) :
    n.Declared := by
  induction h with
  | one step => exact declared_of_step? declared step
  | on _ step ih => exact declared_of_step? ih step

theorem Leads.ne_nil (h : form.Leads way q n) : q ≠ [] := by
  cases h <;> simp

/-- The last turn of a way, by the last of its segments. -/
theorem Leads.last (h : form.Leads way (q ++ [name]) n) :
    (q = [] ∧ ∃ turn, way = [turn] ∧ form.step? turn = some (name, n)) ∨
      ∃ before outer turn, way = before ++ [turn] ∧ form.Leads before q outer ∧
        outer.unwrap.form.step? turn = some (name, n) := by
  generalize segments : q ++ [name] = r at h
  cases h with
  | @one turn name' n step =>
    have split : q ++ [name] = [] ++ [name'] := segments
    obtain ⟨rfl, same⟩ := List.append_inj' split rfl
    cases same
    exact .inl ⟨rfl, turn, rfl, step⟩
  | @on before q' outer turn name' n led step =>
    obtain ⟨rfl, same⟩ := List.append_inj' segments rfl
    cases same
    exact .inr ⟨before, outer, turn, rfl, led, step⟩

/-- The segments determine the way, where no object declares a name twice. -/
theorem Leads.eq_of_segments (declared : root.Declared) (h : root.unwrap.form.Leads way q n)
    (h' : root.unwrap.form.Leads way' q n') : way = way' ∧ n = n' := by
  induction h generalizing way' n' with
  | @one turn name n step =>
    obtain ⟨-, turn', rfl, step'⟩ | ⟨before, outer, turn', rfl, led, -⟩ :=
      Leads.last (q := []) h'
    · obtain ⟨rfl, rfl⟩ := step?_eq_of_name (fun _ => declared.names) step step'
      exact ⟨rfl, rfl⟩
    · exact absurd rfl led.ne_nil
  | @on before q outer turn name n led step ih =>
    obtain ⟨rfl, -⟩ | ⟨before', outer', turn', rfl, led', step'⟩ := h'.last
    · exact absurd rfl led.ne_nil
    · obtain ⟨rfl, rfl⟩ := ih led'
      obtain ⟨rfl, rfl⟩ := step?_eq_of_name (fun _ => (led.declared declared).names) step step'
      exact ⟨rfl, rfl⟩

end Form

namespace Compiler

variable {c : Compiler} {place : Path} {type : FieldType} {form : Form}

/-- Each turn into the type is one into the form, to the node of the field's position. -/
def Outlines (c : Compiler) (place : Path) (form : Form) (type : FieldType) : Prop :=
  ∀ turn name f, type.step? turn = some (name, f) →
    ∃ p, form.step? turn = some (name, p.node) ∧ p.path = place ++ [name] ∧ f = c.fieldOf p

theorem outlines_object (c : Compiler) (place : Path) (a : Annotation)
    (shape : List (String × Node)) :
    c.Outlines place (.object shape) (.document (c.schemaOf place a shape)) := by
  intro turn name f step
  cases turn with
  | items => cases step
  | entry i =>
    rw [FieldType.step?, schemaOf, getElem?_fieldsOf] at step
    obtain ⟨entry, there, same⟩ := Option.map_eq_some_iff.1 step
    cases same
    exact ⟨entryAt place a entry, there, rfl, rfl⟩

theorem outlines_typeOf (c : Compiler) (place : Path) (node : Node) :
    c.Outlines place node.unwrap.form (c.typeOf place node) := by
  cases base : node.unwrap.form with
  | object shape =>
    rw [typeOf_object c place base]
    exact c.outlines_object place _ shape
  | array element =>
    rw [typeOf_array c place base]
    intro turn name f step
    cases turn with
    | entry i => cases step
    | items =>
      cases step
      exact ⟨elementAt place element, rfl, rfl, rfl⟩
  | _ =>
    rw [typeOf_leaf c place (by rw [base]; rfl)]
    intro turn name f step
    cases turn <;> cases step

/-- A way into a type leads to the field of what it leads to in the form, and the segments are the
rest of the field's path. -/
theorem Outlines.leads (h : c.Outlines place form type) {way : List Turn} {q : Path} {f : Field}
    (led : type.Leads way q f) :
    ∃ p, form.Leads way q p.node ∧ p.path = place ++ q ∧ f = c.fieldOf p := by
  induction led with
  | one step =>
    obtain ⟨p, step, path, field⟩ := h _ _ _ step
    exact ⟨p, .one step, path, field⟩
  | on _ step ih =>
    obtain ⟨outer, led, path, rfl⟩ := ih
    obtain ⟨p, step, inner, field⟩ := c.outlines_typeOf outer.path outer.node _ _ _ step
    exact ⟨p, .on led step, by rw [inner, path, List.append_assoc], field⟩

/-- A visited position is found by a way, and the segments are the rest of its path. -/
theorem Visited.leads {root : Node} {extra : Option Annotation} {path : Path} {p : Position}
    (visited : c.Visited root extra path p) :
    ∃ way q, root.unwrap.form.Leads way q p.node ∧ p.path = path ++ q := by
  induction visited with
  | entry base mem =>
    obtain ⟨i, step⟩ := Form.exists_step?_entry base mem
    exact ⟨_, _, .one step, rfl⟩
  | inner _ base mem ih =>
    obtain ⟨way, q, led, place⟩ := ih
    obtain ⟨i, step⟩ := Form.exists_step?_entry base mem
    exact ⟨_, _, .on led step, by rw [entryAt, place, List.append_assoc]⟩
  | element _ base ih =>
    obtain ⟨way, q, led, place⟩ := ih
    exact ⟨_, _, .on led (Form.step?_items base), by rw [elementAt, place, List.append_assoc]⟩

end Compiler

end MapperSchema
