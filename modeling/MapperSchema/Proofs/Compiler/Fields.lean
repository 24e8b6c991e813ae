import MapperSchema.Proofs.Authoring.Identity
import MapperSchema.Proofs.Compiler.Visited

/-! The fields of a root, which are the nodes at visited positions. All of them are found in the
parts of the root's base. -/
namespace MapperSchema

namespace Node

/-- The fields of a root, at any depth. There are none in a union. -/
inductive HasField (root : Node) : Node → Prop
  | entry {shape entry} (base : root.unwrap.form = .object shape) (mem : entry ∈ shape) :
    HasField root entry.2
  | inner {field shape entry} (outer : HasField root field)
    (base : field.unwrap.form = .object shape) (mem : entry ∈ shape) : HasField root entry.2
  | element {field element} (outer : HasField root field)
    (base : field.unwrap.form = .array element) : HasField root element

variable {n root field layer part : Node}

theorem Within.of_mem_layers (h : layer ∈ n.unwrap.layers) : layer.Within n := by
  induction n with
  | wrap id modifier inner ih =>
    rw [unwrap_wrap, Unwrapped.layers_under] at h
    rcases List.mem_cons.1 h with rfl | h
    · exact .self
    · exact .inner (ih h)
  | _ =>
    rw [List.mem_singleton.1 h]
    exact .self

theorem base_within (n : Node) : n.unwrap.base.Within n := by
  induction n with
  | wrap id modifier inner ih => exact .inner (by simpa using ih)
  | _ => exact .self

/-- All layers lead to the base. -/
theorem base_within_layer (h : layer ∈ n.unwrap.layers) : n.unwrap.base.Within layer := by
  induction n with
  | wrap id modifier inner ih =>
    rw [unwrap_wrap, Unwrapped.layers_under] at h
    rw [unwrap_wrap, Unwrapped.base_under]
    rcases List.mem_cons.1 h with rfl | h
    · exact .inner inner.base_within
    · exact ih h
  | _ =>
    rw [List.mem_singleton.1 h]
    exact .self

theorem within_of_mem_inside (h : part ∈ n.unwrap.form.inside) : part.Within n :=
  (Within.part h .self : part.Within n.unwrap.base).trans n.base_within

/-- Fields are found in the parts of the root's base. -/
theorem HasField.within (h : root.HasField field) :
    ∃ part ∈ root.unwrap.form.inside, field.Within part := by
  induction h with
  | @entry shape entry base mem =>
    refine ⟨entry.2, ?_, .self⟩
    rw [base]
    exact List.mem_map_of_mem mem
  | @inner field shape entry outer base mem ih =>
    obtain ⟨part, inside, within⟩ := ih
    have entryWithin : entry.2.Within field := within_of_mem_inside (by
      rw [base]
      exact List.mem_map_of_mem mem)
    exact ⟨part, inside, entryWithin.trans within⟩
  | @element field element outer base ih =>
    obtain ⟨part, inside, within⟩ := ih
    have elementWithin : element.Within field := within_of_mem_inside (by
      rw [base]
      exact List.mem_singleton_self element)
    exact ⟨part, inside, elementWithin.trans within⟩

theorem HasField.within_root (h : root.HasField field) : field.Within root := by
  obtain ⟨part, inside, within⟩ := h.within
  exact within.trans (within_of_mem_inside inside)

/-- No layer of a root is used again as a layer of one of its fields: the root's base would be
inside one of its own parts. -/
theorem HasField.layers_apart {bound : NodeId} (made : root.MadeBefore bound)
    (h : root.HasField field) (outer : layer ∈ root.unwrap.layers) :
    layer ∉ field.unwrap.layers := by
  intro again
  obtain ⟨part, inside, within⟩ := h.within
  have inPart : root.unwrap.base.Within part :=
    (base_within_layer outer).trans ((Within.of_mem_layers again).trans within)
  have lt := (MadeBefore.within inPart (made.unwrap.2 part inside)).id_lt
  exact absurd lt (Nat.lt_irrefl _)

end Node

/-- The nodes at visited positions are fields. -/
theorem Compiler.Visited.hasField {c : Compiler} {root : Node} {extra : Option Annotation}
    {path : Path} {p : Position} (h : c.Visited root extra path p) :
    root.HasField p.node := by
  induction h with
  | entry base mem => exact .entry base mem
  | inner outer base mem ih => exact .inner ih base mem
  | element outer base ih => exact .element ih base

end MapperSchema
