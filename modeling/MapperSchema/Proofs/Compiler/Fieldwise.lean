import MapperSchema.Proofs.Compiler.Compiled
import MapperSchema.Proofs.Compiler.Relocation

/-! An object compiles field by field: its entries are compiled in declared order, each by itself,
and the first fault among them is that of the whole. -/
namespace MapperSchema.Compiler

variable {c : Compiler}

theorem positions_fieldVisits_home (c : Compiler) (home home' : Option Path) (p : Position) :
    positions (c.fieldVisits home p) = positions (c.fieldVisits home' p) := by
  have same : Position.relocate [] = id := rfl
  have h := positions_visits_relocate [] (c := c) home home' p.path p.node
  rw [same, List.map_id] at h
  rw [positions_fieldVisits, positions_fieldVisits, ← h]
  rfl

theorem map_verdict {α β : Type} (vs : List Visit) (a : α) (f : α → β) :
    (c.verdict vs a).map f = c.verdict vs (f a) := by
  unfold verdict
  cases c.firstFault? vs <;> rfl

/-- What is made of two parts in a row fails with the first that fails. -/
theorem verdict_append {α β γ : Type} (vs ws : List Visit) (a : α) (b : β) (f : α → β → γ) :
    c.verdict (vs ++ ws) (f a b) = do
      let x ← c.verdict vs a
      let y ← c.verdict ws b
      return f x y := by
  unfold verdict
  rw [firstFault?_append]
  cases c.firstFault? vs with
  | some fault => rfl
  | none => cases c.firstFault? ws <;> rfl

/-- A field ends as it does by itself, whichever object it is in. -/
theorem verdict_fieldVisits {α : Type} (home : Option Path) (p : Position) (a : α) :
    c.verdict (c.fieldVisits home p) a = c.verdict (c.fieldVisits none p) a := by
  unfold verdict
  rw [firstFault?_eq, firstFault?_eq, positions_fieldVisits_home c home none]

/-- The entry of an object, compiled by itself under the annotation of the object. -/
def entryAlone (c : Compiler) (path : Path) (a : Annotation) (j : Journal)
    (entry : String × Node) : Except Fault (String × Field) :=
  ((c.field entry.2 (some a) (some entry.1) (path ++ [entry.1])).outcome j).map (entry.1, ·)

theorem entryAlone_eq (path : Path) (a : Annotation) (j : Journal) (entry : String × Node) :
    c.entryAlone path a j entry = c.verdict (c.fieldVisits (some path) (entryAt path a entry))
      (entry.1, c.fieldOf (entryAt path a entry)) := by
  rw [entryAlone, field_outcome, map_verdict, verdict_fieldVisits (some path)]
  rfl

/-- The entries run one after the other, each as if it were alone. -/
theorem verdict_entryVisits (path : Path) (a : Annotation) (shape : List (String × Node))
    (j : Journal) : c.verdict (c.entryVisits path a shape) (c.fieldsOf path a shape) =
      shape.mapM (c.entryAlone path a j) := by
  induction shape with
  | nil => rfl
  | cons entry rest ih =>
    rw [List.mapM_cons, ← ih, entryAlone_eq]
    exact verdict_append _ _ _ _ List.cons

/-- An object compiles to the fields that its entries compile to, or fails with the first of them
that fails. -/
theorem schema_outcome_eq_mapM {node : Node} {shape : List (String × Node)}
    (base : node.unwrap.form = .object shape) {extra : Option Annotation} {a : Annotation}
    (effective : c.effective node.unwrap.id extra = a) (path : Path) (j j' : Journal) :
    (c.schema node extra path).outcome j =
      (shape.mapM (c.entryAlone path a j')).map
        fun fields => ⟨path, fields, a.finalOptions, a.unknownKeys⟩ := by
  subst effective
  let a := c.effective node.unwrap.id extra
  have last : c.firstFault? (c.schemaVisits path a shape) =
      c.firstFault? (c.entryVisits path a shape) := by
    rw [schemaVisits, firstFault?_append]
    exact Option.or_none
  rw [schema_outcome, ← verdict_entryVisits, map_verdict, result, rootVisits]
  simp only [base]
  rw [verdict, verdict, last]
  rfl

end MapperSchema.Compiler
