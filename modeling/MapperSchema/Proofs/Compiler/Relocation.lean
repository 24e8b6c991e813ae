import Mathlib.Data.List.Basic
import MapperSchema.Proofs.Compiler.Failure
import MapperSchema.Proofs.Schema.Relocation

/-! Compiling below a path: the same visits, faults and definition, relocated. -/
namespace MapperSchema

def Position.relocate (p : Path) (x : Position) : Position := { x with path := p ++ x.path }

namespace Compiler

variable {c : Compiler} (p : Path)

theorem entryAt_relocate (path : Path) (a : Annotation) (entry : String × Node) :
    entryAt (p ++ path) a entry = (entryAt path a entry).relocate p := by
  rw [entryAt, List.append_assoc]
  rfl

theorem elementAt_relocate (path : Path) (element : Node) :
    elementAt (p ++ path) element = (elementAt path element).relocate p := by
  rw [elementAt, List.append_assoc]
  rfl

/-- Whether a position is faulty does not depend on where it is. -/
theorem fault?_relocate (c : Compiler) (x : Position) :
    c.fault? (x.relocate p) = (c.fault? x).map (Fault.relocate p) := by
  have node : (x.relocate p).node = x.node := rfl
  have given : c.givenRequired? (x.relocate p) = c.givenRequired? x := rfl
  unfold fault?
  rw [node, given]
  by_cases hn : x.node.unwrap.form.kind = .never
  · rw [if_pos hn, if_pos hn]
    rfl
  · rw [if_neg hn, if_neg hn]
    cases c.givenRequired? x with
    | none => rfl
    | some r =>
      cases hc : c.conflicts x.node.unwrap r with
      | false => simp [hc]
      | true =>
        simp only [hc, if_true]
        rfl

theorem default?_relocate (u : Unwrapped) (type : FieldType) (given : Bag) :
    default? u (type.relocate p) given = default? u type given := by
  unfold default?
  rw [FieldType.isPrimitive_relocate]

theorem fieldAt_relocate (x : Position) (type : FieldType) :
    c.fieldAt (x.relocate p) (type.relocate p) = (c.fieldAt x type).relocate p := by
  have node : (x.relocate p).node = x.node := rfl
  have given : c.givenAt (x.relocate p) = c.givenAt x := rfl
  have required : c.requiredAt (x.relocate p) = c.requiredAt x := rfl
  rw [fieldAt, fieldAt, Field.relocate, node, given, required, default?_relocate]
  rfl

theorem fieldOf_relocate {x : Position}
    (h : c.typeOf (p ++ x.path) x.node = (c.typeOf x.path x.node).relocate p) :
    c.fieldOf (x.relocate p) = (c.fieldOf x).relocate p := by
  rw [fieldOf, fieldOf, ← fieldAt_relocate, ← h]
  rfl

theorem schemaOf_relocate {path : Path} {a : Annotation} {shape : List (String × Node)}
    (h : ∀ entry ∈ shape, c.fieldOf ((entryAt path a entry).relocate p) =
      (c.fieldOf (entryAt path a entry)).relocate p) :
    c.schemaOf (p ++ path) a shape = (c.schemaOf path a shape).relocate p := by
  have fields : c.fieldsOf (p ++ path) a shape = relocateFields p (c.fieldsOf path a shape) := by
    rw [relocateFields_eq_map, fieldsOf_eq_map, fieldsOf_eq_map, List.map_map]
    apply List.map_congr_left
    intro entry mem
    rw [entryAt_relocate, h entry mem]
    rfl
  rw [schemaOf, schemaOf, Schema.relocate, fields]

theorem typeOf_relocate (path : Path) (node : Node) :
    c.typeOf (p ++ path) node = (c.typeOf path node).relocate p := by
  induction node using Node.inductUnwrapped generalizing path with
  | object node shape base ih =>
    rw [typeOf_object c _ base, typeOf_object c _ base, FieldType.relocate, schemaOf_relocate]
    intro entry mem
    apply fieldOf_relocate
    exact ih entry mem _
  | array node element base ih =>
    rw [typeOf_array c _ base, typeOf_array c _ base, FieldType.relocate, elementAt_relocate,
      fieldOf_relocate]
    exact ih _
  | leaf node leaf =>
    rw [typeOf_leaf c _ leaf, typeOf_leaf c _ leaf, FieldType.relocate]

theorem positions_fieldVisits_relocate {home home' : Option Path} {x : Position}
    (h : positions (c.visits home (p ++ x.path) x.node) =
      (positions (c.visits home' x.path x.node)).map (Position.relocate p)) :
    positions (c.fieldVisits home (x.relocate p)) =
      (positions (c.fieldVisits home' x)).map (Position.relocate p) := by
  rw [positions_fieldVisits, positions_fieldVisits, List.map_append, ← h]
  rfl

theorem positions_schemaVisits_relocate {path : Path} {a : Annotation}
    {shape : List (String × Node)}
    (h : ∀ entry ∈ shape,
      positions (c.fieldVisits (some (p ++ path)) ((entryAt path a entry).relocate p)) =
        (positions (c.fieldVisits (some path) (entryAt path a entry))).map (Position.relocate p)) :
    positions (c.schemaVisits (p ++ path) a shape) =
      (positions (c.schemaVisits path a shape)).map (Position.relocate p) := by
  rw [positions_schemaVisits, positions_schemaVisits, List.map_flatMap]
  apply List.flatMap_congr
  intro entry mem
  rw [entryAt_relocate, h entry mem]

theorem positions_visits_relocate (home home' : Option Path) (path : Path) (node : Node) :
    positions (c.visits home (p ++ path) node) =
      (positions (c.visits home' path node)).map (Position.relocate p) := by
  induction node using Node.inductUnwrapped generalizing home home' path with
  | object node shape base ih =>
    rw [visits_object c _ _ base, visits_object c _ _ base, positions_schemaVisits_relocate]
    intro entry mem
    apply positions_fieldVisits_relocate
    exact ih entry mem _ _ _
  | array node element base ih =>
    rw [visits_array c _ _ base, visits_array c _ _ base, elementAt_relocate,
      positions_fieldVisits_relocate]
    exact ih _ _ _
  | leaf node leaf =>
    rw [visits_leaf c _ _ leaf, visits_leaf c _ _ leaf]
    rfl

/-- The first fault in the same places further down. -/
theorem firstFault?_relocate {vs ws : List Visit}
    (h : positions ws = (positions vs).map (Position.relocate p)) :
    c.firstFault? ws = (c.firstFault? vs).map (Fault.relocate p) := by
  have faults : c.fault? ∘ Position.relocate p = Option.map (Fault.relocate p) ∘ c.fault? := by
    funext x
    exact fault?_relocate p c x
  rw [firstFault?_eq, firstFault?_eq, h, List.findSome?_map, faults, List.map_findSome?]

theorem rootVisits_relocate (c : Compiler) (node : Node) (extra : Option Annotation) (path : Path) :
    positions (c.rootVisits node extra (p ++ path)) =
      (positions (c.rootVisits node extra path)).map (Position.relocate p) := by
  unfold rootVisits
  cases base : node.unwrap.form with
  | object shape =>
    apply positions_schemaVisits_relocate
    intro entry mem
    apply positions_fieldVisits_relocate
    exact positions_visits_relocate p _ _ _ _
  | _ => rfl

/-- A compile below a path ends as it does at the top, relocated. -/
theorem result_relocate (c : Compiler) (node : Node) (extra : Option Annotation) (path : Path) :
    c.result node extra (p ++ path) = relocated p (c.result node extra path) := by
  have first := firstFault?_relocate (c := c) p (rootVisits_relocate p c node extra path)
  unfold result
  cases base : node.unwrap.form with
  | object shape =>
    have outline : c.schemaOf (p ++ path) (c.effective node.unwrap.id extra) shape =
        (c.schemaOf path (c.effective node.unwrap.id extra) shape).relocate p := by
      apply schemaOf_relocate
      intro entry mem
      apply fieldOf_relocate
      exact typeOf_relocate p _ _
    simp only [verdict, first, outline]
    cases c.firstFault? (c.rootVisits node extra path) <;> rfl
  | _ => rfl

end Compiler

end MapperSchema
