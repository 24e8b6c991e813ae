import MapperSchema.Proofs.Annotation.Merging
import MapperSchema.Proofs.Table.Order

/-! Merging as an algebra. Annotations make up a monoid in which giving the same thing again changes
nothing, and so do bags of field options. The laws are equalities of tables, so the order of keys is
part of them. -/
namespace MapperSchema

/-- Merging is associative with a unit, and what has been merged in last may be merged in again. -/
structure Merging {α : Type} (merge : α → α → α) (empty : α) : Prop where
  assoc : ∀ a b c, merge (merge a b) c = merge a (merge b c)
  empty_left : ∀ a, merge empty a = a
  empty_right : ∀ a, merge a empty = a
  again : ∀ a b, merge (merge a b) b = merge a b
  self : ∀ a, merge a a = a

theorem Table.merging {κ α : Type} [BEq κ] [EquivBEq κ] :
    Merging (merge : Table κ α → Table κ α → Table κ α) ∅ where
  assoc := merge_assoc
  empty_left := empty_merge
  empty_right := merge_empty
  again t u := by rw [merge_assoc, merge_self]
  self := merge_self

namespace Annotation

variable (t u w : Table String Options)

theorem keys_onTop : (onTop t u).keys = u.keys := by
  simp [onTop, Table.keys, Function.comp_def]

theorem keys_mergeTypeOptions :
    (mergeTypeOptions t u).keys = t.keys ++ u.keys.filter fun k => !t.contains k := by
  rw [mergeTypeOptions_eq, Table.keys_merge, keys_onTop]

/-- The overrides of a field after a merge: the update's on top of those that it had. -/
theorem get?_mergeTypeOptions (name : String) : (mergeTypeOptions t u).get? name =
    ((u.get? name).map (((t.get? name).getD ∅).merge ·)).or (t.get? name) := by
  rw [mergeTypeOptions_eq, Table.get?_merge, get?_onTop]

theorem overrides_merge (a b : Annotation) (name : String) :
    (a.merge b).overrides name = (a.overrides name).merge (b.overrides name) := by
  unfold overrides merge
  rw [get?_mergeTypeOptions]
  cases b.typeOptions.get? name <;> simp

theorem contains_mergeTypeOptions (name : String) :
    (mergeTypeOptions t u).contains name = (t.contains name || u.contains name) := by
  unfold Table.contains
  rw [get?_mergeTypeOptions, Option.isSome_or, Option.isSome_map, Bool.or_comm]

/-- As for tables, although what is merged in depends here on what is there. -/
theorem mergeTypeOptions_assoc :
    mergeTypeOptions (mergeTypeOptions t u) w = mergeTypeOptions t (mergeTypeOptions u w) := by
  apply Table.ext_get?
  · simp only [keys_mergeTypeOptions, contains_mergeTypeOptions, List.filter_append,
      List.filter_filter, List.append_assoc, Bool.not_or]
  · intro name
    simp only [get?_mergeTypeOptions]
    cases t.get? name <;> cases u.get? name <;> cases w.get? name <;> simp [Table.merge_assoc]

theorem mergeTypeOptions_self : mergeTypeOptions t t = t := by
  apply Table.ext_get?
  · have none : t.keys.filter (fun k => !t.contains k) = [] := by
      rw [List.filter_eq_nil_iff]
      intro k mem
      simp [Table.contains_of_mem_keys mem]
    rw [keys_mergeTypeOptions, none, List.append_nil]
  · intro name
    rw [get?_mergeTypeOptions]
    cases t.get? name <;> simp

theorem merge_assoc (a b c : Annotation) : (a.merge b).merge c = a.merge (b.merge c) := by
  simp only [merge, Table.merge_assoc, mergeTypeOptions_assoc, Option.or_assoc]

@[simp] theorem merge_self (a : Annotation) : a.merge a = a := by
  simp only [merge, Table.merge_self, mergeTypeOptions_self, Option.or_self]

theorem merging : Merging merge ∅ where
  assoc := merge_assoc
  empty_left := empty_merge
  empty_right := merge_empty
  again a b := by rw [merge_assoc, merge_self]
  self := merge_self

/-- What is read from an annotation that two others are merged to. The second decides wherever it
says something: on each schema option, on each option of each field, and on unknown keys. -/
structure Combines (a b m : Annotation) : Prop where
  schemaOption : ∀ k, m.schemaOptions.get? k = (b.schemaOptions.get? k).or (a.schemaOptions.get? k)
  override : ∀ name k,
    (m.overrides name).get? k = ((b.overrides name).get? k).or ((a.overrides name).get? k)
  name : ∀ name, m.typeOptions.contains name = (a.typeOptions.contains name ||
    b.typeOptions.contains name)
  unknownKeys : m.unknownKeys = b.unknownKeys.or a.unknownKeys

theorem merge_combines (a b : Annotation) : Combines a b (a.merge b) where
  schemaOption := Table.get?_merge a.schemaOptions b.schemaOptions
  override := get?_overrides_merge a b
  name := contains_mergeTypeOptions a.typeOptions b.typeOptions
  unknownKeys := rfl

/-- Merging obeys the laws of an idempotent monoid, for annotations as for bags of field options,
and an annotation reads as the last of those that it is merged of. -/
theorem merging_lawful : Merging merge ∅ ∧ (∀ a b, Combines a b (a.merge b)) ∧
    Merging (Table.merge : Bag → Bag → Bag) ∅ :=
  ⟨merging, merge_combines, Table.merging⟩

end Annotation

end MapperSchema
