import MapperSchema.Annotation.Basic
import MapperSchema.Table.Merge

/-! Merging of annotations. Overrides merge as tables do once those of each field have been merged
with what the field had before. -/
namespace MapperSchema.Annotation

/-- The overrides of an update, each on top of what the field has already. -/
def onTop (t u : Table String Options) : Table String Options :=
  ⟨u.rows.map fun row => (row.1, ((t.get? row.1).getD ∅).merge row.2), by
    simpa [List.pairwise_map] using u.distinct⟩

theorem foldl_mergeRow (t : Table String Options) (rows : List (String × Options))
    (d : rows.Pairwise fun a b => (a.1 == b.1) = false) (acc : Table String Options)
    (h : ∀ row ∈ rows, acc.get? row.1 = t.get? row.1) :
    rows.foldl (fun acc row => acc.insert row.1 (((acc.get? row.1).getD ∅).merge row.2)) acc =
      (rows.map fun row => (row.1, ((t.get? row.1).getD ∅).merge row.2)).foldl
        (fun acc row => acc.insert row.1 row.2) acc := by
  induction rows generalizing acc with
  | nil => rfl
  | cons row rows ih =>
    obtain ⟨hd, tl⟩ := List.pairwise_cons.1 d
    rw [List.foldl_cons, List.map_cons, List.foldl_cons, h row (by simp)]
    apply ih tl
    intro other mem
    rw [Table.get?_insert, hd other mem]
    exact h other (by simp [mem])

/-- Overrides merge as tables, with the options of each field merged beforehand. -/
theorem mergeTypeOptions_eq (t u : Table String Options) :
    mergeTypeOptions t u = t.merge (onTop t u) :=
  foldl_mergeRow t u.rows u.distinct t fun _ _ => rfl

theorem onTop_empty (u : Table String Options) : onTop ∅ u = u := by
  apply Table.ext
  simp [onTop]

theorem empty_mergeTypeOptions (u : Table String Options) : mergeTypeOptions ∅ u = u := by
  rw [mergeTypeOptions_eq, onTop_empty, Table.empty_merge]

/-- The empty annotation is a unit on the left as well, the order of keys included. -/
@[simp] theorem empty_merge (a : Annotation) : (∅ : Annotation).merge a = a := by
  have hs : (∅ : Options).merge a.schemaOptions = a.schemaOptions := Table.empty_merge _
  have ht : mergeTypeOptions ∅ a.typeOptions = a.typeOptions := empty_mergeTypeOptions _
  have hu : a.unknownKeys.or none = a.unknownKeys := by cases a.unknownKeys <;> rfl
  change Annotation.mk ((∅ : Options).merge a.schemaOptions) (mergeTypeOptions ∅ a.typeOptions)
    (a.unknownKeys.or none) = a
  rw [hs, ht, hu]

theorem get?_onTop (t u : Table String Options) (name : String) :
    (onTop t u).get? name = (u.get? name).map (((t.get? name).getD ∅).merge ·) := by
  change ((u.rows.map _).find? _).map _ = ((u.rows.find? _).map _).map _
  rw [List.find?_map, Option.map_map, Option.map_map]
  apply Option.map_congr
  intro row found
  have key : row.1 = name := by simpa using List.find?_some found
  rw [Function.comp_apply, Function.comp_apply, key]

/-- For each option of a field the update decides, if it has an override for it. -/
theorem get?_overrides_merge (a b : Annotation) (name k : String) :
    ((a.merge b).overrides name).get? k =
      ((b.overrides name).get? k).or ((a.overrides name).get? k) := by
  unfold overrides
  change (((mergeTypeOptions a.typeOptions b.typeOptions).get? name).getD ∅).get? k = _
  rw [mergeTypeOptions_eq, Table.get?_merge, get?_onTop]
  cases b.typeOptions.get? name <;> simp

end MapperSchema.Annotation
