import Mathlib.Data.List.Basic
import Mathlib.Data.List.Induction
import MapperSchema.Table.Merge

/-! Tables read off from rows: a key stands where it first occurs, with the value that comes
last. -/
namespace MapperSchema.Table

variable {κ α : Type} [BEq κ]

/-- The value that comes last under a key. -/
def last? (k : κ) (rows : List (κ × α)) : Option α := (rows.findRev? (·.1 == k)).map (·.2)

/-- Each key once, in the order of first occurrence, with its last value. -/
def condensed (rows : List (κ × α)) : List (κ × α) :=
  (rows.map (·.1)).eraseDups.filterMap fun k => (last? k rows).map (k, ·)

@[simp] theorem last?_append (k : κ) (xs ys : List (κ × α)) :
    last? k (xs ++ ys) = (last? k ys).or (last? k xs) := by
  simp [last?, List.findRev?_eq_find?_reverse, List.find?_append, Option.map_or]

@[simp] theorem last?_singleton (k : κ) (row : κ × α) :
    last? k [row] = if row.1 == k then some row.2 else none := by
  by_cases h : row.1 == k <;> simp [last?, List.findRev?, h]

theorem isSome_last? (k : κ) (rows : List (κ × α)) :
    (last? k rows).isSome = (rows.map (·.1)).any (· == k) := by
  simp only [last?, List.findRev?_eq_find?_reverse, Option.isSome_map, List.isSome_find?,
    List.any_reverse, List.any_map]
  rfl

theorem contains_eq_any_keys (t : Table κ α) (k : κ) : t.contains k = t.keys.any (· == k) := by
  rw [contains_eq, keys, List.any_map]
  rfl

theorem eraseDups_sublist (ks : List κ) : ks.eraseDups.Sublist ks := by
  match ks with
  | [] => exact .slnil
  | k :: ks =>
    rw [List.eraseDups_cons]
    exact .cons_cons k ((eraseDups_sublist _).trans List.filter_sublist)
  termination_by ks.length
  decreasing_by exact Nat.lt_succ_of_le (List.length_filter_le _ _)

theorem ofList_append (xs ys : List (κ × α)) :
    ofList (xs ++ ys) = ys.foldl (fun t row => t.insert row.1 row.2) (ofList xs) :=
  List.foldl_append

theorem ofList_concat (rows : List (κ × α)) (row : κ × α) :
    ofList (rows ++ [row]) = (ofList rows).insert row.1 row.2 := ofList_append rows [row]

/-- Merging a table is reading on through its rows. -/
theorem ofList_merge (xs : List (κ × α)) (t : Table κ α) :
    (ofList xs).merge t = ofList (xs ++ t.rows) := (ofList_append xs t.rows).symm

section Order

variable [EquivBEq κ]

@[simp] theorem get?_ofList (k : κ) (rows : List (κ × α)) :
    (ofList rows).get? k = last? k rows := by
  induction rows using List.reverseRecOn with
  | nil => rfl
  | append_singleton rows row ih =>
    rw [ofList_concat, get?_insert, ih, last?_append, last?_singleton]
    split <;> rfl

theorem contains_ofList (k : κ) (rows : List (κ × α)) :
    (ofList rows).contains k = (rows.map (·.1)).any (· == k) := by
  rw [contains, get?_ofList, isSome_last?]

/-- Keys that were erased for equality with one key say nothing about another. -/
theorem any_filter_of_ne {a k : κ} (h : (k == a) = false) (ks : List κ) :
    (ks.filter fun b => !b == a).any (· == k) = ks.any (· == k) := by
  rw [List.any_filter]
  congr 1
  funext b
  by_cases hb : b == k
  · rw [BEq.congr_left hb, h]
    rfl
  · simp [hb]

theorem eraseDups_concat (ks : List κ) (k : κ) : (ks ++ [k]).eraseDups =
    if ks.any (· == k) then ks.eraseDups else ks.eraseDups ++ [k] := by
  match ks with
  | [] => simp [List.eraseDups_cons]
  | a :: ks =>
    have ih := eraseDups_concat (ks.filter fun b => !b == a) k
    rw [List.cons_append, List.eraseDups_cons, List.eraseDups_cons, List.filter_append,
      List.any_cons]
    by_cases h : k == a
    · have ha : (a == k) = true := BEq.symm h
      simp [h, ha]
    · have hf : (k == a) = false := by simpa using h
      have ha : (a == k) = false := by rw [BEq.comm, hf]
      rw [any_filter_of_ne hf] at ih
      simp only [List.filter_cons, hf, Bool.not_false, if_true, List.filter_nil, ih, ha,
        Bool.false_or]
      split <;> rfl
  termination_by ks.length
  decreasing_by exact Nat.lt_succ_of_le (List.length_filter_le _ _)

theorem condensed_concat (rows : List (κ × α)) (row : κ × α) : condensed (rows ++ [row]) =
    if (rows.map (·.1)).any (· == row.1) then
      (condensed rows).map fun r => if r.1 == row.1 then (r.1, row.2) else r
    else condensed rows ++ [row] := by
  unfold condensed
  rw [List.map_append, List.map_singleton, eraseDups_concat]
  have value : ∀ k, last? k (rows ++ [row]) =
      if row.1 == k then some row.2 else last? k rows := by
    intro k
    rw [last?_append, last?_singleton]
    split <;> rfl
  by_cases known : (rows.map (·.1)).any (· == row.1)
  · rw [if_pos known, if_pos known, List.map_filterMap]
    apply List.filterMap_congr
    intro k _
    rw [value, BEq.comm]
    by_cases h : k == row.1
    · have some : (last? k rows).isSome := by
        rw [isSome_last?]
        simpa only [BEq.congr_right h] using known
      obtain ⟨v, hv⟩ := Option.isSome_iff_exists.1 some
      simp [h, hv]
    · cases last? k rows <;> simp [h]
  · rw [if_neg known, if_neg known, List.filterMap_append]
    congr 1
    · apply List.filterMap_congr
      intro k mem
      have mem := (eraseDups_sublist _).subset mem
      have other : (row.1 == k) = false := by
        rw [BEq.comm]
        simp only [List.any_eq_true, not_exists, not_and] at known
        simpa using known k mem
      rw [value, other]
      rfl
    · simp

/-- A table that is built from rows holds them condensed. -/
theorem rows_ofList (rows : List (κ × α)) : (ofList rows).rows = condensed rows := by
  induction rows using List.reverseRecOn with
  | nil => rfl
  | append_singleton rows row ih =>
    have h : (ofList rows).rows.any (·.1 == row.1) = (rows.map (·.1)).any (· == row.1) := by
      rw [← contains_eq, contains_ofList]
    rw [ofList_concat, condensed_concat, ← ih, ← h]
    exact writeRow_eq (ofList rows).distinct

@[simp] theorem get?_erase (t : Table κ α) (k k' : κ) :
    (t.erase k).get? k' = if k == k' then none else t.get? k' := by
  simp only [get?, erase, List.find?_filter]
  by_cases h : k == k'
  · have none : t.rows.find? (fun row => !(row.1 == k) && row.1 == k') = none := by
      rw [List.find?_eq_none]
      intro row _
      simp [BEq.congr_right h]
    simp [h, none]
  · have same : (fun row : κ × α => !(row.1 == k) && row.1 == k') = fun row => row.1 == k' := by
      funext row
      by_cases hr : row.1 == k'
      · have other : (row.1 == k) = false := by
          rw [BEq.congr_left hr, BEq.comm]
          simpa using h
        simp [hr, other]
      · simp [hr]
    simp [h, same]

theorem keys_merge (t u : Table κ α) :
    (t.merge u).keys = t.keys ++ u.keys.filter fun k => !t.contains k := by
  unfold keys
  rw [rows_merge, List.map_append, List.map_map, List.filter_map]
  rfl

/-- Looking through the rows is reading the table. -/
theorem lookup_rows (t : Table κ α) (k : κ) : t.rows.lookup k = t.get? k := by
  have found : ∀ rows : List (κ × α), rows.lookup k = (rows.find? (·.1 == k)).map (·.2) := by
    intro rows
    induction rows with
    | nil => rfl
    | cons row rest ih =>
      rw [List.lookup_cons, List.find?_cons, BEq.comm]
      cases row.1 == k with
      | false => exact ih
      | true => rfl
  exact found t.rows

theorem contains_of_mem_keys {t : Table κ α} {k : κ} (h : k ∈ t.keys) : t.contains k := by
  obtain ⟨row, mem, rfl⟩ := List.mem_map.1 h
  rw [contains, get?_of_mem t mem]
  rfl

theorem rows_eq_filterMap_keys (t : Table κ α) :
    t.rows = t.keys.filterMap fun k => (t.get? k).map (k, ·) := by
  have own : ∀ row ∈ t.rows, (t.get? row.1).map (row.1, ·) = some row := by
    intro row mem
    rw [get?_of_mem t mem]
    rfl
  rw [keys, List.filterMap_map]
  exact ((List.filterMap_congr own).trans List.filterMap_some).symm

/-- The order of its keys and what is read under them make up a table. -/
theorem ext_get? {t u : Table κ α} (keys : t.keys = u.keys) (get? : ∀ k, t.get? k = u.get? k) :
    t = u := by
  apply ext
  rw [rows_eq_filterMap_keys, rows_eq_filterMap_keys u, keys]
  simp only [get?]

theorem insert_insert (t : Table κ α) (k : κ) (v w : α) :
    (t.insert k v).insert k w = t.insert k w :=
  ext (writeRow_writeRow k v w t.rows)

theorem keys_insert (t : Table κ α) (k : κ) (v : α) :
    (t.insert k v).keys = if t.contains k then t.keys else t.keys ++ [k] := by
  have rows : (t.insert k v).rows = _ := writeRow_eq t.distinct
  rw [keys, rows, ← contains_eq]
  split
  · rw [List.map_map]
    apply List.map_congr_left
    intro row _
    by_cases h : row.1 == k <;> simp [h]
  · simp [keys]

/-- A table that goes on from the keys of another takes its place. -/
theorem merge_of_keys_append {t u : Table κ α} {rest : List κ}
    (keys : u.keys = t.keys ++ rest) : t.merge u = u := by
  have apart : (t.keys ++ rest).Pairwise fun a b => (a == b) = false := by
    rw [← keys]
    exact List.pairwise_map.2 u.distinct
  obtain ⟨-, -, cross⟩ := List.pairwise_append.1 apart
  have old : t.keys.filter (fun k => !t.contains k) = [] := by
    rw [List.filter_eq_nil_iff]
    intro k mem
    simp [contains_of_mem_keys mem]
  have new : rest.filter (fun k => !t.contains k) = rest := by
    rw [List.filter_eq_self]
    intro k mem
    rw [contains_eq_any_keys, Bool.not_eq_true', List.any_eq_false]
    intro k' mem'
    simp [cross k' mem' k mem]
  apply ext_get?
  · rw [keys_merge, keys, List.filter_append, old, new, List.nil_append]
  · intro k
    rw [get?_merge]
    cases found : u.get? k with
    | some v => rfl
    | none =>
      have absent : u.contains k = false := by rw [contains, found]; rfl
      rw [contains_eq_any_keys, keys, List.any_append, Bool.or_eq_false_iff,
        ← contains_eq_any_keys] at absent
      simpa [contains] using absent.1

theorem ofList_rows (t : Table κ α) : ofList t.rows = t := empty_merge t

/-- A table has one value under a key, so that is also the last one. -/
theorem last?_rows (k : κ) (t : Table κ α) : last? k t.rows = t.get? k := by
  rw [← get?_ofList, ofList_rows]

end Order

theorem nodup_keys [LawfulBEq κ] (t : Table κ α) : t.keys.Nodup :=
  List.pairwise_map.2 (t.distinct.imp fun apart => by simpa using apart)

/-- Of parts that are read one after the other the first that has the key, from the end, decides. -/
theorem last?_flatMap_reverse {β : Type} (k : κ) (rowsOf : β → List (κ × α)) (parts : List β) :
    last? k (parts.reverse.flatMap rowsOf) = parts.findSome? fun part => last? k (rowsOf part) := by
  induction parts with
  | nil => rfl
  | cons part parts ih =>
    rw [List.reverse_cons, List.flatMap_append, last?_append, ih, List.flatMap_singleton,
      List.findSome?_cons]
    cases last? k (rowsOf part) <;> rfl

end MapperSchema.Table
