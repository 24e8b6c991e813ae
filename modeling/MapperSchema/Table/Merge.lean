import MapperSchema.Table

/-! The order of rows in a merge, and the laws of merging that follow: it is associative, has the
empty table as its unit on both sides, and merging a table a second time changes nothing. -/
namespace MapperSchema.Table

variable {κ α : Type} [BEq κ]

theorem writeRow_eq [EquivBEq κ] {k : κ} {v : α} {rows : List (κ × α)}
    (d : rows.Pairwise fun a b => (a.1 == b.1) = false) :
    writeRow k v rows = if rows.any (·.1 == k) then
      rows.map fun row => if row.1 == k then (row.1, v) else row
      else rows ++ [(k, v)] := by
  induction rows with
  | nil => simp [writeRow]
  | cons row rows ih =>
    obtain ⟨hd, tl⟩ := List.pairwise_cons.1 d
    by_cases h : row.1 == k
    · have : ∀ r ∈ rows, (r.1 == k) = false := by
        intro r hr
        rw [← hd r hr, BEq.congr_left h, BEq.comm]
      have e : rows.map (fun row => if row.1 == k then (row.1, v) else row) = rows := by
        conv => rhs; rw [← List.map_id rows]
        exact List.map_congr_left fun r hr => by simp [this r hr]
      simp only [writeRow, h, if_true, List.any_cons, Bool.true_or, List.map_cons, e]
    · have hk : (row.1 == k) = false := by simpa using h
      rw [writeRow, if_neg h, ih tl, List.any_cons, hk, Bool.false_or, List.map_cons, if_neg h]
      split <;> simp

theorem get?_eq_none_iff (t : Table κ α) (k : κ) :
    t.get? k = none ↔ t.rows.any (·.1 == k) = false := by
  simp [get?, List.any_eq_false]

theorem contains_eq (t : Table κ α) (k : κ) : t.contains k = t.rows.any (·.1 == k) := by
  rw [Bool.eq_iff_iff, contains, Option.isSome_iff_ne_none, Ne, get?_eq_none_iff]; simp

/-- The rows of a merge: those of the first table in their order, with the second's values where
it has the key, then the second's other rows. -/
theorem rows_foldl_insert [EquivBEq κ] (rows : List (κ × α)) (t : Table κ α)
    (d : rows.Pairwise fun a b => (a.1 == b.1) = false) :
    (rows.foldl (fun t row => t.insert row.1 row.2) t).rows =
      (t.rows.map fun row => (row.1, ((rows.find? (·.1 == row.1)).map (·.2)).getD row.2)) ++
      rows.filter fun row => !t.contains row.1 := by
  induction rows generalizing t with
  | nil => simp
  | cons r rs ih =>
    obtain ⟨hd, tl⟩ := List.pairwise_cons.1 d
    rw [List.foldl_cons, ih _ tl]
    have hc : ∀ row ∈ rs, (t.insert r.1 r.2).contains row.1 = t.contains row.1 := by
      intro row hrow
      have : (r.1 == row.1) = false := hd row hrow
      simp [contains, this]
    have hf : rs.filter (fun row => !(t.insert r.1 r.2).contains row.1) =
        rs.filter fun row => !t.contains row.1 :=
      List.filter_congr fun row hrow => by rw [hc row hrow]
    have hn : rs.find? (·.1 == r.1) = none := by
      rw [List.find?_eq_none]; intro x hx e
      have := hd x hx; rw [BEq.comm] at this; simp_all
    rw [hf]
    change ((writeRow r.1 r.2 t.rows).map _) ++ _ = _
    rw [writeRow_eq t.distinct, ← contains_eq]
    by_cases h : t.contains r.1
    · simp only [h, if_true, List.map_map, List.filter_cons, Bool.not_true]
      congr 1
      apply List.map_congr_left
      intro row _
      by_cases e : row.1 == r.1
      · have e2 : (r.1 == row.1) := BEq.symm e
        have hn2 : rs.find? (·.1 == row.1) = none := by
          rw [List.find?_eq_none] at hn ⊢
          intro x hx e3
          exact hn x hx (BEq.trans e3 e)
        simp [e, e2, hn2]
      · have e2 : (r.1 == row.1) = false := by rw [BEq.comm]; simpa using e
        simp [e, e2]
    · have hrow : ∀ row ∈ t.rows, (r.1 == row.1) = false := by
        simp only [contains_eq, List.any_eq_true, not_exists, not_and] at h
        intro row hr
        rw [BEq.comm]; simpa using h row hr
      have e : t.rows.map (fun row =>
            (row.1, (((r :: rs).find? (·.1 == row.1)).map (·.2)).getD row.2)) =
          t.rows.map fun row => (row.1, ((rs.find? (·.1 == row.1)).map (·.2)).getD row.2) :=
        List.map_congr_left fun row hr => by simp only [List.find?_cons, hrow row hr]
      rw [e, if_neg h, List.map_append, List.filter_cons, if_pos (by simpa using h)]
      simp [hn]

theorem rows_merge [EquivBEq κ] (t u : Table κ α) :
    (t.merge u).rows = (t.rows.map fun row => (row.1, (u.get? row.1).getD row.2)) ++
      u.rows.filter fun row => !t.contains row.1 :=
  rows_foldl_insert u.rows t u.distinct

@[simp] theorem contains_merge [EquivBEq κ] (t u : Table κ α) (k : κ) :
    (t.merge u).contains k = (t.contains k || u.contains k) := by
  simp only [contains, get?_merge, Option.isSome_or, Bool.or_comm]

@[simp] theorem empty_merge [EquivBEq κ] (t : Table κ α) : (∅ : Table κ α).merge t = t := by
  apply ext
  rw [rows_merge]
  simp [contains]

theorem find?_row_of_mem [EquivBEq κ] {rows : List (κ × α)}
    (d : rows.Pairwise fun a b => (a.1 == b.1) = false) {row : κ × α} (h : row ∈ rows) :
    rows.find? (·.1 == row.1) = some row := by
  induction rows with
  | nil => cases h
  | cons r rs ih =>
    obtain ⟨hd, tl⟩ := List.pairwise_cons.1 d
    rcases List.mem_cons.1 h with rfl | h
    · simp
    · simp [hd row h, ih tl h]

theorem get?_of_mem [EquivBEq κ] (t : Table κ α) {row : κ × α} (h : row ∈ t.rows) :
    t.get? row.1 = some row.2 := by
  simp [get?, find?_row_of_mem t.distinct h]

@[simp] theorem merge_self [EquivBEq κ] (t : Table κ α) : t.merge t = t := by
  apply ext
  rw [rows_merge]
  have h1 : t.rows.map (fun row => (row.1, (t.get? row.1).getD row.2)) = t.rows := by
    conv => rhs; rw [← List.map_id t.rows]
    exact List.map_congr_left fun r hr => by simp [get?_of_mem t hr]
  have h2 : t.rows.filter (fun row => !t.contains row.1) = [] := by
    rw [List.filter_eq_nil_iff]
    intro r hr
    simp [contains, get?_of_mem t hr]
  rw [h1, h2, List.append_nil]

theorem merge_assoc [EquivBEq κ] (t u w : Table κ α) :
    (t.merge u).merge w = t.merge (u.merge w) := by
  apply ext
  rw [rows_merge, rows_merge t u, rows_merge t (u.merge w), rows_merge u w]
  simp only [List.map_append, List.map_map, List.filter_append, List.filter_map, List.append_assoc]
  congr 1
  · apply List.map_congr_left
    intro r _
    cases h : w.get? r.1 <;> simp [h]
  · rw [List.filter_filter]
    congr 1
    apply List.filter_congr
    intro r _
    simp

end MapperSchema.Table
