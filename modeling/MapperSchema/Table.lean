/-! Insertion-ordered tables. A key that is written again keeps its place and takes the new
value. Keys are compared by `==`, so a key type may identify different spellings. -/
namespace MapperSchema

/-- Rows in the order of first insertion, no two of them under the same key. -/
structure Table (κ α : Type) [BEq κ] where
  rows : List (κ × α)
  distinct : rows.Pairwise fun a b => (a.1 == b.1) = false
  deriving DecidableEq, Repr

namespace Table

variable {κ κ' α β : Type} [BEq κ] [BEq κ']

@[ext] theorem ext {t u : Table κ α} (h : t.rows = u.rows) : t = u := by
  cases t; cases u; simp_all

def empty : Table κ α := ⟨[], .nil⟩

instance : EmptyCollection (Table κ α) := ⟨empty⟩
instance : Inhabited (Table κ α) := ⟨empty⟩

@[simp] theorem rows_empty : (∅ : Table κ α).rows = [] := rfl

def keys (t : Table κ α) : List κ := t.rows.map (·.1)

def size (t : Table κ α) : Nat := t.rows.length

def isEmpty (t : Table κ α) : Bool := t.rows.isEmpty

def get? (t : Table κ α) (k : κ) : Option α := (t.rows.find? (·.1 == k)).map (·.2)

def contains (t : Table κ α) (k : κ) : Bool := (t.get? k).isSome

@[simp] theorem get?_empty (k : κ) : (∅ : Table κ α).get? k = none := rfl

/-- Writing among rows: in place where the key is present, at the end where it is not. -/
def writeRow (k : κ) (v : α) : List (κ × α) → List (κ × α)
  | [] => [(k, v)]
  | row :: rows => if row.1 == k then (row.1, v) :: rows else row :: writeRow k v rows

theorem forall_key_writeRow {P : κ → Prop} {k : κ} {v : α} {rows : List (κ × α)}
    (hk : P k) (h : ∀ row ∈ rows, P row.1) : ∀ row ∈ writeRow k v rows, P row.1 := by
  induction rows with
  | nil => simpa [writeRow] using hk
  | cons row rows ih =>
    unfold writeRow
    split
    · intro r hr
      rcases List.mem_cons.1 hr with rfl | hr
      · exact h row (by simp)
      · exact h r (by simp [hr])
    · intro r hr
      rcases List.mem_cons.1 hr with rfl | hr
      · exact h r (by simp)
      · exact ih (fun r hr => h r (by simp [hr])) r hr

theorem forall_value_writeRow {P : α → Prop} {k : κ} {v : α} {rows : List (κ × α)}
    (hv : P v) (h : ∀ row ∈ rows, P row.2) : ∀ row ∈ writeRow k v rows, P row.2 := by
  induction rows with
  | nil => simpa [writeRow] using hv
  | cons row rows ih =>
    obtain ⟨head, tail⟩ := List.forall_mem_cons.1 h
    unfold writeRow
    split
    · exact List.forall_mem_cons.2 ⟨hv, tail⟩
    · exact List.forall_mem_cons.2 ⟨head, ih tail⟩

theorem distinct_writeRow {k : κ} {v : α} {rows : List (κ × α)}
    (h : rows.Pairwise fun a b => (a.1 == b.1) = false) :
    (writeRow k v rows).Pairwise fun a b => (a.1 == b.1) = false := by
  induction rows with
  | nil => simp [writeRow]
  | cons row rows ih =>
    obtain ⟨hd, tl⟩ := List.pairwise_cons.1 h
    unfold writeRow
    split
    · exact List.pairwise_cons.2 ⟨hd, tl⟩
    · rename_i hne
      exact List.pairwise_cons.2
        ⟨forall_key_writeRow (P := fun b => (row.1 == b) = false) (by simpa using hne) hd, ih tl⟩

def insert (t : Table κ α) (k : κ) (v : α) : Table κ α :=
  ⟨writeRow k v t.rows, distinct_writeRow t.distinct⟩

def erase (t : Table κ α) (k : κ) : Table κ α :=
  ⟨t.rows.filter fun row => !(row.1 == k), t.distinct.filter _⟩

/-- Reads the rows from left to right, so the last value given for a key stands. -/
def ofList (rows : List (κ × α)) : Table κ α :=
  rows.foldl (fun t row => t.insert row.1 row.2) ∅

theorem forall_value_foldl_insert {P : α → Prop} {rows : List (κ × α)} {t : Table κ α}
    (ht : ∀ row ∈ t.rows, P row.2) (h : ∀ row ∈ rows, P row.2) :
    ∀ row ∈ (rows.foldl (fun t row => t.insert row.1 row.2) t).rows, P row.2 := by
  induction rows generalizing t with
  | nil => exact ht
  | cons row rows ih =>
    obtain ⟨head, tail⟩ := List.forall_mem_cons.1 h
    exact ih (forall_value_writeRow head ht) tail

theorem forall_value_ofList {P : α → Prop} {rows : List (κ × α)} (h : ∀ row ∈ rows, P row.2) :
    ∀ row ∈ (ofList rows).rows, P row.2 :=
  forall_value_foldl_insert (by simp) h

def single (k : κ) (v : α) : Table κ α := ⟨[(k, v)], List.pairwise_singleton _ _⟩

/-- All rows of both; the second table wins where they share a key. -/
def merge (t u : Table κ α) : Table κ α :=
  u.rows.foldl (fun t row => t.insert row.1 row.2) t

def insert? (t : Table κ α) (k : κ) : Option α → Table κ α
  | none => t
  | some v => t.insert k v

def mapValues (f : α → β) (t : Table κ α) : Table κ β :=
  ⟨t.rows.map fun row => (row.1, f row.2), by
    simpa [List.pairwise_map] using t.distinct⟩

/-- Renames the keys by a function that neither merges nor separates them. -/
def mapKeys (f : κ → κ') (hf : ∀ a b, (f a == f b) = (a == b)) (t : Table κ α) : Table κ' α :=
  ⟨t.rows.map fun row => (f row.1, row.2), by
    simpa [List.pairwise_map, hf] using t.distinct⟩

@[simp] theorem merge_empty (t : Table κ α) : t.merge ∅ = t := rfl

theorem find?_writeRow [EquivBEq κ] (k k' : κ) (v : α) (rows : List (κ × α)) :
    ((writeRow k v rows).find? (·.1 == k')).map (·.2) =
      if k == k' then some v else (rows.find? (·.1 == k')).map (·.2) := by
  induction rows with
  | nil => by_cases h : k == k' <;> simp [writeRow, h]
  | cons row rows ih =>
    unfold writeRow
    by_cases h : row.1 == k
    · rw [if_pos h]
      have e : (row.1 == k') = (k == k') := BEq.congr_left h
      by_cases h' : k == k' <;> simp [e, h']
    · rw [if_neg h]
      by_cases h' : row.1 == k'
      · have : (k == k') = false := by
          rw [← BEq.congr_right h', BEq.comm]
          simpa using h
        simp [h', this]
      · simp only [List.find?_cons] at ih ⊢
        simp [h', ih]

@[simp] theorem get?_insert [EquivBEq κ] (t : Table κ α) (k k' : κ) (v : α) :
    (t.insert k v).get? k' = if k == k' then some v else t.get? k' :=
  find?_writeRow k k' v t.rows

@[simp] theorem get?_single (k k' : κ) (v : α) :
    (single k v).get? k' = if k == k' then some v else none := by
  by_cases h : k == k' <;> simp [single, get?, h]

theorem get?_foldl_insert [EquivBEq κ] (k : κ) (rows : List (κ × α)) (t : Table κ α)
    (h : rows.Pairwise fun a b => (a.1 == b.1) = false) :
    (rows.foldl (fun t row => t.insert row.1 row.2) t).get? k =
      ((rows.find? (·.1 == k)).map (·.2)).or (t.get? k) := by
  induction rows generalizing t with
  | nil => simp
  | cons row rows ih =>
    obtain ⟨hd, tl⟩ := List.pairwise_cons.1 h
    rw [List.foldl_cons, ih _ tl, get?_insert]
    by_cases hk : row.1 == k
    · have : rows.find? (·.1 == k) = none := by
        rw [List.find?_eq_none]
        intro r hr e
        have := hd r hr
        rw [BEq.congr_left hk, BEq.comm] at this
        simp_all
      simp [hk, this]
    · simp [hk]

@[simp] theorem get?_merge [EquivBEq κ] (t u : Table κ α) (k : κ) :
    (t.merge u).get? k = (u.get? k).or (t.get? k) :=
  get?_foldl_insert k u.rows t u.distinct

theorem writeRow_writeRow [ReflBEq κ] (k : κ) (v w : α) (rows : List (κ × α)) :
    writeRow k w (writeRow k v rows) = writeRow k w rows := by
  induction rows with
  | nil => simp [writeRow]
  | cons row rows ih => by_cases h : row.1 == k <;> simp [writeRow, h, ih]

/-- Writing back what is there changes nothing. -/
theorem insert_of_get? {t : Table κ α} {k : κ} {v : α} (h : t.get? k = some v) :
    t.insert k v = t := by
  have go : ∀ rows : List (κ × α), (rows.find? (·.1 == k)).map (·.2) = some v →
      writeRow k v rows = rows := by
    intro rows h
    induction rows with
    | nil => simp at h
    | cons row rows ih =>
      by_cases hk : row.1 == k
      · simp only [List.find?_cons, hk, Option.map_some, Option.some.injEq] at h
        simp [writeRow, hk, ← h]
      · simp only [List.find?_cons, hk] at h
        simp [writeRow, hk, ih h]
  exact ext (go t.rows h)

/-- Erasing a key that was written for the first time changes nothing. -/
theorem erase_insert [ReflBEq κ] {t : Table κ α} {k : κ} (v : α) (h : t.get? k = none) :
    (t.insert k v).erase k = t := by
  have go : ∀ rows : List (κ × α), (rows.find? (·.1 == k)).map (·.2) = none →
      (writeRow k v rows).filter (fun row => !(row.1 == k)) = rows := by
    intro rows h
    induction rows with
    | nil => simp [writeRow]
    | cons row rows ih =>
      by_cases hk : row.1 == k
      · simp [hk] at h
      · simp only [List.find?_cons, hk] at h
        simp [writeRow, hk, ih h]
  exact ext (go t.rows h)

example : (ofList [(1, 'a'), (2, 'b'), (1, 'c')]).rows = [(1, 'c'), (2, 'b')] := by decide
example : ((ofList [(1, 'a'), (2, 'b')]).merge (ofList [(3, 'd'), (2, 'e')])).rows
    = [(1, 'a'), (2, 'e'), (3, 'd')] := by decide

end Table

end MapperSchema
