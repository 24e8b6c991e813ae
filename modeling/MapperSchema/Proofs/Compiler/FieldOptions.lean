import MapperSchema.Proofs.Compiler.Compiled
import MapperSchema.Proofs.Compiler.Locality

/-! The order of a field's options: `required`, then the default if there is one, then all that was
given for the field, each key where it was first given and with the value that was given last. -/
namespace MapperSchema.Compiler

variable {c : Compiler}

/-- All that is given for a position, row by row: the bags of the layers from the inside out, then
the overrides that reach it. -/
def givenRows (c : Compiler) (p : Position) : List (Key × Value) :=
  (p.node.unwrap.layers.reverse.flatMap fun layer => (c.store.bagAt layer.id).rows) ++
    p.overrides.textKeys.rows

/-- An option that is passed through as it was given. -/
def passes (k : Key) : Bool := !(k == .text "required") && !(k == .text "default")

theorem layerBag_eq (c : Compiler) (layers : List Node) : c.layerBag layers =
    Table.ofList (layers.reverse.flatMap fun layer => (c.store.bagAt layer.id).rows) := by
  induction layers with
  | nil => rfl
  | cons layer layers ih =>
    rw [List.reverse_cons, List.flatMap_append, List.flatMap_singleton, ← Table.ofList_merge, ← ih]
    rfl

theorem givenAt_eq (c : Compiler) (p : Position) : c.givenAt p = Table.ofList (c.givenRows p) := by
  rw [givenAt, givenOptions, layerBag_eq, Table.ofList_merge, givenRows]

/-- What stands in front of the options that are passed through. -/
def leading (required : Value) : Option Value → List (Key × Value)
  | none => [(.text "required", required)]
  | some v => [(.text "required", required), (.text "default", v)]

theorem rows_leading (required : Value) (default? : Option Value) :
    ((Table.single (Key.text "required") required).insert? (.text "default") default?).rows =
      leading required default? := by cases default? <;> rfl

theorem rows_fieldOptions (required : Value) (default? : Option Value) (given : Bag) :
    (fieldOptions required default? given).rows =
      leading required default? ++ given.rows.filter fun row => passes row.1 := by
  let front := (Table.single (Key.text "required") required).insert? (.text "default") default?
  let rest := (given.erase (.text "required")).erase (.text "default")
  have kept : (front.rows.map fun row => (row.1, (rest.get? row.1).getD row.2)) =
      leading required default? := by
    rw [rows_leading]
    cases default? <;> simp [leading, rest]
  have passed : rest.rows.filter (fun row => !front.contains row.1) =
      given.rows.filter fun row => passes row.1 := by
    change ((given.rows.filter _).filter _).filter _ = _
    rw [List.filter_filter, List.filter_filter]
    apply List.filter_congr
    rintro ⟨k, v⟩ _
    have comm : ∀ s, (Key.text s == k) = (k == Key.text s) := fun s => BEq.comm
    cases default? <;> cases hr : k == Key.text "required" <;>
      cases hd : k == Key.text "default" <;>
      simp [front, Table.contains, Table.insert?, passes, comm, hr, hd]
  rw [fieldOptions, Table.rows_merge]
  exact congrArg₂ (· ++ ·) kept passed

theorem get?_fieldOptions (required : Value) (default? : Option Value) (given : Bag) {k : Key}
    (h : passes k) : (fieldOptions required default? given).get? k = given.get? k := by
  have hr : (Key.text "required" == k) = false := by
    rw [BEq.comm]
    simp_all [passes]
  have hd : (Key.text "default" == k) = false := by
    rw [BEq.comm]
    simp_all [passes]
  cases default? <;> simp [fieldOptions, Table.insert?, hr, hd]

/-- The options are those that are given at the position, in order. The rows of a table have
different keys, so no option comes twice. -/
structure InOrder (c : Compiler) (p : Position) (options : Bag) : Prop where
  rows : ∃ required default?, options.rows = leading required default? ++
    (Table.condensed (c.givenRows p)).filter fun row => passes row.1
  /-- Overrides win over all layers, and an outer layer over an inner one. -/
  wins : ∀ k, passes k → options.get? k = (p.overrides.textKeys.get? k).or
    (p.node.unwrap.layers.findSome? fun layer => (c.store.bagAt layer.id).get? k)

theorem rows_fieldOf (c : Compiler) (p : Position) : (c.fieldOf p).options.rows =
    leading (c.requiredAt p) (default? p.node.unwrap (c.typeOf p.path p.node) (c.givenAt p)) ++
      (Table.condensed (c.givenRows p)).filter fun row => passes row.1 := by
  rw [← Table.rows_ofList, ← givenAt_eq]
  exact rows_fieldOptions _ _ _

theorem fieldOf_inOrder (c : Compiler) (p : Position) : c.InOrder p (c.fieldOf p).options where
  rows := ⟨_, _, c.rows_fieldOf p⟩
  wins k hk := by
    change (fieldOptions _ _ (c.givenAt p)).get? k = _
    rw [get?_fieldOptions _ _ _ hk, givenAt_eq, Table.get?_ofList, givenRows, Table.last?_append,
      Table.last?_flatMap_reverse, Table.last?_rows]
    simp only [Table.last?_rows]

/-- Attaching to two different nodes may be done in either order. -/
theorem bagAt_swap (s : Store) {id id' : NodeId} (ne : id ≠ id') (x y : Bag) (i : NodeId) :
    ((s.addToBag id x).addToBag id' y).bagAt i = ((s.addToBag id' y).addToBag id x).bagAt i := by
  by_cases h : id = i
  · have h' : id' ≠ i := fun h' => ne (h.trans h'.symm)
    simp [h, h']
  · simp [h, ne]

/-- In every definition each field has the options of its own position in order, and so has a field
that is compiled by itself, whichever call attached them first. -/
theorem schema_options_inOrder (c : Compiler) :
    (∀ root extra path d, c.Compiles root extra path d →
      (∀ f, d.Holds f → ∃ p, c.Matches root extra path d p f) ∧
        ∀ p f, c.Matches root extra path d p f → c.InOrder p f.options) ∧
      (∀ node a name path j f, (c.field node a name path).outcome j = .ok f →
        c.InOrder (fieldAlone node a name path) f.options) ∧
      ∀ root extra path (id id' : NodeId) (x y : Bag) (a : Annotation),
        let under (s : Store) := ({ c with store := s } : Compiler).schema root extra path
        (id ≠ id' → under ((c.store.addToBag id x).addToBag id' y) =
          under ((c.store.addToBag id' y).addToBag id x)) ∧
        under ((c.store.addToBag id x).annotate id' a) =
          under ((c.store.annotate id' a).addToBag id x) := by
  refine ⟨fun root extra path d h => ⟨fun f held => Matches.of_holds h.result_eq held, ?_⟩, ?_, ?_⟩
  · intro p f m
    obtain ⟨-, rfl⟩ := h.field_eq m
    exact c.fieldOf_inOrder p
  · intro node a name path j f ok
    obtain ⟨-, rfl⟩ := field_eq_of_ok ok
    exact c.fieldOf_inOrder (fieldAlone node a name path)
  · intro root extra path id id' x y a under
    exact ⟨fun ne => schema_congr_of_readings rfl (bagAt_swap c.store ne x y) fun _ => rfl, rfl⟩

/-- A count under two wrappers, with options on each of the three and on the object around it. -/
theorem schema_options_inOrder_count :
    let count : Node := .wrap 2 .optional (.wrap 1 (.default (.int 0)) (.base 0 (.scalar .number)))
    let root : Node := .base 3 (.object [("count", count)])
    let outer : Bag := Table.ofList [(.text "max", .int 9), (.text "index", .bool true)]
    let middle : Bag := Table.ofList [(.text "required", .bool false), (.text "min", .int 2)]
    let inner : Bag := Table.ofList [(.text "index", .bool false), (.text "min", .int 1)]
    let a : Annotation := { typeOptions := Table.single "count" (Table.single "min" (.int 5)) }
    let c : Compiler :=
      ⟨((((∅ : Store).addToBag 2 outer).annotate 3 a).addToBag 0 inner).addToBag 1 middle, true⟩
    let p := entryAt [] a ("count", count)
    ∃ d, c.Compiles root none [] d ∧
      c.Matches root none [] d p (c.fieldOf p) ∧ c.InOrder p (c.fieldOf p).options ∧
      (c.fieldOf p).options.rows = [(.text "required", .bool false), (.text "default", .int 0),
        (.text "index", .bool true), (.text "min", .int 5), (.text "max", .int 9)] := by
  intro count root outer middle inner a c p
  have compiled : c.Compiles root none [] _ := .schema {} rfl
  have inOrder := ((schema_options_inOrder c).1 root none [] _ compiled).2
  refine ⟨_, compiled, ?found, inOrder _ _ ?found, ?rows⟩
  case found => exact .entry (i := 0) rfl rfl rfl
  case rows =>
    rw [rows_fieldOf]
    rfl

end MapperSchema.Compiler
