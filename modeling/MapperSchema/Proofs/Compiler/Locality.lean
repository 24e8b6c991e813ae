import Mathlib.Data.List.Basic
import MapperSchema.Proofs.Compiler.Run
import MapperSchema.Proofs.Compiler.Visited

/-! What a compile reads: at each visited position the bags of all layers, and the annotation of
the base if that is an object. Compilers that find the same there run alike. -/
namespace MapperSchema.Compiler

variable {c d : Compiler}

/-- Both compilers find the same at a position. -/
structure Alike (c d : Compiler) (p : Position) : Prop where
  bags : ∀ layer ∈ p.node.unwrap.layers, c.store.bagAt layer.id = d.store.bagAt layer.id
  attached : p.node.unwrap.form.kind = .object →
    c.store.annotationAt p.node.unwrap.id = d.store.annotationAt p.node.unwrap.id

theorem layerBag_congr {layers : List Node}
    (h : ∀ layer ∈ layers, c.store.bagAt layer.id = d.store.bagAt layer.id) :
    c.layerBag layers = d.layerBag layers := by
  induction layers with
  | nil => rfl
  | cons layer layers ih =>
    obtain ⟨head, tail⟩ := List.forall_mem_cons.1 h
    have ht := ih tail
    unfold layerBag at ht ⊢
    rw [List.foldr_cons, List.foldr_cons, ht, head]

theorem givenAt_congr {p : Position}
    (bags : ∀ layer ∈ p.node.unwrap.layers, c.store.bagAt layer.id = d.store.bagAt layer.id) :
    c.givenAt p = d.givenAt p := by
  unfold Compiler.givenAt givenOptions
  rw [layerBag_congr bags]

theorem Alike.givenAt {p : Position} (h : c.Alike d p) : c.givenAt p = d.givenAt p :=
  givenAt_congr h.bags

theorem Alike.fieldAt {p : Position} (h : c.Alike d p) (type : FieldType) :
    c.fieldAt p type = d.fieldAt p type := by
  have hr : c.requiredAt p = d.requiredAt p := by
    rw [requiredAt, requiredAt, givenRequired?_eq, givenRequired?_eq, h.givenAt]
  rw [Compiler.fieldAt, Compiler.fieldAt, h.givenAt, hr]

theorem fault?_of_given {p : Position} (strict : c.strictRequired = d.strictRequired)
    (given : c.givenAt p = d.givenAt p) : c.fault? p = d.fault? p := by
  have hc : ∀ r, c.conflicts p.node.unwrap r = d.conflicts p.node.unwrap r := by
    intro r
    unfold conflicts
    rw [strict]
  unfold Compiler.fault?
  simp only [givenRequired?_eq, given, hc]

theorem Alike.fault? {p : Position} (h : c.Alike d p)
    (strict : c.strictRequired = d.strictRequired) : c.fault? p = d.fault? p :=
  fault?_of_given strict h.givenAt

/-- The field at a position, with all that is visited for it, is the same to both compilers. -/
structure SameField (c d : Compiler) (home : Option Path) (p : Position) : Prop where
  visits : c.fieldVisits home p = d.fieldVisits home p
  field : c.fieldOf p = d.fieldOf p

theorem sameField_of_alike {home : Option Path} {p : Position}
    (h : ∀ q ∈ positions (c.fieldVisits home p), c.Alike d q)
    (inside : (p.node.unwrap.form.kind = .object →
        c.store.annotationAt p.node.unwrap.id = d.store.annotationAt p.node.unwrap.id) →
      (∀ q ∈ positions (c.visits home p.path p.node), c.Alike d q) →
      c.visits home p.path p.node = d.visits home p.path p.node ∧
        c.typeOf p.path p.node = d.typeOf p.path p.node) :
    c.SameField d home p := by
  have alike := h p ((mem_positions_fieldVisits _ _ _ _).2 (.inr rfl))
  obtain ⟨visits, type⟩ := inside alike.attached fun q hq =>
    h q ((mem_positions_fieldVisits _ _ _ _).2 (.inl hq))
  constructor
  · rw [fieldVisits, fieldVisits, visits]
  · rw [fieldOf, fieldOf, type, alike.fieldAt]

theorem schemaVisits_congr {path : Path} {a : Annotation} {shape : List (String × Node)}
    (h : ∀ entry ∈ shape, c.SameField d (some path) (entryAt path a entry)) :
    c.schemaVisits path a shape = d.schemaVisits path a shape ∧
      c.schemaOf path a shape = d.schemaOf path a shape := by
  constructor
  · rw [schemaVisits, schemaVisits, entryVisits_eq_flatMap, entryVisits_eq_flatMap,
      List.flatMap_congr fun entry mem => (h entry mem).visits]
  · rw [schemaOf, schemaOf, fieldsOf_eq_map, fieldsOf_eq_map,
      List.map_congr_left fun entry mem => by rw [(h entry mem).field]]

theorem visits_congr {home : Option Path} {path : Path} {node : Node}
    (attached : node.unwrap.form.kind = .object →
      c.store.annotationAt node.unwrap.id = d.store.annotationAt node.unwrap.id)
    (h : ∀ p ∈ positions (c.visits home path node), c.Alike d p) :
    c.visits home path node = d.visits home path node ∧
      c.typeOf path node = d.typeOf path node := by
  induction node using Node.inductUnwrapped generalizing home path with
  | object node shape base ih =>
    rw [visits_object c home path base] at h
    rw [visits_object c home path base, visits_object d home path base, typeOf_object c path base,
      typeOf_object d path base, ← attached (by rw [base]; rfl)]
    have same : ∀ entry ∈ shape, c.SameField d (some path) (entryAt path _ entry) :=
      fun entry mem => sameField_of_alike (fun p hp => h p ((mem_positions_schemaVisits _ _ _ _ _).2
        ⟨entry, mem, hp⟩)) (ih entry mem)
    obtain ⟨visits, outline⟩ := schemaVisits_congr same
    exact ⟨visits, by rw [outline]⟩
  | array node element base ih =>
    rw [visits_array c home path base] at h
    rw [visits_array c home path base, visits_array d home path base, typeOf_array c path base,
      typeOf_array d path base]
    have same := sameField_of_alike h ih
    exact ⟨same.visits, by rw [same.field]⟩
  | leaf node leaf =>
    rw [visits_leaf c home path leaf, visits_leaf d home path leaf, typeOf_leaf c path leaf,
      typeOf_leaf d path leaf]
    exact ⟨rfl, rfl⟩

section Root

variable {root : Node} {extra extra' : Option Annotation} {path : Path}

theorem Visited.field_eq {p : Position} (visited : c.Visited root extra path p)
    (h : ∀ q, c.Visited root extra path q → c.Alike d q) : c.fieldOf p = d.fieldOf p := by
  obtain ⟨home, sub⟩ := visited.visits_subset
  have alike : ∀ q ∈ positions (c.fieldVisits home p), c.Alike d q := fun q hq =>
    h q (mem_positions_rootVisits_iff.1 (sub q hq))
  exact (sameField_of_alike alike visits_congr).field

theorem rootVisits_congr
    (effective : c.effective root.unwrap.id extra = d.effective root.unwrap.id extra')
    (h : ∀ p, c.Visited root extra path p → c.Alike d p) {shape : List (String × Node)}
    (base : root.unwrap.form = .object shape) :
    c.rootVisits root extra path = d.rootVisits root extra' path ∧
      c.schemaOf path (c.effective root.unwrap.id extra) shape =
        d.schemaOf path (d.effective root.unwrap.id extra') shape := by
  have hc : c.rootVisits root extra path =
      c.schemaVisits path (c.effective root.unwrap.id extra) shape := by rw [rootVisits, base]
  have hd : d.rootVisits root extra' path =
      d.schemaVisits path (d.effective root.unwrap.id extra') shape := by rw [rootVisits, base]
  rw [hc, hd, ← effective]
  apply schemaVisits_congr
  intro entry mem
  refine sameField_of_alike (fun p hp => h p ?_) visits_congr
  rw [← mem_positions_rootVisits_iff, hc]
  exact (mem_positions_schemaVisits _ _ _ _ _).2 ⟨entry, mem, hp⟩

theorem firstFault?_congr {vs : List Visit} (h : ∀ v ∈ vs, c.visitFault? v = d.visitFault? v) :
    c.firstFault? vs = d.firstFault? vs ∧ c.reached vs = d.reached vs := by
  induction vs with
  | nil => exact ⟨rfl, rfl⟩
  | cons v vs ih =>
    obtain ⟨head, tail⟩ := List.forall_mem_cons.1 h
    obtain ⟨first, reach⟩ := ih tail
    constructor
    · unfold firstFault? at first ⊢
      rw [List.findSome?_cons, List.findSome?_cons, head, first]
    · unfold reached at reach ⊢
      rw [List.takeWhile_cons, List.takeWhile_cons, head, reach]

theorem mem_positions_of_field_mem {vs : List Visit} {home : Option Path} {p : Position}
    (h : .field home p ∈ vs) : p ∈ positions vs :=
  List.mem_filterMap.2 ⟨_, h, rfl⟩

/-- Two compilers that are equally strict, start from the same annotation and find the same at
every visited position run alike: same result, same journal. -/
theorem schema_congr (strict : c.strictRequired = d.strictRequired)
    (effective : c.effective root.unwrap.id extra = d.effective root.unwrap.id extra')
    (h : ∀ p, c.Visited root extra path p → c.Alike d p) :
    c.schema root extra path = d.schema root extra' path := by
  funext j
  rw [schema_run, schema_run]
  cases base : root.unwrap.form with
  | object shape =>
    obtain ⟨visits, outline⟩ := rootVisits_congr effective h base
    have visited : ∀ {home p}, .field home p ∈ c.rootVisits root extra path →
        c.Visited root extra path p := fun mem =>
      mem_positions_rootVisits_iff.1 (mem_positions_of_field_mem mem)
    have faults : ∀ v ∈ c.rootVisits root extra path, c.visitFault? v = d.visitFault? v := by
      intro v mem
      cases v with
      | field home p => exact (h p (visited mem)).fault? strict
      | schema path names => rfl
    obtain ⟨first, reach⟩ := firstFault?_congr faults
    have written : (c.reached (c.rootVisits root extra path)).map (c.entryOf j.context) =
        (c.reached (c.rootVisits root extra path)).map (d.entryOf j.context) := by
      apply List.map_congr_left
      intro v mem
      have mem := (List.takeWhile_sublist _).subset mem
      cases v with
      | field home p => rw [entryOf, entryOf, event, event, (visited mem).field_eq h]
      | schema path names => rfl
    have same : c.result root extra path = d.result root extra' path := by
      unfold result
      simp only [base]
      rw [verdict, verdict, ← visits, first, outline]
    rw [same, written, reach, visits]
  | _ => simp [result, rootVisits, base, reached]

/-- Nothing of a store shows in a compile but the readings of its nodes. -/
theorem schema_congr_of_readings (strict : c.strictRequired = d.strictRequired)
    (bags : ∀ id, c.store.bagAt id = d.store.bagAt id)
    (annotations : ∀ id, c.store.annotationAt id = d.store.annotationAt id) :
    c.schema root extra path = d.schema root extra path := by
  have effective : c.effective root.unwrap.id extra = d.effective root.unwrap.id extra := by
    rw [Compiler.effective, annotations]
    rfl
  exact schema_congr strict effective fun _ _ =>
    ⟨fun layer _ => bags layer.id, fun _ => annotations _⟩

end Root

end MapperSchema.Compiler
