import MapperSchema.Proofs.Compiler.Run
import MapperSchema.Proofs.Compiler.Visited

/-! When a compile fails, and with which fault: the root must be an object, and the first faulty
position in the order of the visits is the one that is reported. -/
namespace MapperSchema.Compiler

variable {c : Compiler}

/-- What is said of a faulty position. -/
inductive Reports (c : Compiler) (p : Position) : Fault → Prop
  | never (base : p.node.unwrap.form.kind = .never) :
    Reports c p (.unsupportedKind .never p.path)
  | required {r : Value} (base : p.node.unwrap.form.kind ≠ .never)
    (given : c.givenRequired? p = some r) :
    Reports c p (.requiredConflict p.path r p.node.unwrap.optional p.node.unwrap.nullable)

theorem fault?_eq_some_iff {p : Position} {f : Fault} :
    c.fault? p = some f ↔ c.Faulty p ∧ c.Reports p f := by
  constructor
  · intro h
    refine ⟨(c.fault?_isSome_iff p).1 (by rw [h]; rfl), ?_⟩
    by_cases hn : p.node.unwrap.form.kind = .never
    · rw [fault?_of_never hn, Option.some.injEq] at h
      exact h ▸ .never hn
    · rw [fault?, if_neg hn] at h
      cases hg : c.givenRequired? p with
      | none => simp [hg] at h
      | some r =>
        cases hc : c.conflicts p.node.unwrap r with
        | false => simp [hg, hc] at h
        | true =>
          simp only [hg, hc, if_true, Option.some.injEq] at h
          exact h ▸ .required hn hg
  · rintro ⟨hf, hr⟩
    obtain ⟨g, hg⟩ := Option.isSome_iff_exists.1 ((c.fault?_isSome_iff p).2 hf)
    cases hr with
    | never base => exact fault?_of_never base
    | @required r base given =>
      rw [fault?, if_neg base, given] at hg ⊢
      cases hc : c.conflicts p.node.unwrap r with
      | false => simp [hc] at hg
      | true => simp [hc]

theorem fault?_eq_none_iff {p : Position} : c.fault? p = none ↔ ¬ c.Faulty p := by
  rw [← fault?_isSome_iff, Option.not_isSome_iff_eq_none]

theorem firstFault?_eq (vs : List Visit) :
    c.firstFault? vs = (positions vs).findSome? c.fault? := by
  induction vs with
  | nil => rfl
  | cons v vs ih =>
    have hv : c.firstFault? (v :: vs) = (c.visitFault? v).or (c.firstFault? vs) := by
      rw [firstFault?, List.findSome?_cons]
      cases c.visitFault? v <;> rfl
    rw [hv, ih]
    cases v with
    | field home p =>
      rw [positions_field, List.findSome?_cons, visitFault?_field]
      cases c.fault? p <;> rfl
    | schema path names => rw [positions_schema, visitFault?_schema, Option.none_or]

/-- The first faulty position of a list, and what is said of it. -/
theorem firstFault?_eq_some_iff {vs : List Visit} {f : Fault} :
    c.firstFault? vs = some f ↔ ∃ before p after, positions vs = before ++ p :: after ∧
      (∀ q ∈ before, ¬ c.Faulty q) ∧ c.Faulty p ∧ c.Reports p f := by
  rw [firstFault?_eq, List.findSome?_eq_some_iff]
  constructor
  · rintro ⟨before, p, after, hl, hp, hb⟩
    have good : ∀ q ∈ before, ¬ c.Faulty q := fun q hq => fault?_eq_none_iff.1 (hb q hq)
    exact ⟨before, p, after, hl, good, fault?_eq_some_iff.1 hp⟩
  · rintro ⟨before, p, after, hl, hb, hp⟩
    have good : ∀ q ∈ before, c.fault? q = none := fun q hq => fault?_eq_none_iff.2 (hb q hq)
    exact ⟨before, p, after, hl, fault?_eq_some_iff.2 hp, good⟩

theorem firstFault?_eq_none_iff {vs : List Visit} :
    c.firstFault? vs = none ↔ ∀ p ∈ positions vs, ¬ c.Faulty p := by
  rw [firstFault?_eq, List.findSome?_eq_none_iff]
  exact forall₂_congr fun p _ => fault?_eq_none_iff

theorem verdict_eq_error_iff {α : Type} {vs : List Visit} {a : α} {f : Fault} :
    c.verdict vs a = .error f ↔ c.firstFault? vs = some f := by
  unfold verdict
  cases c.firstFault? vs <;> simp

theorem verdict_eq_ok_iff {α : Type} {vs : List Visit} {a b : α} :
    c.verdict vs a = .ok b ↔ c.firstFault? vs = none ∧ a = b := by
  unfold verdict
  cases c.firstFault? vs <;> simp

theorem result_eq_error_iff {node : Node} {extra : Option Annotation} {path : Path} {f : Fault} :
    c.result node extra path = .error f ↔
      (node.unwrap.form.kind ≠ .object ∧ f = .notObject node.unwrap.form.kind path) ∨
        c.firstFault? (c.rootVisits node extra path) = some f := by
  unfold result rootVisits
  split
  next shape base => simp [verdict_eq_error_iff, base, Form.kind]
  next form other =>
    have kind : node.unwrap.form.kind ≠ .object := by
      rw [Ne, Form.kind_eq_object_iff]
      rintro ⟨shape, base⟩
      exact other shape base
    simp [kind, firstFault?, eq_comm]

theorem result_eq_ok_iff {node : Node} {extra : Option Annotation} {path : Path} {d : Schema} :
    c.result node extra path = .ok d ↔ ∃ shape, node.unwrap.form = .object shape ∧
      (∀ p, c.Visited node extra path p → ¬ c.Faulty p) ∧
      d = c.schemaOf path (c.effective node.unwrap.id extra) shape := by
  unfold result
  split
  next shape base =>
    rw [verdict_eq_ok_iff, firstFault?_eq_none_iff]
    simp only [mem_positions_rootVisits_iff, base, Form.object.injEq, exists_eq_left', eq_comm]
  next form other =>
    constructor
    · intro h
      cases h
    · rintro ⟨shape, base, -⟩
      exact absurd base (other shape)

/-- A compile fails exactly if the root is no object or a visited position is faulty, and reports
the first faulty position; a position comes after all that is found in it. -/
theorem schema_fails_iff (c : Compiler) (node : Node) (extra : Option Annotation) (path : Path)
    (j : Journal) :
    ((∃ f, (c.schema node extra path).outcome j = .error f) ↔
      node.unwrap.form.kind ≠ .object ∨ ∃ p, c.Visited node extra path p ∧ c.Faulty p) ∧
    ∀ f, (c.schema node extra path).outcome j = .error f ↔
      (node.unwrap.form.kind ≠ .object ∧ f = .notObject node.unwrap.form.kind path) ∨
      ∃ before p after, positions (c.rootVisits node extra path) = before ++ p :: after ∧
        (∀ q ∈ before, ¬ c.Faulty q) ∧ c.Faulty p ∧ c.Reports p f := by
  have first : ∀ f, (c.schema node extra path).outcome j = .error f ↔ _ := fun f => by
    rw [schema_outcome, result_eq_error_iff, firstFault?_eq_some_iff]
  refine ⟨?_, first⟩
  constructor
  · rintro ⟨f, hf⟩
    rcases (first f).1 hf with ⟨root, -⟩ | ⟨before, p, after, hl, -, hp, -⟩
    · exact .inl root
    · refine .inr ⟨p, mem_positions_rootVisits_iff.1 ?_, hp⟩
      rw [hl]
      simp
  · rintro (root | ⟨p, visited, hp⟩)
    · exact ⟨_, (first _).2 (.inl ⟨root, rfl⟩)⟩
    · have mem := mem_positions_rootVisits_iff.2 visited
      cases hf : c.firstFault? (c.rootVisits node extra path) with
      | none => exact absurd hp (firstFault?_eq_none_iff.1 hf p mem)
      | some f => exact ⟨f, (first f).2 (.inr (firstFault?_eq_some_iff.1 hf))⟩

end MapperSchema.Compiler
