import MapperSchema.Proofs.Compiler.Locality
import MapperSchema.Proofs.Compiler.Failure
import MapperSchema.Proofs.Compiler.Root

/-! Strict and lenient compilers over one store. A strict one refuses more, and gives nothing
else; what it refuses in addition are conditions given as `required` of fields that are never
absent. -/
namespace MapperSchema

def Store.strict (s : Store) : Compiler := ⟨s, true⟩

def Store.lenient (s : Store) : Compiler := ⟨s, false⟩

/-- What is given last as `required` is neither true nor false, although the field can be neither
missing nor null. -/
structure Undecided (s : Store) (p : Position) (r : Value) : Prop where
  given : s.lenient.lastGiven? p.overrides p.node "required" = some r
  notTrue : r ≠ .bool true
  notFalse : r ≠ .bool false
  optional : ¬p.node.unwrap.optional
  nullable : ¬p.node.unwrap.nullable

/-- How a strict and a lenient compile of one root end, compared. -/
structure Restricts (s : Store) (root : Node) (extra : Option Annotation) (path : Path)
    (strict lenient : Except Fault Schema) : Prop where
  same : ∀ d, strict = .ok d → lenient = .ok d
  refused : ∀ f, lenient = .error f → ∃ g, strict = .error g
  /-- Only the strict compile fails if the lenient one succeeds and a visited field is undecided. -/
  onlyStrict : ((∃ f, strict = .error f) ∧ ∃ d, lenient = .ok d) ↔
    (∃ d, lenient = .ok d) ∧ ∃ p r, s.lenient.Visited root extra path p ∧ Undecided s p r
  first : ∀ f d, strict = .error f → lenient = .ok d → ∃ before p after r,
    Compiler.positions (s.lenient.rootVisits root extra path) = before ++ p :: after ∧
      (∀ q ∈ before, ∀ r, ¬Undecided s q r) ∧ Undecided s p r ∧
      f = .requiredConflict p.path r false false

namespace Compiler

variable {s : Store} {root : Node} {extra : Option Annotation} {path : Path} {p : Position}

theorem givenRequired?_strict (s : Store) (p : Position) :
    s.strict.givenRequired? p = s.lenient.givenRequired? p := rfl

/-- A strict compiler finds the faults of a lenient one, and the undecided fields. -/
theorem faulty_strict_iff :
    s.strict.Faulty p ↔ s.lenient.Faulty p ∨ ∃ r, Undecided s p r := by
  constructor
  · intro h
    cases h with
    | never base => exact .inl (.never base)
    | required given absent => exact .inl (.required given absent)
    | notRequired given optional nullable => exact .inl (.notRequired given optional nullable)
    | predicate r given notTrue notFalse strict optional nullable =>
      exact .inr ⟨r, given, notTrue, notFalse, optional, nullable⟩
  · rintro (h | ⟨r, h⟩)
    · cases h with
      | never base => exact .never base
      | required given absent => exact .required given absent
      | notRequired given optional nullable => exact .notRequired given optional nullable
      | predicate r given notTrue notFalse strict optional nullable => cases strict
    · have given : s.strict.givenRequired? p = some r := by
        rw [givenRequired?_strict]
        exact h.given
      exact .predicate r given h.notTrue h.notFalse rfl h.optional h.nullable

/-- Both go through the same visits, and to the same outline. -/
theorem strict_congr {shape : List (String × Node)} (base : root.unwrap.form = .object shape) :
    s.strict.rootVisits root extra path = s.lenient.rootVisits root extra path ∧
      s.strict.schemaOf path (s.strict.effective root.unwrap.id extra) shape =
        s.lenient.schemaOf path (s.lenient.effective root.unwrap.id extra) shape :=
  rootVisits_congr (c := s.strict) (d := s.lenient) rfl
    (fun _ _ => ⟨fun _ _ => rfl, fun _ => rfl⟩) base

theorem rootVisits_strict (s : Store) (root : Node) (extra : Option Annotation) (path : Path) :
    s.strict.rootVisits root extra path = s.lenient.rootVisits root extra path := by
  cases base : root.unwrap.form with
  | object shape => exact (strict_congr base).1
  | _ => simp only [rootVisits, base]

theorem visited_strict_iff :
    s.strict.Visited root extra path p ↔ s.lenient.Visited root extra path p := by
  rw [← mem_positions_rootVisits_iff, rootVisits_strict, mem_positions_rootVisits_iff]

/-- A strict compile gives what a lenient one gives, if no visited field is undecided. -/
theorem result_strict_eq_ok_iff {d : Schema} : s.strict.result root extra path = .ok d ↔
    s.lenient.result root extra path = .ok d ∧
      ∀ p r, s.lenient.Visited root extra path p → ¬Undecided s p r := by
  rw [result_eq_ok_iff, result_eq_ok_iff]
  constructor
  · rintro ⟨shape, base, good, rfl⟩
    have sound : ∀ p, s.lenient.Visited root extra path p →
        ¬s.lenient.Faulty p ∧ ¬∃ r, Undecided s p r := fun p visited => by
      rw [← not_or, ← faulty_strict_iff]
      exact good p (visited_strict_iff.2 visited)
    refine ⟨⟨shape, base, fun p visited => (sound p visited).1, (strict_congr base).2⟩, ?_⟩
    exact fun p r visited undecided => (sound p visited).2 ⟨r, undecided⟩
  · rintro ⟨⟨shape, base, good, rfl⟩, decided⟩
    refine ⟨shape, base, fun p visited => ?_, (strict_congr base).2.symm⟩
    have visited := visited_strict_iff.1 visited
    rw [faulty_strict_iff, not_or]
    exact ⟨good p visited, fun ⟨r, undecided⟩ => decided p r visited undecided⟩

/-- Where a lenient compile succeeds a strict one reports the first undecided field. -/
theorem result_strict_eq_error {d : Schema} {f : Fault}
    (strict : s.strict.result root extra path = .error f)
    (lenient : s.lenient.result root extra path = .ok d) : ∃ before p after r,
      positions (s.lenient.rootVisits root extra path) = before ++ p :: after ∧
        (∀ q ∈ before, ∀ r, ¬Undecided s q r) ∧ Undecided s p r ∧
        f = .requiredConflict p.path r false false := by
  obtain ⟨shape, base, good, -⟩ := result_eq_ok_iff.1 lenient
  rcases result_eq_error_iff.1 strict with ⟨root, -⟩ | first
  · rw [base] at root
    exact absurd rfl root
  rw [rootVisits_strict, firstFault?_eq_some_iff] at first
  obtain ⟨before, p, after, hl, before_good, bad, reports⟩ := first
  have mem : p ∈ positions (s.lenient.rootVisits root extra path) := by
    rw [hl]
    simp
  have sound := good p (mem_positions_rootVisits_iff.1 mem)
  obtain ⟨r, undecided⟩ := (faulty_strict_iff.1 bad).resolve_left sound
  refine ⟨before, p, after, r, hl, fun q hq r u => before_good q hq ?_, undecided, ?_⟩
  · exact faulty_strict_iff.2 (.inr ⟨r, u⟩)
  · cases reports with
    | never base => exact absurd (.never base) sound
    | @required r' base given =>
      have given := undecided.given.symm.trans given
      rw [Option.some.injEq] at given
      have optional : p.node.unwrap.optional = false := by simpa using undecided.optional
      have nullable : p.node.unwrap.nullable = false := by simpa using undecided.nullable
      rw [given, optional, nullable]

theorem result_restricts (s : Store) (root : Node) (extra : Option Annotation) (path : Path) :
    Restricts s root extra path (s.strict.result root extra path)
      (s.lenient.result root extra path) := by
  constructor
  case same => exact fun d strict => (result_strict_eq_ok_iff.1 strict).1
  case refused =>
    intro f lenient
    cases strict : s.strict.result root extra path with
    | error g => exact ⟨g, rfl⟩
    | ok d =>
      rw [(result_strict_eq_ok_iff.1 strict).1] at lenient
      cases lenient
  case onlyStrict =>
    constructor
    · rintro ⟨⟨f, strict⟩, d, lenient⟩
      obtain ⟨before, p, after, r, hl, -, undecided, -⟩ := result_strict_eq_error strict lenient
      refine ⟨⟨d, lenient⟩, p, r, mem_positions_rootVisits_iff.1 ?_, undecided⟩
      rw [hl]
      simp
    · rintro ⟨lenient, p, r, visited, undecided⟩
      refine ⟨?_, lenient⟩
      cases strict : s.strict.result root extra path with
      | error f => exact ⟨f, rfl⟩
      | ok d => exact absurd undecided ((result_strict_eq_ok_iff.1 strict).2 p r visited)
  case first => exact fun f d strict lenient => result_strict_eq_error strict lenient

/-- If a strict compile succeeds, a lenient one gives the same, and if a lenient one fails, so does
a strict one. Where the lenient one succeeds, the strict one fails exactly if a visited field is
undecided, and reports the first that is. Options that cannot be read are refused by both. -/
theorem strict_only_restricts (s : Store) (root : Node) :
    (∀ extra path j j', Restricts s root extra path ((s.strict.schema root extra path).outcome j)
      ((s.lenient.schema root extra path).outcome j')) ∧
    ∀ options j j',
      let strict := (s.strict.compile root options).outcome j
      let lenient := (s.lenient.compile root options).outcome j'
      (∀ a, SchemaOptions.read options = .ok a → Restricts s root (some a) [] strict lenient) ∧
        ∀ issues, SchemaOptions.read options = .error issues →
          strict = .error (.invalidOptions issues) ∧ lenient = .error (.invalidOptions issues) := by
  constructor
  · intro extra path j j'
    rw [schema_outcome, schema_outcome]
    exact result_restricts s root extra path
  · intro options j j' strict lenient
    constructor
    · intro a valid
      have hs : strict = _ := compile_outcome valid s.strict root j
      have hl : lenient = _ := compile_outcome valid s.lenient root j'
      rw [hs, hl]
      exact result_restricts s root (some a) []
    · intro issues invalid
      have refused : ∀ (c : Compiler) j,
          (c.compile root options).outcome j = .error (.invalidOptions issues) := fun c j => by
        rw [compile_of_unread invalid]
        rfl
      exact ⟨refused _ j, refused _ j'⟩

/-- Elements of an array with a condition: only the strict compile fails. -/
theorem strict_only_restricts_tags :
    let root : Node :=
      .base 2 (.object [("tags", .base 1 (.array (.base 0 (.scalar .string))))])
    let condition : Bag := Table.single (.text "required") (.atom (.function "isDraft" 0))
    let s : Store := (∅ : Store).addToBag 0 condition
    (SchemaOptions.untyped .null).read = .ok ∅ ∧
      (∃ d, (s.lenient.compile root (.untyped .null)).outcome {} = .ok d) ∧
      (∃ p r, s.lenient.Visited root (some ∅) [] p ∧ Undecided s p r) ∧
      ∃ f, (s.strict.compile root (.untyped .null)).outcome {} = .error f := by
  intro root condition s
  have valid : (SchemaOptions.untyped .null).read = .ok ∅ := rfl
  have lenient : (s.lenient.compile root (.untyped .null)).outcome {} = .ok _ := rfl
  have tags : s.lenient.Visited root (some ∅) [] _ := .entry rfl (List.mem_singleton_self _)
  have undecided : Undecided s (elementAt ["tags"] (.base 0 (.scalar .string))) _ :=
    ⟨rfl, by simp, by simp, by decide, by decide⟩
  have restricts := ((strict_only_restricts s root).2 (.untyped .null) {} {}).1 ∅ valid
  have found : ∃ p r, s.lenient.Visited root (some ∅) [] p ∧ Undecided s p r :=
    ⟨_, _, .element tags rfl, undecided⟩
  exact ⟨valid, ⟨_, lenient⟩, found, (restricts.onlyStrict.2 ⟨⟨_, lenient⟩, found⟩).1⟩

/-- An undecided field does not mean that a lenient compile succeeds where a strict one fails: it
may find another fault. -/
theorem undecided_beside_fault :
    let root : Node :=
      .base 2 (.object [("a", .base 0 (.scalar .string)), ("b", .base 1 (.scalar .string))])
    let condition : Bag := Table.single (.text "required") (.atom (.function "isDraft" 0))
    let s : Store := ((∅ : Store).addToBag 0 condition).addToBag 1
      (Table.single (.text "required") (.bool false))
    ¬(((∃ f, (s.strict.compile root (.untyped .null)).outcome {} = .error f) ∧
        ∃ d, (s.lenient.compile root (.untyped .null)).outcome {} = .ok d) ↔
      ∃ p r, s.lenient.Visited root (some ∅) [] p ∧ Undecided s p r) := by
  intro root condition s claimed
  have first : s.lenient.Visited root (some ∅) [] _ := .entry rfl List.mem_cons_self
  have undecided : Undecided s (entryAt [] ∅ ("a", .base 0 (.scalar .string))) _ :=
    ⟨rfl, by simp, by simp, by decide, by decide⟩
  obtain ⟨-, d, succeeds⟩ := claimed.2 ⟨_, _, first, undecided⟩
  have fails : (s.lenient.compile root (.untyped .null)).outcome {} = .error _ := rfl
  rw [fails] at succeeds
  cases succeeds

end Compiler

end MapperSchema
