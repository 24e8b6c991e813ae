import MapperSchema.Proofs.Compiler.LastGiven

/-! Positions at which fields are compiled, what makes one faulty, and the field that comes of one
that is not. -/
namespace MapperSchema

/-- An entry of an object or the element of an array, with the overrides that reach it. -/
structure Position where
  path : Path
  overrides : Options
  node : Node

namespace Compiler

/-- The bags of all layers from the inside out, then the overrides. -/
def givenAt (c : Compiler) (p : Position) : Bag := c.givenOptions p.node.unwrap p.overrides

/-- The `required` that is given last for the position. -/
def givenRequired? (c : Compiler) (p : Position) : Option Value :=
  c.lastGiven? p.overrides p.node "required"

theorem givenRequired?_eq (c : Compiler) (p : Position) :
    c.givenRequired? p = (c.givenAt p).get? (.text "required") :=
  (c.get?_givenOptions p.overrides p.node "required").symm

/-- Either nothing compiles the node, or the given `required` contradicts the modifiers. -/
inductive Faulty (c : Compiler) (p : Position) : Prop
  | never (base : p.node.unwrap.form.kind = .never)
  | required (given : c.givenRequired? p = some (.bool true))
    (absent : p.node.unwrap.optional ∨ p.node.unwrap.nullable ∧ p.node.unwrap.form ≠ .literal .null)
  | notRequired (given : c.givenRequired? p = some (.bool false))
    (optional : ¬ p.node.unwrap.optional) (nullable : ¬ p.node.unwrap.nullable)
  | predicate (r : Value) (given : c.givenRequired? p = some r) (notTrue : r ≠ .bool true)
    (notFalse : r ≠ .bool false) (strict : c.strictRequired)
    (optional : ¬ p.node.unwrap.optional) (nullable : ¬ p.node.unwrap.nullable)

/-- Whether a `required` conflicts depends on the two flags and on the null literal. -/
theorem conflicts_congr (c : Compiler) {u v : Unwrapped} (optional : u.optional = v.optional)
    (nullable : u.nullable = v.nullable)
    (acceptsOnlyNull : u.form.acceptsOnlyNull = v.form.acceptsOnlyNull) (r : Value) :
    c.conflicts u r = c.conflicts v r := by
  unfold conflicts Unwrapped.admitsAbsence
  rw [optional, nullable, acceptsOnlyNull]

/-- What is reported of a position. A `never` is reported before its options are looked at. -/
def fault? (c : Compiler) (p : Position) : Option Fault :=
  if p.node.unwrap.form.kind = .never then some (.unsupportedKind .never p.path)
  else
    match c.givenRequired? p with
    | none => none
    | some r =>
      if c.conflicts p.node.unwrap r then
        some (.requiredConflict p.path r p.node.unwrap.optional p.node.unwrap.nullable)
      else none

theorem fault?_of_never {c : Compiler} {p : Position} (h : p.node.unwrap.form.kind = .never) :
    c.fault? p = some (.unsupportedKind .never p.path) := by
  rw [fault?, if_pos h]

theorem fault?_isSome_iff_of_given {c : Compiler} {p : Position} {r : Value}
    (h : p.node.unwrap.form.kind ≠ .never) (given : c.givenRequired? p = some r) :
    (c.fault? p).isSome ↔ c.conflicts p.node.unwrap r := by
  rw [fault?, if_neg h, given]
  cases hc : c.conflicts p.node.unwrap r <;> simp [hc]

theorem faulty_of_conflicts {c : Compiler} {p : Position} {r : Value}
    (given : c.givenRequired? p = some r) (h : c.conflicts p.node.unwrap r) : c.Faulty p := by
  by_cases ht : r = .bool true
  · subst ht
    refine .required given ?_
    simpa [conflicts, ← Form.acceptsOnlyNull_iff] using h
  · by_cases hf : r = .bool false
    · subst hf
      have hh : ¬ p.node.unwrap.optional ∧ ¬ p.node.unwrap.nullable := by
        simpa [conflicts, Unwrapped.admitsAbsence] using h
      exact .notRequired given hh.1 hh.2
    · rw [conflicts_of_other c _ ht hf] at h
      have hh : c.strictRequired ∧ ¬ p.node.unwrap.optional ∧ ¬ p.node.unwrap.nullable := by
        simpa [Unwrapped.admitsAbsence] using h
      exact .predicate r given ht hf hh.1 hh.2.1 hh.2.2

/-- A fault is reported of exactly the faulty positions. -/
theorem fault?_isSome_iff (c : Compiler) (p : Position) : (c.fault? p).isSome ↔ c.Faulty p := by
  by_cases hn : p.node.unwrap.form.kind = .never
  · rw [fault?_of_never hn]
    exact iff_of_true rfl (.never hn)
  · constructor
    · intro h
      cases hg : c.givenRequired? p with
      | none => simp [fault?, hn, hg] at h
      | some r => exact faulty_of_conflicts hg ((fault?_isSome_iff_of_given hn hg).1 h)
    · intro h
      cases h with
      | never base => exact absurd base hn
      | required given absent =>
        rw [fault?_isSome_iff_of_given hn given]
        simpa [conflicts, ← Form.acceptsOnlyNull_iff] using absent
      | notRequired given optional nullable =>
        rw [fault?_isSome_iff_of_given hn given]
        simp_all [conflicts, Unwrapped.admitsAbsence]
      | predicate r given notTrue notFalse strict optional nullable =>
        rw [fault?_isSome_iff_of_given hn given, conflicts_of_other c _ notTrue notFalse]
        simp_all [Unwrapped.admitsAbsence]

/-- The `required` that comes of a position without fault. -/
def requiredAt (c : Compiler) (p : Position) : Value :=
  (c.givenRequired? p).getD (.bool !p.node.unwrap.admitsAbsence)

/-- The field that comes of a position without fault, once its type is known. -/
def fieldAt (c : Compiler) (p : Position) (type : FieldType) : Field :=
  ⟨p.path, type, fieldOptions (c.requiredAt p) (default? p.node.unwrap type (c.givenAt p))
    (c.givenAt p)⟩

theorem required_eq {c : Compiler} {p : Position} (h : p.node.unwrap.form.kind ≠ .never) :
    c.required p.node.unwrap p.path (c.givenAt p) =
      match c.fault? p with
      | some f => .error f
      | none => .ok (c.requiredAt p) := by
  rw [fault?, if_neg h]
  unfold required requiredAt
  rw [← givenRequired?_eq]
  cases hg : c.givenRequired? p with
  | none => rfl
  | some r => cases hc : c.conflicts p.node.unwrap r <;> simp [hc]

end Compiler

end MapperSchema
