import MapperSchema.Proofs.Authoring.History
import MapperSchema.Proofs.Compiler.Compiled
import MapperSchema.Proofs.Validator.Wrappers

/-! The compiled `required` of a field, and what the validator says of a missing or null value. -/
namespace MapperSchema

namespace Node

/-- A value of the node may be missing or null. Defaults and effects have no part in it. -/
def mayBeAbsent : Node → Bool
  | .base _ form => form.acceptsOnlyNull
  | .wrap _ .optional _ => true
  | .wrap _ .nullable _ => true
  | .wrap _ (.default _) inner => inner.mayBeAbsent
  | .wrap _ .effects inner => inner.mayBeAbsent

theorem admitsAbsence_unwrap (n : Node) : n.unwrap.admitsAbsence = n.mayBeAbsent := by
  induction n with
  | wrap id modifier inner ih =>
    cases modifier <;> simp_all [Unwrapped.under, Unwrapped.admitsAbsence, mayBeAbsent]
  | _ => simp [Unwrapped.admitsAbsence, mayBeAbsent]

/-- What makes a value absent is a wrapper, or a literal null. -/
theorem mayBeAbsent_eq (n : Node) : n.mayBeAbsent =
    (n.crosses .optional || (n.crosses .nullable || n.unwrap.form.acceptsOnlyNull)) := by
  rw [← admitsAbsence_unwrap, Unwrapped.admitsAbsence, optional_unwrap, nullable_unwrap]

theorem attached?_wrapped (s : Store) (k : Key) (base : Node) (ws : List Wrapper) :
    (base.wrapped ws).attached? s k =
      (ws.findSome? fun w => (s.bagAt w.id).get? k).or (base.attached? s k) := by
  induction ws with
  | nil => rfl
  | cons w ws ih =>
    rw [wrapped_cons, attached?, ih, List.findSome?_cons]
    cases (s.bagAt w.id).get? k <;> rfl

end Node

namespace Compiler

variable {c : Compiler}

/-- This `required`, compiled for a field, agrees with what was given for the field and with what
its node admits. -/
structure Agrees (c : Compiler) (overrides : Options) (node : Node) (r : Value) : Prop where
  derived : c.lastGiven? overrides node "required" = none → r = .bool !node.mayBeAbsent
  kept : ∀ given, c.lastGiven? overrides node "required" = some given → r = given
  present : r = .bool true → ¬node.crosses .optional ∧
    (¬node.crosses .nullable ∨ node.unwrap.form = .literal .null)
  /-- Only a literal null is required although it is null, and only if that is asked for. -/
  presentNull : r = .bool true → node.mayBeAbsent → node.unwrap.form = .literal .null ∧
    c.lastGiven? overrides node "required" = some (.bool true)
  absent : r = .bool false → node.mayBeAbsent
  strict : r ≠ .bool true → r ≠ .bool false → c.strictRequired → node.mayBeAbsent

/-- What is derived from the node is true or false as the node says. -/
theorem derived_agrees {overrides : Options} {node : Node}
    (none : c.lastGiven? overrides node "required" = none) :
    c.Agrees overrides node (.bool !node.mayBeAbsent) := by
  have flags := node.mayBeAbsent_eq
  constructor
  case derived => exact fun _ => rfl
  case kept => simp [none]
  case present =>
    intro hr
    have never : node.mayBeAbsent = false := by simpa using hr
    simp_all
  case presentNull =>
    intro hr absent
    simp [absent] at hr
  case absent =>
    intro hr
    simpa using hr
  case strict =>
    intro notTrue notFalse
    cases absent : node.mayBeAbsent <;> simp [absent] at notTrue notFalse

/-- What is given for a position without fault contradicts the node in no way. -/
theorem given_agrees {p : Position} {r : Value} (h : ¬c.Faulty p)
    (given : c.lastGiven? p.overrides p.node "required" = some r) :
    c.Agrees p.overrides p.node r := by
  have given' : c.givenRequired? p = some r := given
  have absence : p.node.mayBeAbsent = (p.node.unwrap.optional || p.node.unwrap.nullable) :=
    p.node.admitsAbsence_unwrap.symm
  constructor
  case derived => simp [given]
  case kept =>
    intro r' again
    exact Option.some.inj (given.symm.trans again)
  case present =>
    rintro rfl
    have allowed : ¬(p.node.unwrap.optional ∨
        p.node.unwrap.nullable ∧ p.node.unwrap.form ≠ .literal .null) :=
      fun absent => h (.required given' absent)
    obtain ⟨optional, nullable⟩ := not_or.1 allowed
    rw [p.node.optional_unwrap] at optional
    refine ⟨optional, ?_⟩
    by_cases null : p.node.unwrap.form = .literal .null
    · exact .inr null
    · refine .inl fun crossed => nullable ⟨?_, null⟩
      rw [p.node.nullable_unwrap, crossed, Bool.true_or]
  case presentNull =>
    rintro rfl absent
    have null : p.node.unwrap.form = .literal .null := by
      by_contra other
      have flags : p.node.unwrap.optional ∨ p.node.unwrap.nullable := by
        simpa [absence] using absent
      exact h (.required given' (flags.imp_right fun nullable => ⟨nullable, other⟩))
    exact ⟨null, given⟩
  case absent =>
    rintro rfl
    by_contra never
    have flags : ¬p.node.unwrap.optional ∧ ¬p.node.unwrap.nullable := by
      simpa [absence] using never
    exact h (.notRequired given' flags.1 flags.2)
  case strict =>
    intro notTrue notFalse strict
    by_contra never
    have flags : ¬p.node.unwrap.optional ∧ ¬p.node.unwrap.nullable := by
      simpa [absence] using never
    exact h (.predicate r given' notTrue notFalse strict flags.1 flags.2)

/-- A position without fault gets a `required` that agrees with its node. -/
theorem requiredAt_agrees {p : Position} (h : ¬c.Faulty p) :
    c.Agrees p.overrides p.node (c.requiredAt p) := by
  unfold requiredAt givenRequired?
  rw [p.node.admitsAbsence_unwrap]
  cases given : c.lastGiven? p.overrides p.node "required" with
  | none => exact derived_agrees given
  | some r => exact given_agrees h given

theorem fault?_congr {p q : Position} (path : p.path = q.path)
    (form : p.node.unwrap.form = q.node.unwrap.form)
    (optional : p.node.unwrap.optional = q.node.unwrap.optional)
    (nullable : p.node.unwrap.nullable = q.node.unwrap.nullable)
    (required : c.givenRequired? p = c.givenRequired? q) : c.fault? p = c.fault? q := by
  have conflicts := c.conflicts_congr optional nullable (congrArg Form.acceptsOnlyNull form)
  unfold fault?
  simp only [path, form, optional, nullable, required, conflicts]

/-- The `required` of a field that is compiled by itself. -/
theorem map_required?_field (c : Compiler) (node : Node) (a : Option Annotation)
    (name : Option String) (path : Path) (j : Journal) :
    ((c.field node a name path).outcome j).map Field.required? =
      c.verdict (c.fieldVisits none (fieldAlone node a name path))
        (some (c.requiredAt (fieldAlone node a name path))) := by
  rw [field_outcome, ← required?_fieldOf, verdict, verdict]
  cases c.firstFault? (c.fieldVisits none (fieldAlone node a name path)) <;> rfl

/-- Nodes with one base that cross the same flags and are given the same `required` get the same,
or are refused alike. -/
theorem requirement_congr {n m : Node} (base : n.unwrap.base = m.unwrap.base)
    (crossed : ∀ k, k = .optional ∨ k = .nullable → n.crosses k = m.crosses k)
    (given : ∀ overrides, c.lastGiven? overrides n "required" =
      c.lastGiven? overrides m "required")
    (a : Option Annotation) (name : Option String) (path : Path) (j : Journal) :
    ((c.field n a name path).outcome j).map Field.required? =
      ((c.field m a name path).outcome j).map Field.required? := by
  obtain ⟨id, form⟩ := Node.base.inj base
  let p := fieldAlone n a name path
  let q := fieldAlone m a name path
  have optional : n.unwrap.optional = m.unwrap.optional := by
    rw [n.optional_unwrap, m.optional_unwrap, crossed _ (.inl rfl)]
  have nullable : n.unwrap.nullable = m.unwrap.nullable := by
    rw [n.nullable_unwrap, m.nullable_unwrap, crossed _ (.inr rfl), form]
  have required : c.givenRequired? p = c.givenRequired? q := given _
  have value : c.requiredAt p = c.requiredAt q := by
    have absence : n.unwrap.admitsAbsence = m.unwrap.admitsAbsence := by
      rw [Unwrapped.admitsAbsence, optional, nullable, Unwrapped.admitsAbsence]
    exact congrArg₂ Option.getD required (congrArg (Value.bool !·) absence)
  have first : c.firstFault? (c.fieldVisits none p) = c.firstFault? (c.fieldVisits none q) := by
    have visits : c.visits none path n = c.visits none path m := by
      rw [visits_eq, visits_eq, id, form]
    have fault : c.fault? p = c.fault? q := fault?_congr rfl form optional nullable required
    change c.firstFault? (c.visits none path n ++ [.field none p]) =
      c.firstFault? (c.visits none path m ++ [.field none q])
    rw [firstFault?_append, firstFault?_append, visits]
    simp only [firstFault?, List.findSome?_cons, visitFault?_field, fault]
  rw [map_required?_field, map_required?_field, verdict, verdict, first, value]

/-- A default or an effect without a `required` of its own makes no difference. -/
theorem requirement_wrapped (base : Node) (before : List Wrapper) {w : Wrapper}
    (after : List Wrapper) (kind : w.kind = .default ∨ w.kind = .effects)
    (bare : (c.store.bagAt w.id).get? (.text "required") = none)
    (a : Option Annotation) (name : Option String) (path : Path) (j : Journal) :
    ((c.field (base.wrapped (before ++ w :: after)) a name path).outcome j).map Field.required? =
      ((c.field (base.wrapped (before ++ after)) a name path).outcome j).map Field.required? := by
  apply requirement_congr
  case base => rw [Node.base_unwrap_wrapped, Node.base_unwrap_wrapped]
  case crossed =>
    intro k flag
    have other : decide (w.kind = k) = false := by
      rcases kind with h | h <;> rcases flag with rfl | rfl <;> rw [h] <;> rfl
    simp only [Node.crosses_wrapped, List.any_append, List.any_cons, other, Bool.false_or]
  case given =>
    intro overrides
    simp only [lastGiven?, Node.attached?_wrapped, List.findSome?_append, List.findSome?_cons, bare]

open Session Store in
/-- In every definition each field has a `required` that agrees with its node, and so has a field
that is compiled by itself. Defaults and effects make no difference. Of the calls on one node the
latest that gives an option decides. -/
theorem required_agrees (c : Compiler) :
    (∀ root extra path d, c.Compiles root extra path d →
      (∀ f, d.Holds f → ∃ p, c.Matches root extra path d p f) ∧
        ∀ p f, c.Matches root extra path d p f →
          ∃ r, f.required? = some r ∧ c.Agrees p.overrides p.node r) ∧
      (∀ node a name path j f, (c.field node a name path).outcome j = .ok f →
        ∃ r, f.required? = some r ∧ c.Agrees (overridesFor a name) node r) ∧
      (∀ (base : Node) before (w : Wrapper) after, w.kind = .default ∨ w.kind = .effects →
        (c.store.bagAt w.id).get? (.text "required") = none → ∀ a name path j,
          ((c.field (base.wrapped (before ++ w :: after)) a name path).outcome j).map
              Field.required? =
            ((c.field (base.wrapped (before ++ after)) a name path).outcome j).map
              Field.required?) ∧
      ∀ nextId journal history r id,
        let s := ((fresh nextId journal).after history).store r
        (∀ k, (s.bagAt id).get? k =
            (standing (bagChanges r id history)).reverse.findSome? (·.get? k)) ∧
          ∀ name k, ((s.annotationAt id).overrides name).get? k =
            (standing (annotationChanges r id (fresh nextId journal) history)).reverse.findSome?
              fun a => (a.overrides name).get? k := by
  refine ⟨fun root extra path d h => ⟨fun f held => Matches.of_holds h.result_eq held, ?_⟩, ?_,
    fun base before w after kind bare => requirement_wrapped base before after kind bare,
    fun nextId journal history r id => ⟨get?_bagAt_after nextId journal history r id,
      get?_overrides_after nextId journal history r id⟩⟩
  · intro p f m
    obtain ⟨good, rfl⟩ := h.field_eq m
    exact ⟨_, c.required?_fieldOf p, requiredAt_agrees good⟩
  · intro node a name path j f ok
    obtain ⟨good, rfl⟩ := field_eq_of_ok ok
    exact ⟨_, c.required?_fieldOf _, requiredAt_agrees good⟩

open Session in
/-- A literal null under a nullable wrapper, first not required, then required after all. -/
theorem required_agrees_gone :
    let gone : Node := .wrap 1 .nullable (.base 0 (.literal .null))
    let root : Node := .base 2 (.object [("gone", gone)])
    let attach (b : Bool) : NamedCall :=
      (none, .attach 0 (Table.single (.text "required") (.bool b)))
    let c : Compiler := ⟨((fresh 3 {}).after [attach false, attach true]).store none, true⟩
    let p := entryAt [] ∅ ("gone", gone)
    ∃ d, c.Compiles root none [] d ∧ c.Matches root none [] d p (c.fieldOf p) ∧
      (c.fieldOf p).required? = some (.bool true) ∧ c.Agrees ∅ gone (.bool true) := by
  intro gone root attach c p
  have compiled : c.Compiles root none [] _ := .schema {} rfl
  have fields := ((required_agrees c).1 root none [] _ compiled).2
  refine ⟨_, compiled, ?found, ?_⟩
  case found => exact .entry (i := 0) rfl rfl rfl
  obtain ⟨r, required, agrees⟩ := fields p (c.fieldOf p) (.entry (i := 0) rfl rfl rfl)
  obtain rfl : r = .bool true := agrees.kept _ rfl
  exact ⟨required, agrees⟩

end Compiler

end MapperSchema
