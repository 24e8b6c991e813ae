import MapperSchema.Proofs.Compiler.Compiled
import MapperSchema.Proofs.Compiler.Revaluing

/-! The compiled default of a field: the one that is given last, else the outermost one of its
node, else unset if the field has parts. No other default is seen. -/
namespace MapperSchema

/-- A document could change the value in place. -/
def Value.isMutable : Value → Bool
  | .list _ | .set _ | .mapping _ => true
  | _ => false

theorem Value.asDefault_eq (v : Value) :
    v.asDefault = if v.isMutable then .producer v else v := by
  cases v <;> rfl

theorem Node.isSome_outermostDefault? (n : Node) :
    n.outermostDefault?.isSome = n.crosses .default := by
  induction n with
  | wrap id modifier inner ih =>
    cases modifier <;> simp [outermostDefault?, crosses, Modifier.kind, ih]
  | _ => rfl

namespace Compiler

variable {c : Compiler}

theorem isPrimitive_typeOf (c : Compiler) (path : Path) (node : Node) :
    (c.typeOf path node).isPrimitive = node.unwrap.form.isLeaf := by
  cases base : node.unwrap.form with
  | object shape => rw [typeOf_object c path base]; rfl
  | array element => rw [typeOf_array c path base]; rfl
  | _ => rw [typeOf_leaf c path (by rw [base]; rfl)]; rfl

/-- The default of the field is the one that its node and what is given for it call for. -/
structure Resolves (c : Compiler) (overrides : Options) (node : Node) (f : Field) : Prop where
  given : ∀ v, c.lastGiven? overrides node "default" = some v → f.default? = some v
  wrapped : c.lastGiven? overrides node "default" = none → node.crosses .default →
    ∃ v, node.outermostDefault? = some v ∧
      f.default? = some (if v.isMutable then .producer v else v)
  unset : c.lastGiven? overrides node "default" = none → ¬node.crosses .default →
    node.unwrap.form.kind = .object ∨ node.unwrap.form.kind = .array → f.default? = some .unset
  absent : c.lastGiven? overrides node "default" = none → ¬node.crosses .default →
    node.unwrap.form.kind ≠ .object → node.unwrap.form.kind ≠ .array →
    f.default? = none ∧ f.default = .unset ∧ f.hasDefault = false

/-- Where no default is given the wrappers of the node decide, then its type. -/
theorem default?_fieldOf_of_free {p : Position}
    (free : c.lastGiven? p.overrides p.node "default" = none) : (c.fieldOf p).default? =
      (p.node.outermostDefault?.map Value.asDefault).or
        (if p.node.unwrap.form.isLeaf then none else some .unset) := by
  have given : (c.givenAt p).get? (.text "default") = none := by
    rw [givenAt, get?_givenOptions, free]
  rw [default?_fieldOf]
  unfold default?
  rw [given, p.node.default?_unwrap, isPrimitive_typeOf]
  cases p.node.outermostDefault? <;> rfl

theorem fieldOf_resolves (c : Compiler) (p : Position) :
    c.Resolves p.overrides p.node (c.fieldOf p) := by
  have uncrossed : ¬p.node.crosses .default → p.node.outermostDefault? = none := fun h => by
    rwa [← Option.not_isSome_iff_eq_none, p.node.isSome_outermostDefault?]
  constructor
  case given =>
    intro v given
    rw [default?_fieldOf]
    exact default?_of_given given _ _
  case wrapped =>
    intro free crossed
    rw [← p.node.isSome_outermostDefault?] at crossed
    obtain ⟨v, outermost⟩ := Option.isSome_iff_exists.1 crossed
    refine ⟨v, outermost, ?_⟩
    rw [default?_fieldOf_of_free free, outermost, ← v.asDefault_eq, Option.map_some, Option.some_or]
  case unset =>
    intro free h parts
    have inner : ¬p.node.unwrap.form.isLeaf := by
      rw [Form.isLeaf_iff]
      rintro ⟨object, array⟩
      exact parts.elim object array
    rw [default?_fieldOf_of_free free, uncrossed h, Option.map_none, Option.none_or, if_neg inner]
  case absent =>
    intro free h object array
    have leaf := p.node.unwrap.form.isLeaf_iff.2 ⟨object, array⟩
    have missing : (c.fieldOf p).default? = none := by
      rw [default?_fieldOf_of_free free, uncrossed h, Option.map_none, Option.none_or, if_pos leaf]
    rw [Field.default, Field.hasDefault, missing]
    exact ⟨rfl, rfl, rfl⟩

/-- In every definition each field has the default that its node and what is given for it call
for, and so has a field that is compiled by itself. Defaults that are not seen may have any value:
the compile is the same. -/
theorem default_resolved (c : Compiler) :
    (∀ root extra path d, c.Compiles root extra path d →
      (∀ f, d.Holds f → ∃ p, c.Matches root extra path d p f) ∧
        ∀ p f, c.Matches root extra path d p f → c.Resolves p.overrides p.node f) ∧
      (∀ node a name path j f, (c.field node a name path).outcome j = .ok f →
        c.Resolves (overridesFor a name) node f) ∧
      (∀ n m a name, Relation.ReflTransGen (c.Revalued (overridesFor a name)) n m →
        ∀ path, c.field n a name path = c.field m a name path) ∧
      (∀ root root' extra, Relation.ReflTransGen (c.RootRevalued extra) root root' →
        ∀ path, c.schema root extra path = c.schema root' extra path) ∧
      ∀ options a root root', SchemaOptions.read options = .ok a →
        Relation.ReflTransGen (c.RootRevalued (some a)) root root' →
          c.compile root options = c.compile root' options := by
  refine ⟨fun root extra path d h => ⟨fun f held => Matches.of_holds h.result_eq held, ?_⟩, ?_,
    fun n m a name => field_of_revalued, fun root root' extra => schema_of_revalued, ?_⟩
  · intro p f m
    obtain ⟨-, rfl⟩ := h.field_eq m
    exact c.fieldOf_resolves p
  · intro node a name path j f ok
    obtain ⟨-, rfl⟩ := field_eq_of_ok ok
    exact c.fieldOf_resolves (fieldAlone node a name path)
  · intro options a root root' valid revalued
    rw [compile_of_read valid, compile_of_read valid, compileUnder, compileUnder,
      schema_of_revalued revalued]

/-- Tags with one default inside another, and a state whose default is taken back by the options of
the compile. Neither the inner default nor that of the state is seen. -/
theorem default_resolved_tags :
    let c : Compiler := ⟨∅, true⟩
    let list : Node := .base 1 (.array (.base 0 (.scalar .string)))
    let tags (v : Value) : Node := list.wrapped [⟨3, .default (.list [])⟩, ⟨2, .default v⟩]
    let text : Node := .base 4 (.scalar .string)
    let state (v : Value) : Node := text.wrapped [⟨5, .default v⟩]
    let root (v w : Value) : Node := .base 6 (.object [("tags", tags v), ("state", state w)])
    let a : Annotation :=
      { typeOptions := Table.single "state" (Table.single "default" .unset) }
    let kept := entryAt [] a ("tags", tags .null)
    let cleared := entryAt [] a ("state", state (.text "new"))
    (SchemaOptions.typed a).read = .ok a ∧
      (∃ d, c.Compiles (root .null (.text "new")) (some a) [] d ∧
        c.Matches (root .null (.text "new")) (some a) [] d kept (c.fieldOf kept) ∧
        (c.fieldOf kept).default? = some (.producer (.list [])) ∧
        c.Matches (root .null (.text "new")) (some a) [] d cleared (c.fieldOf cleared) ∧
        (c.fieldOf cleared).default? = some .unset) ∧
      ∀ v w, c.compile (root .null (.text "new")) (.typed a) = c.compile (root v w) (.typed a) := by
  intro c list tags text state root a kept cleared
  obtain ⟨fields, -, -, -, revalued⟩ := default_resolved c
  have valid : (SchemaOptions.typed a).read = .ok a := rfl
  have compiled : c.Compiles (root .null (.text "new")) (some a) [] _ := .schema {} rfl
  have resolved := (fields _ _ _ _ compiled).2
  refine ⟨valid, ⟨_, compiled, ?first, ?_, ?second, ?_⟩, fun v w => ?_⟩
  case first => exact .entry (i := 0) rfl rfl rfl
  case second => exact .entry (i := 1) rfl rfl rfl
  · obtain ⟨v, outermost, value⟩ := (resolved _ _ (.entry (i := 0) rfl rfl rfl)).wrapped rfl rfl
    cases outermost
    exact value
  · exact (resolved _ _ (.entry (i := 1) rfl rfl rfl)).given _ rfl
  · apply revalued _ a _ _ valid
    have first : c.RootRevalued (some a) (root .null (.text "new")) (root v (.text "new")) :=
      .entry [] [] (.shadowed [⟨3, .default (.list [])⟩] ⟨_, List.mem_singleton_self _, rfl⟩)
    have second : c.RootRevalued (some a) (root v (.text "new")) (root v w) :=
      .entry [] [("tags", tags v)] (.given [] rfl)
    exact .tail (.single first) second

end Compiler

end MapperSchema
