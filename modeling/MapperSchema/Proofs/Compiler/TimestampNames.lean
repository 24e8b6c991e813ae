import MapperSchema.Proofs.Annotation.Finalisation
import MapperSchema.Proofs.Authoring.Extension
import MapperSchema.Proofs.Compiler.Compiled
import MapperSchema.Proofs.Compiler.Composition

/-! Timestamps that share a name. Names that are given for the two timestamps, or that they have by
default, may come to the same; a compile takes them as they are, at the root and in every object
found in it, and is not refused for it. -/
namespace MapperSchema

namespace Annotation

/-- The name that one timestamp comes to. -/
inductive Named (own : String) : Option Value → String → Prop
  | missing : Named own none own
  | on : Named own (some (.bool true)) own
  | given {name : String} : Named own (some (.text name)) name

theorem named_iff {own name : String} {given : Option Value} :
    resolvedTimestamp own given = .text name ↔ Named own given name := by
  constructor
  · intro read
    have resolved := resolves own given
    rw [read] at resolved
    cases resolved with
    | missing => exact .missing
    | on => exact .on
    | other => exact .given
  · intro named
    cases named <;> rfl

/-- Both timestamps come to this name. -/
def Clashes (a : Annotation) (name : String) : Prop :=
  ∃ entries, a.schemaOptions.get? "timestamps" = some (.mapping entries) ∧
    Named "createdAt" (Table.last? (.text "createdAt") entries) name ∧
    Named "updatedAt" (Table.last? (.text "updatedAt") entries) name

end Annotation

/-- The mapper is told this name for both timestamps. -/
def SharesName (options : Options) (name : String) : Prop :=
  ∃ entries, options.get? "timestamps" = some (.mapping entries) ∧
    Table.last? (.text "createdAt") entries = some (.text name) ∧
    Table.last? (.text "updatedAt") entries = some (.text name)

theorem Annotation.sharesName_iff_clashes (a : Annotation) (name : String) :
    SharesName a.finalOptions name ↔ a.Clashes name := by
  have told : a.finalOptions.get? "timestamps" =
      (withTimestamps a.schemaOptions).get? "timestamps" := get?_withStrict_of_ne _ (by decide)
  unfold SharesName Clashes
  rw [told]
  by_cases mapping : ∃ entries, a.schemaOptions.get? "timestamps" = some (.mapping entries)
  · obtain ⟨entries, given⟩ := mapping
    rw [get?_withTimestamps_of_mapping given, given, timestampsOption, Table.get?_ofList,
      Table.get?_ofList]
    simp only [Option.some.injEq, Value.mapping.injEq, exists_eq_left', ← named_iff]
    simp [Table.last?, List.findRev?]
  · rw [withTimestamps_of_other (not_exists.1 mapping)]
    constructor <;> rintro ⟨entries, given, -⟩ <;> exact absurd ⟨entries, given⟩ mapping

namespace Compiler

/-- The compilers are equally strict and find the same options for all fields. The options of
schemas may be different. -/
structure SameForFields (c d : Compiler) : Prop where
  strict : c.strictRequired = d.strictRequired
  bags : ∀ id, c.store.bagAt id = d.store.bagAt id
  overrides : ∀ id name, (c.store.annotationAt id).overrides name =
    (d.store.annotationAt id).overrides name

namespace SameForFields

variable {c d : Compiler} {root : Node} {extra extra' : Option Annotation} {path : Path}
  {shape : List (String × Node)} {a b : Annotation}

theorem schemaVisits_eq (overrides : ∀ name, a.overrides name = b.overrides name)
    (inside : ∀ entry ∈ shape, c.visits (some path) (path ++ [entry.1]) entry.2 =
      d.visits (some path) (path ++ [entry.1]) entry.2) :
    c.schemaVisits path a shape = d.schemaVisits path b shape := by
  rw [schemaVisits, schemaVisits, entryVisits_eq_flatMap, entryVisits_eq_flatMap]
  congr 1
  refine List.flatMap_congr fun entry mem => ?_
  rw [fieldVisits, fieldVisits, entryAt, entryAt, overrides, inside entry mem]

theorem visits_eq (h : c.SameForFields d) (home : Option Path) (path : Path) (node : Node) :
    c.visits home path node = d.visits home path node := by
  induction node using Node.inductUnwrapped generalizing home path with
  | object node shape base ih =>
    rw [visits_object c home path base, visits_object d home path base]
    exact schemaVisits_eq (h.overrides _) fun entry mem => ih entry mem _ _
  | array node element base ih =>
    rw [visits_array c home path base, visits_array d home path base, fieldVisits, fieldVisits]
    exact congrArg (· ++ _) (ih home _)
  | leaf node leaf => rw [visits_leaf c home path leaf, visits_leaf d home path leaf]

/-- What is refused is refused for the options of a field, so both compile the root or neither. -/
theorem result_eq_ok (h : c.SameForFields d)
    (overrides : ∀ name, (c.effective root.unwrap.id extra).overrides name =
      (d.effective root.unwrap.id extra').overrides name) {schema : Schema}
    (ok : c.result root extra path = .ok schema) :
    ∃ schema', d.result root extra' path = .ok schema' := by
  obtain ⟨shape, base, good, -⟩ := result_eq_ok_iff.1 ok
  have same : c.rootVisits root extra path = d.rootVisits root extra' path := by
    rw [rootVisits, rootVisits, base]
    exact schemaVisits_eq overrides fun entry _ => h.visits_eq _ _ entry.2
  refine ⟨_, result_eq_ok_iff.2 ⟨shape, base, fun p visited => ?_, rfl⟩⟩
  rw [← mem_positions_rootVisits_iff, ← same, mem_positions_rootVisits_iff] at visited
  have fault := fault?_of_given h.strict (p := p) (givenAt_congr fun layer _ => h.bags layer.id)
  rw [← fault?_eq_none_iff, ← fault, fault?_eq_none_iff]
  exact good p visited

end SameForFields

variable {c : Compiler} {root : Node} {extra : Option Annotation} {path : Path} {d : Schema}

/-- A document has the options of the object that it is compiled from. -/
theorem options_of_document {node : Node} {schema : Schema}
    (type : c.typeOf path node = .document schema) :
    schema.options = (c.store.annotationAt node.unwrap.id).finalOptions := by
  cases base : node.unwrap.form with
  | object shape =>
    rw [typeOf_object c path base] at type
    cases type
    rfl
  | array element =>
    rw [typeOf_array c path base] at type
    cases type
  | _ =>
    rw [typeOf_leaf c path (by rw [base]; rfl)] at type
    cases type

/-- Nothing keeps the timestamps from sharing a name. In whatever compiles, the root and every
object in it have one name for both if the names that are given for it, with those that the
timestamps have by default, come to that; and the same root compiles with any other schema options,
so that none of them is refused for its names. -/
theorem timestamp_names_unchecked (compiled : c.Compiles root extra path d) :
    (∀ name, SharesName d.options name ↔ (c.effective root.unwrap.id extra).Clashes name) ∧
    (∀ q f schema, d.below? q = some f → f.type = .document schema →
      ∃ node, root.below? q = some node ∧ ∀ name, SharesName schema.options name ↔
        (c.store.annotationAt node.unwrap.id).Clashes name) ∧
    ∀ (other : Compiler) (extra' : Option Annotation), c.SameForFields other →
      (∀ name, (extra.getD ∅).overrides name = (extra'.getD ∅).overrides name) →
      ∃ d', other.Compiles root extra' path d' := by
  have ok := compiled.result_eq
  refine ⟨?root, ?inside, ?others⟩
  case root =>
    obtain ⟨shape, -, -, rfl⟩ := result_eq_ok_iff.1 ok
    exact (c.effective root.unwrap.id extra).sharesName_iff_clashes
  case inside =>
    intro q f schema there type
    have ne : q ≠ [] := by
      rintro rfl
      cases there
    have found := rel_below? ok ne
    rw [there] at found
    cases within : root.below? q with
    | none =>
      rw [within] at found
      cases found
    | some node =>
      rw [within] at found
      cases found with
      | some found =>
        obtain ⟨p, -, -, rfl, rfl⟩ := found
        refine ⟨p.node, rfl, fun name => ?_⟩
        rw [options_of_document type]
        exact Annotation.sharesName_iff_clashes _ name
  case others =>
    intro other extra' same overrides
    have effective : ∀ name, (c.effective root.unwrap.id extra).overrides name =
        (other.effective root.unwrap.id extra').overrides name := by
      intro name
      rw [Compiler.effective, Compiler.effective, Annotation.overrides_merge,
        Annotation.overrides_merge, same.overrides, overrides]
    obtain ⟨d', ok'⟩ := same.result_eq_ok effective ok
    exact ⟨d', .schema {} (by rw [schema_outcome, ok'])⟩

/-- An author of a book, with one name for both timestamps of the author. -/
theorem timestamp_names_unchecked_author :
    let author : Node := .base 0 (.object [])
    let root : Node := .base 1 (.object [("author", author)])
    let same : Value := .mapping [(.text "createdAt", .text "at"), (.text "updatedAt", .text "at")]
    let a : Annotation := { schemaOptions := .single "timestamps" same }
    let c : Compiler := ⟨(∅ : Store).annotate 0 a, true⟩
    ∃ d schema, c.Compiles root none [] d ∧
      (d.below? ["author"]).map (·.type) = some (.document schema) ∧
      SharesName schema.options "at" := by
  intro author root same a c
  have compiled : c.Compiles root none [] _ := .schema {} rfl
  obtain ⟨node, found, shares⟩ :=
    (timestamp_names_unchecked compiled).2.1 ["author"] _ _ rfl rfl
  cases found
  have clashes : a.Clashes "at" := ⟨_, rfl, .given, .given⟩
  exact ⟨_, _, compiled, rfl, (shares "at").2 clashes⟩

end Compiler

namespace Authoring

/-- A name for the first timestamp that the second has by default: the object compiles, with this
name for both. -/
theorem default_name_shared :
    let named : Options := .single "schema_options"
      (.mapping [(.text "timestamps", .mapping [(.text "createdAt", .text "updatedAt")])])
    ∃ node s d, outcome (annotateSchema (.base 0 (.object [])) (.untyped .null) named)
        { nextId := 1 } = (.ok node, s) ∧
      (outcome (compile none false node (.untyped .null)) s).1 = .ok d ∧
      SharesName d.options "updatedAt" := by
  intro named
  exact ⟨_, _, _, rfl, rfl, _, rfl, rfl, rfl⟩

end Authoring

end MapperSchema
