import MapperSchema.Proofs.Annotation.Merging
import MapperSchema.Proofs.Compiler.Fields
import MapperSchema.Proofs.Compiler.Locality
import MapperSchema.Proofs.Compiler.Root
import MapperSchema.Proofs.Store.Calls

/-! Options given to a compile count as options attached to the root's base beforehand, but are
not attached. What is attached to the base is read for the root alone, because the base came after
all nodes inside it. -/
namespace MapperSchema

namespace Compiler

variable {c : Compiler} {root : Node} {extra : Option Annotation} {path : Path} {p : Position}

/-- Nodes at visited positions came before the root's base. -/
theorem Visited.madeBefore {bound : NodeId} (visited : c.Visited root extra path p)
    (made : root.MadeBefore bound) : p.node.MadeBefore root.unwrap.id := by
  obtain ⟨part, inside, within⟩ := visited.hasField.within
  exact .within within (made.unwrap.2 part inside)

/-- The compiler that finds an annotation attached to a node. -/
def attaching (c : Compiler) (id : NodeId) (a : Annotation) : Compiler :=
  { c with store := c.store.annotate id a }

/-- An annotation that is attached to a root's base is found at no visited position. -/
theorem Visited.alike_attaching {bound : NodeId} (visited : c.Visited root extra path p)
    (made : root.MadeBefore bound) (a : Annotation) :
    c.Alike (c.attaching root.unwrap.id a) p where
  bags layer mem := rfl
  attached _ := by
    have lt := (visited.madeBefore made).unwrap.1
    exact (c.store.annotationAt_annotate_ne a (Nat.ne_of_gt lt)).symm

theorem effective_attaching (c : Compiler) (id : NodeId) (a : Annotation) :
    (c.attaching id a).effective id (some ∅) = c.effective id (some a) := by
  have h := c.store.annotationAt_annotate_self id a
  unfold effective attaching
  rw [h]
  rfl

/-- Under its own annotation a root compiles as it does once that is attached to its base. -/
theorem schema_attaching {bound : NodeId} (made : root.MadeBefore bound) (a : Annotation) :
    c.schema root (some a) path = (c.attaching root.unwrap.id a).schema root (some ∅) path :=
  schema_congr rfl (c.effective_attaching root.unwrap.id a).symm fun _ visited =>
    visited.alike_attaching made a

theorem compile_attaching {bound : NodeId} {options : SchemaOptions} {a : Annotation}
    (made : root.MadeBefore bound) (valid : options.read = .ok a) :
    c.compile root options = (c.attaching root.unwrap.id a).compile root (.untyped .null) := by
  have none : (SchemaOptions.untyped .null).read = .ok ∅ := rfl
  rw [compile_of_read valid, compile_of_read none]
  unfold compileUnder
  rw [schema_attaching made]

end Compiler

namespace Authoring

theorem outcome_traced {α : Type} (run : Traced α) (s : Session) :
    outcome (traced run) s =
      (run.outcome s.journal, { s with journal := run.journal s.journal }) := by
  unfold outcome traced Traced.outcome Traced.journal
  cases run s.journal <;> rfl

theorem outcome_compile (r : Option String) (strict : Bool) (node : Node) (options : SchemaOptions)
    (s : Session) :
    let run := (⟨s.store r, strict⟩ : Compiler).compile node options
    outcome (compile r strict node options) s =
      (run.outcome s.journal, { s with journal := run.journal s.journal }) :=
  outcome_traced _ s

/-- Attaches to a store of the session, then compiles without options. -/
def attachThenCompile (r : Option String) (strict : Bool) (node : Node) (a : Annotation) :
    Authoring Schema := do
  updateStore r (·.annotate node.unwrap.id a)
  compile r strict node (.untyped .null)

theorem outcome_attachThenCompile (r : Option String) (strict : Bool) (node : Node) (a : Annotation)
    (s : Session) :
    let run := ((⟨s.store r, strict⟩ : Compiler).attaching node.unwrap.id a).compile node
      (.untyped .null)
    let s' := s.putStore ((s.store r).annotate node.unwrap.id a) r
    outcome (attachThenCompile r strict node a) s =
      (run.outcome s.journal, { s' with journal := run.journal s.journal }) := by
  intro run s'
  have store : s'.store r = (s.store r).annotate node.unwrap.id a := by simp [s']
  have journal : s'.journal = s.journal := by cases r <;> rfl
  have h := outcome_compile r strict node (.untyped .null) s'
  rw [store, journal] at h
  exact h

/-- Options given to a compile give the definition or the fault, and the journal, that they give
when attached to the base beforehand. Given to the compile they leave the stores as they are. -/
theorem compile_eq_attachThenCompile (s : Session) (r : Option String) (strict : Bool) {node : Node}
    {options : SchemaOptions} {a : Annotation} (made : node.MadeBefore s.nextId)
    (valid : options.read = .ok a) :
    let given := outcome (compile r strict node options) s
    let attached := outcome (attachThenCompile r strict node a) s
    given.1 = attached.1 ∧ given.2.journal = attached.2.journal ∧
      given.2 = { s with journal := given.2.journal } := by
  intro given attached
  have same := Compiler.compile_attaching (c := ⟨s.store r, strict⟩) made valid
  have hg : given = _ := outcome_compile r strict node options s
  have ha : attached = _ := outcome_attachThenCompile r strict node a s
  rw [← same] at ha
  rw [hg, ha]
  exact ⟨rfl, rfl, rfl⟩

/-- A schema that makes its one field an index and strips other keys, although it was to refuse
them. -/
theorem compile_eq_attachThenCompile_title :
    let node : Node := .wrap 2 .optional (.base 1 (.object [("title", .base 0 (.scalar .string))]))
    let a : Annotation :=
      { typeOptions := Table.single "title" (Table.single "index" (.bool true)),
        unknownKeys := some .strip }
    let s : Session :=
      { nextId := 3, shared := (∅ : Store).annotate 1 { unknownKeys := some .throw } }
    (node.MadeBefore s.nextId ∧ (SchemaOptions.typed a).read = .ok a) ∧
      (outcome (compile none true node (.typed a)) s).1 =
        (outcome (attachThenCompile none true node a) s).1 ∧
      (outcome (compile none true node (.typed a)) s).2.shared = s.shared := by
  intro node a s
  have made : node.MadeBefore s.nextId := by
    refine .wrap (by decide) (.base (by decide) ?_)
    intro entry mem
    rw [List.mem_singleton.1 mem]
    exact .base (by decide) fun _ h => by cases h
  have valid : (SchemaOptions.typed a).read = .ok a := rfl
  obtain ⟨same, -, kept⟩ := compile_eq_attachThenCompile s none true made valid
  have shared := congrArg Session.shared kept
  exact ⟨⟨made, valid⟩, same, shared⟩

end Authoring

end MapperSchema
