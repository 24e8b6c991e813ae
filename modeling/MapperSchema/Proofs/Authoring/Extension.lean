import MapperSchema.Proofs.Authoring.Reachable
import MapperSchema.Proofs.Compiler.Composition
import MapperSchema.Proofs.Compiler.Fieldwise
import MapperSchema.Proofs.Compiler.Influence

/-! Extended objects. An extension has the entries of both tables, under the annotation that the
object has at that moment; nothing else about it is read by a compile. -/
namespace MapperSchema

/-- An object node with the entries of a table. -/
def Node.ofTable (id : NodeId) (shape : Table String Node) : Node := .base id (.object shape.rows)

namespace Session

/-- The session once the object with this identity has been extended. -/
def extending (s : Session) (id : NodeId) : Session :=
  { s with nextId := s.nextId + 1, shared := s.shared.carryOver id s.nextId }

variable {s : Session} {id other : NodeId}

theorem bagAt_extending (r : Option String) :
    ((s.extending id).store r).bagAt other = (s.store r).bagAt other := by
  cases r with
  | none => exact Store.bagAt_carryOver s.shared id s.nextId other
  | some name => rfl

theorem annotationAt_extending (r : Option String) (there : other < s.nextId) :
    ((s.extending id).store r).annotationAt other = (s.store r).annotationAt other := by
  cases r with
  | none =>
    exact Store.Call.annotationAt_apply (.carryOver id s.nextId) (Nat.ne_of_gt there)
  | some name => rfl

/-- The extension has the annotation that the object has, and as it is new nothing else. -/
theorem annotationAt_extending_self (attached : s.Attached) :
    ((s.extending id).store none).annotationAt s.nextId = (s.store none).annotationAt id := by
  have none_yet : s.shared.annotationAt s.nextId = ∅ := (attached none).annotationAt (Nat.le_refl _)
  refine (s.shared.annotationAt_carryOver_self id s.nextId).trans ?_
  rw [none_yet, Annotation.empty_merge]
  rfl

theorem Reachable.extending (h : s.Reachable) (id : NodeId) : (s.extending id).Reachable :=
  h.trans (.tail (.single (.identity s))
    (.call _ (none, .carryOver id s.nextId) (Nat.lt_succ_self s.nextId)))

end Session

namespace Authoring

open Session

variable {s : Session} {id : NodeId} {node : Node} {shape more further : Table String Node}

theorem extend_run (s : Session) (id : NodeId) (shape more : Table String Node) :
    extend (.ofTable id shape) more.rows s =
      .ok (.ofTable s.nextId (shape.merge more)) (s.extending id) := by
  have rows : Table.ofList (shape.rows ++ more.rows) = shape.merge more := by
    rw [← Table.ofList_merge, Table.ofList_rows]
  rw [← rows]
  rfl

/-- What was there before compiles as it did: no identity in it is the new one. -/
theorem schema_extending (made : node.MadeBefore s.nextId) (r : Option String) (strict : Bool)
    (extra : Option Annotation) (path : Path) :
    (⟨(s.extending id).store r, strict⟩ : Compiler).schema node extra path =
      (⟨s.store r, strict⟩ : Compiler).schema node extra path := by
  refine Compiler.schema_congr_of_fields rfl (fun _ _ _ _ => bagAt_extending r) ?_
  intro n visited _
  have within : n.Within node := by
    rcases visited with rfl | hasField
    · exact .self
    · exact hasField.within_root
  exact annotationAt_extending r (Node.MadeBefore.within within made).unwrap.1

/-- Objects with the same entries and the same annotation compile alike. -/
theorem schema_ofTable {c : Compiler} {id other : NodeId}
    (same : c.store.annotationAt id = c.store.annotationAt other) (extra : Option Annotation)
    (path : Path) : c.schema (.ofTable id shape) extra path =
      c.schema (.ofTable other shape) extra path := by
  have effective : c.effective id extra = c.effective other extra := by
    unfold Compiler.effective
    rw [same]
  have spelled : ∀ id, c.schema (.ofTable id shape) extra path = Compiler.assemble path
      (c.effective id extra) (c.entries path (c.effective id extra) shape.rows) := fun _ => rfl
  rw [spelled, spelled, effective]

theorem outcome_compileSchema (r : Option String) (strict : Bool) (node : Node)
    (extra : Option Annotation) (path : Path) (s : Session) :
    let run := (⟨s.store r, strict⟩ : Compiler).schema node extra path
    outcome (compileSchema r strict node extra path) s =
      (run.outcome s.journal, { s with journal := run.journal s.journal }) :=
  outcome_traced _ s

/-- The entry of an object, compiled by itself under the annotation of the object. -/
def entryOutcome (s : Session) (strict : Bool) (path : Path) (a : Annotation)
    (entry : String × Node) : Except Fault (String × Field) :=
  let run := compileField none strict entry.2 (some a) (some entry.1) (path ++ [entry.1])
  (outcome run s).1.map (entry.1, ·)

theorem entryOutcome_eq (s : Session) (strict : Bool) (path : Path) (a : Annotation)
    (entry : String × Node) : entryOutcome s strict path a entry =
      (⟨s.store none, strict⟩ : Compiler).entryAlone path a s.journal entry := by
  have run := outcome_traced ((⟨s.store none, strict⟩ : Compiler).field entry.2 (some a)
    (some entry.1) (path ++ [entry.1])) s
  exact congrArg (fun out => out.1.map (entry.1, ·)) run

theorem bind_of_ok {α β : Type} {run : Authoring α} {s s' : Session} {a : α}
    (h : run s = .ok a s') (next : α → Authoring β) : (run >>= next) s = next a s' := by
  change EStateM.bind run next s = _
  rw [EStateM.bind, h]

/-- Extends an object by two tables one after the other, and by both at once. -/
def extendBothWays (node : Node) (more further : Table String Node) : Authoring (Node × Node) := do
  let first ← extend node more.rows
  let twice ← extend first further.rows
  let once ← extend node (more.merge further).rows
  return (twice, once)

theorem extendBothWays_run (s : Session) (id : NodeId) (shape more further : Table String Node) :
    extendBothWays (.ofTable id shape) more further s =
      .ok (.ofTable (s.nextId + 1) ((shape.merge more).merge further),
          .ofTable (s.nextId + 2) ((shape.merge more).merge further))
        (((s.extending id).extending s.nextId).extending id) := by
  have first := extend_run s id shape more
  have twice := extend_run (s.extending id) s.nextId (shape.merge more) further
  have once := extend_run ((s.extending id).extending s.nextId) id shape (more.merge further)
  rw [← Table.merge_assoc] at once
  exact (bind_of_ok first _).trans ((bind_of_ok twice _).trans (bind_of_ok once _))

/-- Both ways lead to objects with the same entries and the same annotation. -/
theorem annotationAt_bothWays (reachable : s.Reachable) (there : id < s.nextId) :
    let s' := ((s.extending id).extending s.nextId).extending id
    (s'.store none).annotationAt (s.nextId + 1) = (s'.store none).annotationAt (s.nextId + 2) := by
  intro s'
  let s₁ := s.extending id
  let s₂ := s₁.extending s.nextId
  have reachable₁ : s₁.Reachable := reachable.extending id
  have reachable₂ : s₂.Reachable := reachable₁.extending s.nextId
  have twice : (s'.store none).annotationAt (s.nextId + 1) = (s.store none).annotationAt id := calc
    _ = (s₂.store none).annotationAt s₁.nextId := annotationAt_extending none (Nat.lt_succ_self _)
    _ = (s₁.store none).annotationAt s.nextId := annotationAt_extending_self reachable₁.attached
    _ = (s.store none).annotationAt id := annotationAt_extending_self reachable.attached
  have once : (s'.store none).annotationAt (s.nextId + 2) = (s.store none).annotationAt id := calc
    _ = (s₂.store none).annotationAt id := annotationAt_extending_self reachable₂.attached
    _ = (s₁.store none).annotationAt id := annotationAt_extending none (Nat.lt_succ_of_lt there)
    _ = (s.store none).annotationAt id := annotationAt_extending none there
  rw [twice, once]

theorem extendBothWays_alike (reachable : s.Reachable) (there : id < s.nextId)
    (shape more further : Table String Node) : ∃ twice once s'',
      outcome (extendBothWays (.ofTable id shape) more further) s = (.ok (twice, once), s'') ∧
        (∀ strict extra path, outcome (compileSchema none strict twice extra path) s'' =
          outcome (compileSchema none strict once extra path) s'') ∧
        ∀ strict options, outcome (compile none strict twice options) s'' =
          outcome (compile none strict once options) s'' := by
  let whole := (shape.merge more).merge further
  let s'' := ((s.extending id).extending s.nextId).extending id
  have run : outcome (extendBothWays (.ofTable id shape) more further) s =
      (.ok (.ofTable (s.nextId + 1) whole, .ofTable (s.nextId + 2) whole), s'') := by
    rw [outcome, extendBothWays_run]
  have alike : ∀ strict extra path, let c : Compiler := ⟨s''.store none, strict⟩
      c.schema (.ofTable (s.nextId + 1) whole) extra path =
        c.schema (.ofTable (s.nextId + 2) whole) extra path := by
    intro strict extra path c
    have same : c.store.annotationAt (s.nextId + 1) = c.store.annotationAt (s.nextId + 2) :=
      annotationAt_bothWays reachable there
    exact schema_ofTable same extra path
  refine ⟨_, _, s'', run, ?_, ?_⟩
  · intro strict extra path
    rw [outcome_compileSchema, outcome_compileSchema, alike]
  · intro strict options
    rw [outcome_compile, outcome_compile,
      Compiler.compile_congr options fun a => alike strict (some a) []]

/-- What an object and its extension by a table compile to under an annotation: the extension to
the names of the object, then the others of the table, each with the field that its entry compiles
to by itself, where the entry of the table stands for a name in both. If both compile, they differ
in the fields of the table only. -/
structure Extends (s : Session) (strict : Bool) (path : Path) (a : Annotation)
    (shape more : Table String Node) (ran ran' : Except Fault Schema) : Prop where
  fieldwise : ran' =
    (((shape.rows.map fun row => (row.1, (more.get? row.1).getD row.2)) ++
        more.rows.filter fun row => !shape.contains row.1).mapM (entryOutcome s strict path a)).map
      fun fields => ⟨path, fields, a.finalOptions, a.unknownKeys⟩
  names : ∀ d', ran' = .ok d' →
    d'.fields.map (·.1) = shape.keys ++ more.keys.filter fun name => !shape.contains name
  fields : ∀ d d', ran = .ok d → ran' = .ok d' →
    ∀ name, more.get? name = none → d.field? name = d'.field? name
  options : ∀ d d', ran = .ok d → ran' = .ok d' → d.options = d'.options
  unknownKeys : ∀ d d', ran = .ok d → ran' = .ok d' → d.unknownKeys = d'.unknownKeys

theorem compiled_ofTable {r : Option String} {strict : Bool} {extra : Option Annotation}
    {path : Path} {d : Schema}
    (ok : (outcome (compileSchema r strict (.ofTable id shape) extra path) s).1 = .ok d) :
    let c : Compiler := ⟨s.store r, strict⟩
    d = c.schemaOf path (c.effective id extra) shape.rows := by
  intro c
  have run := congrArg Prod.fst (outcome_compileSchema r strict (.ofTable id shape) extra path s)
  have ended := c.schema_outcome (.ofTable id shape) extra path s.journal
  have ok : c.result (.ofTable id shape) extra path = .ok d :=
    ended.symm.trans (run.symm.trans ok)
  obtain ⟨rows, base, -, eq⟩ := Compiler.result_eq_ok_iff.1 ok
  cases base
  exact eq

theorem field?_schemaOf (c : Compiler) (path : Path) (a : Annotation) (name : String) :
    (c.schemaOf path a shape.rows).field? name =
      (shape.get? name).map fun node => c.fieldOf (Compiler.entryAt path a (name, node)) := by
  rw [Schema.field?, Compiler.schemaOf, Compiler.lookup_fieldsOf, Table.lookup_rows]

theorem extends_extending (reachable : s.Reachable) (there : id < s.nextId)
    (shape more : Table String Node) (strict : Bool) (extra : Option Annotation) (path : Path) :
    let s' := s.extending id
    Extends s' strict path (((s.store none).annotationAt id).merge (extra.getD ∅)) shape more
      (outcome (compileSchema none strict (.ofTable id shape) extra path) s').1
      (outcome (compileSchema none strict (.ofTable s.nextId (shape.merge more)) extra path) s').1
    := by
  intro s'
  let c : Compiler := ⟨s'.store none, strict⟩
  let a := ((s.store none).annotationAt id).merge (extra.getD ∅)
  have own : c.effective id extra = a := by
    rw [Compiler.effective, annotationAt_extending none there]
  have copied : c.effective s.nextId extra = a := by
    rw [Compiler.effective, annotationAt_extending_self reachable.attached]
  constructor
  case fieldwise =>
    have entries : entryOutcome s' strict path a = c.entryAlone path a s'.journal :=
      funext (entryOutcome_eq s' strict path a)
    have base : (Node.ofTable s.nextId (shape.merge more)).unwrap.form =
        .object (shape.merge more).rows := rfl
    rw [outcome_compileSchema, entries, ← Table.rows_merge]
    exact c.schema_outcome_eq_mapM base copied path s'.journal s'.journal
  case names =>
    intro d' ok'
    rw [compiled_ofTable ok', Compiler.schemaOf, Compiler.names_fieldsOf]
    exact Table.keys_merge shape more
  case fields =>
    intro d d' ok ok' name kept
    rw [compiled_ofTable ok, compiled_ofTable ok', own, copied, field?_schemaOf, field?_schemaOf,
      Table.get?_merge, kept, Option.none_or]
  case options =>
    intro d d' ok ok'
    rw [compiled_ofTable ok, compiled_ofTable ok', own, copied]
    rfl
  case unknownKeys =>
    intro d d' ok ok'
    rw [compiled_ofTable ok, compiled_ofTable ok', own, copied]
    rfl

/-- As a document a root compiles as it does at the top. -/
theorem outcome_compile_of_read {options : SchemaOptions} {a : Annotation}
    (valid : options.read = .ok a) (r : Option String) (strict : Bool) (node : Node) (s : Session) :
    (outcome (compile r strict node options) s).1 =
      (outcome (compileSchema r strict node (some a) []) s).1 := by
  rw [outcome_compile, outcome_compileSchema]
  exact (Compiler.compile_outcome valid _ node s.journal).trans
    (Compiler.schema_outcome _ node (some a) [] s.journal).symm

/-- Extending an object by a table. The extension compiles as its entries do by themselves, under
the annotation that the object has. It makes no difference whether two tables are added one by one
or together, and nothing that was there before compiles otherwise. -/
theorem extension_commutes (reachable : s.Reachable)
    (made : (Node.ofTable id shape).MadeBefore s.nextId) (more : Table String Node) :
    let node := Node.ofTable id shape
    let attached := (s.store none).annotationAt id
    ∃ extended s', outcome (extend node more.rows) s = (.ok extended, s') ∧
      (∀ strict extra path, Extends s' strict path (attached.merge (extra.getD ∅)) shape more
          (outcome (compileSchema none strict node extra path) s').1
          (outcome (compileSchema none strict extended extra path) s').1) ∧
      (∀ strict options a, options.read = .ok a →
        Extends s' strict [] (attached.merge a) shape more
          (outcome (compile none strict node options) s').1
          (outcome (compile none strict extended options) s').1) ∧
      (∀ further, ∃ twice once s'',
        outcome (extendBothWays node more further) s = (.ok (twice, once), s'') ∧
          (∀ strict extra path, outcome (compileSchema none strict twice extra path) s'' =
            outcome (compileSchema none strict once extra path) s'') ∧
          ∀ strict options, outcome (compile none strict twice options) s'' =
            outcome (compile none strict once options) s'') ∧
      ∀ r strict (old : Node), old.MadeBefore s.nextId →
        (∀ extra path, (outcome (compileSchema r strict old extra path) s').1 =
          (outcome (compileSchema r strict old extra path) s).1) ∧
        ∀ options, (outcome (compile r strict old options) s').1 =
          (outcome (compile r strict old options) s).1 := by
  intro node attached
  have there : id < s.nextId := made.unwrap.1
  have compiles := extends_extending reachable there shape more
  refine ⟨.ofTable s.nextId (shape.merge more), s.extending id, ?run, compiles, ?documents,
    extendBothWays_alike reachable there shape more, ?old⟩
  case run => rw [outcome, extend_run]
  case documents =>
    intro strict options a valid
    rw [outcome_compile_of_read valid, outcome_compile_of_read valid]
    exact compiles strict (some a) []
  case old =>
    intro r strict old made
    constructor
    · intro extra path
      rw [outcome_compileSchema, outcome_compileSchema, schema_extending made]
      rfl
    · intro options
      rw [outcome_compile, outcome_compile,
        Compiler.compile_congr options fun a => schema_extending made r strict (some a) []]
      rfl

/-- A book with strict keys that gets other pages and tags. The title stays as it was. -/
theorem extension_commutes_book :
    let title : Node := .base 0 (.scalar .string)
    let pages : Node := .base 1 (.scalar .number)
    let shape : Table String Node := Table.ofList [("title", title), ("pages", pages)]
    let more : Table String Node :=
      Table.ofList [("tags", .base 4 (.array title)), ("pages", .wrap 3 .optional pages)]
    let s : Session :=
      { nextId := 5, shared := (∅ : Store).annotate 2 { unknownKeys := some .throw } }
    let node := Node.ofTable 2 shape
    (s.Reachable ∧ node.MadeBefore s.nextId) ∧
      ∃ extended s', outcome (extend node more.rows) s = (.ok extended, s') ∧
        ∃ d d', (outcome (compile none true node (.untyped .null)) s').1 = .ok d ∧
          (outcome (compile none true extended (.untyped .null)) s').1 = .ok d' ∧
          d'.fields.map (·.1) = ["title", "pages", "tags"] ∧ d.field? "title" = d'.field? "title" ∧
          d.unknownKeys = d'.unknownKeys := by
  intro title pages shape more s node
  have there : 2 < s.nextId := by decide
  have reachable : s.Reachable :=
    ⟨5, {}, .single (.call _ (none, .annotate 2 { unknownKeys := some .throw }) there)⟩
  have made : node.MadeBefore s.nextId := by
    refine .base (by decide) fun part mem => ?_
    rcases List.mem_cons.1 mem with rfl | mem
    · exact .base (by decide) nofun
    · rw [List.mem_singleton.1 mem]
      exact .base (by decide) nofun
  obtain ⟨extended, s', run, -, documents, -⟩ := extension_commutes reachable made more
  have result : (Except.ok extended, s') =
      (.ok (Node.ofTable 5 (shape.merge more)), s.extending 2) := run.symm.trans rfl
  cases result
  have compiled := documents true (.untyped .null) ∅ rfl
  refine ⟨⟨reachable, made⟩, _, _, run, _, _, rfl, rfl, ?_, ?_, ?_⟩
  · exact compiled.names _ rfl
  · exact compiled.fields _ _ rfl rfl "title" rfl
  · exact compiled.unknownKeys _ _ rfl rfl

end Authoring

end MapperSchema
