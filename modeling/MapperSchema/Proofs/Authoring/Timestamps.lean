import MapperSchema.Proofs.Annotation.Finalisation
import MapperSchema.Proofs.Authoring.Annotating
import MapperSchema.Proofs.Authoring.Extension
import MapperSchema.Proofs.Compiler.FieldOptions

/-! Generated timestamps. What the mapper is told about its timestamps and the two fields that are
declared for them keep agreeing, in whatever way the object is extended and annotated further. -/
namespace MapperSchema

/-- The names of the two timestamps, each with the flags that its field is marked with. -/
inductive Stamped (created updated : Option String) : String → List String → Prop
  | created {name} (given : created = some name) :
    Stamped created updated name ["required", "index", "immutable"]
  | updated {name} (given : updated = some name) :
    Stamped created updated name ["required", "index"]

variable {created updated : Option String}

/-- What the mapper is told: the name of each timestamp, or that there is none. -/
def stampNames (created updated : Option String) : Value :=
  .mapping [(.text "createdAt", Authoring.nameOrFalse created),
    (.text "updatedAt", Authoring.nameOrFalse updated)]

namespace Annotation

variable {a b : Annotation}

/-- The annotation says nothing about the timestamps. -/
structure Spares (a : Annotation) (created updated : Option String) : Prop where
  timestamps : a.schemaOptions.get? "timestamps" = none
  overrides : ∀ name flags, Stamped created updated name flags → a.overrides name = ∅

/-- The annotation has the names of the timestamps, and no overrides for their fields. -/
structure Stamps (a : Annotation) (created updated : Option String) : Prop where
  timestamps : a.schemaOptions.get? "timestamps" = some (stampNames created updated)
  overrides : ∀ name flags, Stamped created updated name flags → a.overrides name = ∅

theorem Stamps.merge (h : a.Stamps created updated) (spares : b.Spares created updated) :
    (a.merge b).Stamps created updated where
  timestamps := by
    rw [(merge_combines a b).schemaOption, spares.timestamps, h.timestamps, Option.none_or]
  overrides name flags stamped := by
    rw [overrides_merge, h.overrides name flags stamped, spares.overrides name flags stamped,
      Table.merge_empty]

/-- A name that is given stands for itself, also if it is the name that the other timestamp has by
default. -/
theorem Stamps.finalOptions (h : a.Stamps created updated) :
    a.finalOptions.get? "timestamps" = some (stampNames created updated) := by
  unfold Annotation.finalOptions
  rw [get?_withStrict_of_ne _ (by decide), get?_withTimestamps_of_mapping h.timestamps]
  cases created <;> cases updated <;> rfl

end Annotation

/-- The definition has the names of the timestamps, and under each of them a date field that is
marked with its flags and nothing else. -/
structure Schema.Stamps (d : Schema) (created updated : Option String) : Prop where
  timestamps : d.options.get? "timestamps" = some (stampNames created updated)
  fields : ∀ name flags, Stamped created updated name flags → ∃ f, d.field? name = some f ∧
    f.type = .primitive .date ∧ f.options.rows = flags.map fun flag => (.text flag, .bool true)

/-- A date field without overrides has the flags that it is marked with, in their order. -/
theorem Compiler.fieldOf_date {c : Compiler} {a : Annotation} {name : String} {date : NodeId}
    {flags : List String} (path : Path) (stamped : Stamped created updated name flags)
    (bag : c.store.bagAt date = (Authoring.flags flags).textKeys)
    (none : a.overrides name = ∅) :
    let f := c.fieldOf (entryAt path a (name, .base date (.scalar .date)))
    f.type = .primitive .date ∧
      f.options.rows = flags.map fun flag => (.text flag, .bool true) := by
  intro f
  refine ⟨rfl, ?_⟩
  have given : c.givenAt (entryAt path a (name, .base date (.scalar .date))) =
      (Authoring.flags flags).textKeys := by
    change ((∅ : Bag).merge (c.store.bagAt date)).merge (a.overrides name).textKeys = _
    rw [none, bag, Table.empty_merge]
    exact Table.merge_empty _
  have options : f.options = fieldOptions (c.requiredAt _) _ (c.givenAt _) := rfl
  rw [options, requiredAt, givenRequired?_eq, given]
  cases stamped <;> rfl

/-- The identities of the entries of an object. -/
def Node.entryIds (node : Node) : List NodeId := (node.shape?.getD []).map (·.2.id)

theorem Node.mem_entryIds {id : NodeId} {shape : Table String Node} {name : String} {node : Node}
    (there : shape.get? name = some node) : node.id ∈ (Node.ofTable id shape).entryIds := by
  rw [← Table.lookup_rows] at there
  exact List.mem_map_of_mem (Compiler.mem_of_lookup there)

namespace Authoring

/-- One step of a composition that goes on from an object with timestamps: the object is extended
by entries of other names, or annotated without a word about the timestamps, or something is done
that is neither about the annotation of the object nor about the bags of the date fields. -/
inductive Composes (created updated : Option String) (dates : List NodeId) :
    Node × Session → Node × Session → Prop
  | extend {node s extended s' more}
    (apart : ∀ entry ∈ more, ∀ flags, ¬Stamped created updated entry.1 flags)
    (ran : outcome (extend node more) s = (.ok extended, s')) :
    Composes created updated dates (node, s) (extended, s')
  | annotate {node s given s' options named members a b} (read : options.read = .ok a)
    (readNamed : (byName named members).read = .ok b) (spares : a.Spares created updated)
    (sparesNamed : b.Spares created updated)
    (ran : outcome (annotateSchema node options named members) s = (.ok given, s')) :
    Composes created updated dates (node, s) (given, s')
  | identity {node s} : Composes created updated dates (node, s)
    (node, { s with nextId := s.nextId + 1 })
  | journal {node s} (journal) : Composes created updated dates (node, s)
    (node, { s with journal := journal })
  | call {node s} (c : NamedCall) (writes : c.2.WritesBelow s.nextId)
    (schema : c.1 = none → ¬c.2.AboutSchema node.id)
    (bags : c.1 = none → ∀ date ∈ dates, ¬c.2.AboutBag date) :
    Composes created updated dates (node, s) (node, s.afterCall c)

/-- Under each name the object has a date field, which is marked with the flags. -/
def Declares (created updated : Option String) (dates : List NodeId) (shape : Table String Node)
    (st : Store) : Prop :=
  ∀ name flags, Stamped created updated name flags → ∃ date ∈ dates,
    shape.get? name = some (.base date (.scalar .date)) ∧
      st.bagAt date = (Authoring.flags flags).textKeys

/-- What every composition keeps: the object is annotated with the names, and declares them. -/
inductive Carries (created updated : Option String) (dates : List NodeId) : Node × Session → Prop
  | object {id shape s} (reachable : s.Reachable) (there : id < s.nextId)
    (stamps : ((s.store none).annotationAt id).Stamps created updated)
    (declares : Declares created updated dates shape (s.store none)) :
    Carries created updated dates (.ofTable id shape, s)

section Composition

variable {dates : List NodeId} {shape : Table String Node} {st st' : Store} {s s' : Session}
  {node node' : Node}

theorem Declares.of_bags (h : Declares created updated dates shape st)
    (same : ∀ date ∈ dates, st'.bagAt date = st.bagAt date) :
    Declares created updated dates shape st' := by
  intro name flags stamped
  obtain ⟨date, mem, there, bag⟩ := h name flags stamped
  exact ⟨date, mem, there, (same date mem).trans bag⟩

theorem Declares.append (h : Declares created updated dates shape st)
    {more : List (String × Node)}
    (apart : ∀ entry ∈ more, ∀ flags, ¬Stamped created updated entry.1 flags) :
    Declares created updated dates (Table.ofList (shape.rows ++ more)) st := by
  intro name flags stamped
  obtain ⟨date, mem, there, bag⟩ := h name flags stamped
  have other : Table.last? name more = none := by
    rw [← Option.not_isSome_iff_eq_none, Table.isSome_last?, List.any_map, List.any_eq_true]
    rintro ⟨entry, mem, same⟩
    obtain rfl : entry.1 = name := beq_iff_eq.1 same
    exact apart entry mem flags stamped
  refine ⟨date, mem, ?_, bag⟩
  rw [Table.get?_ofList, Table.last?_append, other, Option.none_or, Table.last?_rows, there]

theorem outcome_extend (s : Session) (id : NodeId) (shape : Table String Node)
    (more : List (String × Node)) : outcome (extend (.ofTable id shape) more) s =
      (.ok (.ofTable s.nextId (Table.ofList (shape.rows ++ more))), s.extending id) := rfl

/-- Whatever is done with the object, the timestamps stay. -/
theorem Carries.step (step : Composes created updated dates (node, s) (node', s'))
    (h : Carries created updated dates (node, s)) :
    Carries created updated dates (node', s') := by
  cases h with
  | @object id shape s reachable there stamps declares =>
    cases step with
    | @extend _ _ _ _ more apart ran =>
      rw [outcome_extend] at ran
      cases ran
      refine .object (reachable.extending id) (Nat.lt_succ_self _) ?_ ?_
      · rwa [Session.annotationAt_extending_self reachable.attached]
      · exact (declares.append apart).of_bags fun _ _ => Session.bagAt_extending none
    | @annotate _ _ _ _ options named members a b read readNamed spares sparesNamed ran =>
      have attached : outcome (annotateSchema (.ofTable id shape) options named members) s = _ :=
        (Annotates.attached rfl read readNamed).outcome_eq
      have made : (Node.ofTable id shape).id < s.nextId := there
      have after :
          (outcome (annotateSchema (.ofTable id shape) options named members) s).2.Reachable :=
        (annotateSchema_steps made options named members).reachable reachable
      rw [ran] at attached after
      cases attached
      refine .object after there ?_ declares
      change (((s.shared.annotate id a).annotate id b).annotationAt id).Stamps created updated
      rw [Store.annotationAt_annotate_self, Store.annotationAt_annotate_self]
      exact (stamps.merge spares).merge sparesNamed
    | identity =>
      exact .object (reachable.trans (Session.Step.identity s).reaches) (Nat.lt_succ_of_lt there)
        stamps declares
    | journal j =>
      exact .object (reachable.trans (Session.Step.journal s j).reaches) there stamps declares
    | call c writes schema bags =>
      have after := reachable.trans (Session.Step.call s c writes).reaches
      have kept : ((s.after [c]).store none).annotationAt id = (s.store none).annotationAt id := by
        refine Session.annotationAt_after fun _ mem same => ?_
        rw [List.mem_singleton.1 mem] at same ⊢
        exact schema same
      have same : ∀ date ∈ dates, ((s.after [c]).store none).bagAt date =
          (s.store none).bagAt date := by
        intro date mem
        refine Session.bagAt_after fun _ here same => ?_
        rw [List.mem_singleton.1 here] at same ⊢
        exact bags same date mem
      refine .object after (by rwa [Session.nextId_afterCall]) ?_ (declares.of_bags same)
      rwa [← kept] at stamps

theorem Carries.steps {start finish : Node × Session}
    (steps : Relation.ReflTransGen (Composes created updated dates) start finish)
    (h : Carries created updated dates start) : Carries created updated dates finish := by
  induction steps with
  | refl => exact h
  | tail _ step ih => exact ih.step step

/-- Under options that spare them too the timestamps are compiled as they are declared. -/
theorem Carries.compile (h : Carries created updated dates (node, s)) {strict : Bool}
    {options : SchemaOptions} {a : Annotation} {d : Schema} (read : options.read = .ok a)
    (spares : a.Spares created updated)
    (ok : (outcome (compile none strict node options) s).1 = .ok d) :
    d.Stamps created updated := by
  cases h with
  | @object id shape s reachable there stamps declares =>
    rw [outcome_compile_of_read read] at ok
    let c : Compiler := ⟨s.store none, strict⟩
    have effective : (c.effective id (some a)).Stamps created updated := stamps.merge spares
    rw [compiled_ofTable ok]
    refine ⟨effective.finalOptions, fun name flags stamped => ?_⟩
    obtain ⟨date, -, declared, bag⟩ := declares name flags stamped
    rw [field?_schemaOf, declared]
    exact ⟨_, rfl, Compiler.fieldOf_date [] stamped bag (effective.overrides name flags stamped)⟩

end Composition

section Generation

variable {s : Session}

/-- The session once a date field with these flags has been made, if a name is given for it. -/
def stamping (s : Session) (marks : List String) : Option String → Session
  | none => s
  | some _ => { s with
      nextId := s.nextId + 1, shared := s.shared.addToBag s.nextId (flags marks).textKeys }

def dateEntries (id : NodeId) (name : Option String) : List (String × Node) :=
  name.toList.map fun name => (name, .base id (.scalar .date))

theorem timestampEntry_run (s : Session) (marks : List String) (name : Option String) :
    timestampEntry marks name s = .ok (dateEntries s.nextId name) (stamping s marks name) := by
  cases name with
  | none => rfl
  | some name =>
    have nothing : (∅ : Bag).merge (flags marks).textKeys = (flags marks).textKeys :=
      Table.empty_merge _
    unfold stamping
    rw [← nothing]
    rfl

theorem stamping_reachable (h : s.Reachable) (marks : List String) (name : Option String) :
    (stamping s marks name).Reachable := by
  have after := (timestampEntry_steps marks name).reachable h
  rwa [outcome, timestampEntry_run] at after

theorem bagAt_stamping_self (h : s.Reachable) (marks : List String) (name : String) :
    ((stamping s marks (some name)).store none).bagAt s.nextId = (flags marks).textKeys := by
  have empty : s.shared.bagAt s.nextId = ∅ := (h.attached none).bagAt (Nat.le_refl _)
  change (s.shared.addToBag s.nextId (flags marks).textKeys).bagAt s.nextId = _
  rw [Store.bagAt_addToBag, if_pos rfl, empty, Table.empty_merge]

theorem bagAt_stamping_of_lt {id : NodeId} (there : id < s.nextId) (marks : List String)
    (name : Option String) :
    ((stamping s marks name).store none).bagAt id = (s.store none).bagAt id := by
  cases name with
  | none => rfl
  | some name =>
    change (s.shared.addToBag s.nextId (flags marks).textKeys).bagAt id = _
    rw [Store.bagAt_addToBag, if_neg (Nat.ne_of_gt there)]
    rfl

/-- The annotation of the generated object. -/
theorem read_timestampOptions (created updated : Option String) :
    (byName (Table.single "schema_options" (timestampOptions created updated))).read =
      .ok { schemaOptions := Table.single "timestamps" (stampNames created updated) } := rfl

theorem stamps_generated (created updated : Option String) :
    Annotation.Stamps { schemaOptions := Table.single "timestamps" (stampNames created updated) }
      created updated := ⟨rfl, fun _ _ _ => rfl⟩

theorem last?_dateEntries (id : NodeId) (name : String) (given : Option String) :
    Table.last? name (dateEntries id given) =
      if given = some name then some (.base id (.scalar .date)) else none := by
  cases given with
  | none => rfl
  | some other => simp [dateEntries]

/-- The two fields are declared under their names, since these are different. -/
theorem declares_entries (reachable : s.Reachable)
    (apart : ∀ name, created = some name → updated ≠ some name) (id : NodeId) :
    let first := stamping s ["required", "index", "immutable"] created
    let second := stamping first ["required", "index"] updated
    let shape := Table.ofList (dateEntries s.nextId created ++ dateEntries first.nextId updated)
    Declares created updated (Node.ofTable id shape).entryIds shape (second.store none) := by
  intro first second shape name flags stamped
  have read : shape.get? name = (Table.last? name (dateEntries first.nextId updated)).or
      (Table.last? name (dateEntries s.nextId created)) := by
    rw [Table.get?_ofList, Table.last?_append]
  rw [last?_dateEntries, last?_dateEntries] at read
  cases stamped with
  | created given =>
    rw [if_neg (apart name given), if_pos given] at read
    refine ⟨s.nextId, Node.mem_entryIds read, read, ?_⟩
    subst given
    exact (bagAt_stamping_of_lt (Nat.lt_succ_self _) _ _).trans (bagAt_stamping_self reachable _ _)
  | updated given =>
    rw [if_pos given] at read
    refine ⟨first.nextId, Node.mem_entryIds read, read, ?_⟩
    subst given
    exact bagAt_stamping_self (stamping_reachable reachable _ _) _ _

/-- With two different names the object of the two fields is made last, and annotated. -/
theorem timestamps_made (made : ∀ name, created = some name → updated ≠ some name) (s : Session) :
    let first := stamping s ["required", "index", "immutable"] created
    let second := stamping first ["required", "index"] updated
    let shape := Table.ofList (dateEntries s.nextId created ++ dateEntries first.nextId updated)
    let a : Annotation := { schemaOptions := .single "timestamps" (stampNames created updated) }
    ∃ journal, outcome (timestamps created updated) s = (.ok (.ofTable second.nextId shape),
      ⟨second.nextId + 1, second.shared.annotate second.nextId a, second.named, journal⟩) := by
  intro first second shape a
  obtain ⟨name, same, same', -⟩ | ⟨-, steps⟩ := timestamps_eq created updated
  · exact absurd same' (made name same)
  obtain ⟨j, emitted⟩ : ∃ j, outcome (traced (Traced.emit (.timestampsGenerated created updated)))
      second = (.ok (), { second with journal := j }) := ⟨_, rfl⟩
  let s₃ : Session := { second with journal := j, nextId := second.nextId + 1 }
  have built : outcome (object (dateEntries s.nextId created ++ dateEntries first.nextId updated))
      { second with journal := j } = (.ok (.ofTable second.nextId shape), s₃) := rfl
  have nothing : (SchemaOptions.untyped .null).read = .ok ∅ := rfl
  have annotated : outcome (annotateSchema (.ofTable second.nextId shape) (.untyped .null)
      (.single "schema_options" (timestampOptions created updated))) s₃ = _ :=
    (Annotates.attached rfl nothing (read_timestampOptions created updated)).outcome_eq
  rw [Store.annotate_annotate, Annotation.empty_merge] at annotated
  refine ⟨j, ?_⟩
  rw [steps, outcome_bind_of_ok (by rw [outcome, timestampEntry_run]),
    outcome_bind_of_ok (by rw [outcome, timestampEntry_run]), outcome_bind_of_ok emitted,
    outcome_bind_of_ok built, annotated]
  rfl

/-- Generating ends with the refusal of one name for both, in the session as it was, or with an
object that carries the timestamps. -/
theorem timestamps_ends (reachable : s.Reachable) (created updated : Option String) :
    (∃ name, created = some name ∧ updated = some name ∧
      outcome (timestamps created updated) s = (.error (.duplicateTimestamp name), s)) ∨
    (∀ name, created = some name → updated ≠ some name) ∧
      ∃ node s', outcome (timestamps created updated) s = (.ok node, s') ∧
        Carries created updated node.entryIds (node, s') := by
  obtain ⟨name, same, same', refused⟩ | ⟨apart, -⟩ := timestamps_eq created updated
  · refine .inl ⟨name, same, same', ?_⟩
    rw [refused]
    rfl
  refine .inr ⟨apart, ?_⟩
  obtain ⟨j, ran⟩ := timestamps_made apart s
  let first := stamping s ["required", "index", "immutable"] created
  let second := stamping first ["required", "index"] updated
  have attached : second.Attached :=
    (stamping_reachable (stamping_reachable reachable _ _) _ _).attached
  have after : (outcome (timestamps created updated) s).2.Reachable :=
    (timestamps_steps created updated).reachable reachable
  rw [ran] at after
  have declares := declares_entries reachable apart second.nextId
  refine ⟨_, _, ran, .object after (Nat.lt_succ_self _) ?stamps (declares.of_bags fun _ _ => rfl)⟩
  case stamps =>
    have none_yet : second.shared.annotationAt second.nextId = ∅ :=
      (attached none).annotationAt (Nat.le_refl _)
    change ((second.shared.annotate second.nextId _).annotationAt second.nextId).Stamps _ _
    rw [Store.annotationAt_annotate_self, none_yet, Annotation.empty_merge]
    exact stamps_generated created updated

/-- Generated timestamps. Only one name for both is refused, and then nothing is changed. What is
generated otherwise compiles, after whatever composition, to a definition with the names of the
timestamps and with the two fields that are declared under them. -/
theorem timestamps_coherent (reachable : s.Reachable) (created updated : Option String) :
    let ran := outcome (timestamps created updated) s
    (∀ name, ran.1 = .error (.duplicateTimestamp name) ↔
      created = some name ∧ updated = some name) ∧
    (∀ f, ran.1 = .error f → (∃ name, f = .duplicateTimestamp name) ∧ ran.2 = s) ∧
    ∀ node, ran.1 = .ok node → ∀ node' s',
      Relation.ReflTransGen (Composes created updated node.entryIds) (node, ran.2) (node', s') →
      ∀ strict options a d, options.read = .ok a → a.Spares created updated →
        (outcome (compile none strict node' options) s').1 = .ok d →
          d.Stamps created updated := by
  intro ran
  obtain ⟨name, rfl, rfl, refused⟩ | ⟨apart, node, s', made, carries⟩ :=
    timestamps_ends reachable created updated
  · have ends : ran = _ := refused
    rw [ends]
    refine ⟨fun other => ?_, fun f same => ?_, nofun⟩
    · simp
    · cases same
      exact ⟨⟨name, rfl⟩, rfl⟩
  · have ends : ran = _ := made
    rw [ends]
    refine ⟨fun name => ⟨nofun, fun same => absurd same.2 (apart name same.1)⟩, nofun, ?_⟩
    intro generated same node' s'' steps strict options a d read spares ok
    cases same
    exact (carries.steps steps).compile read spares ok

/-- Each timestamp has the name that the other has by default; a title and a collection are
added. -/
theorem timestamps_coherent_swapped :
    let s : Session := { nextId := 1 }
    let title : Node := .base 0 (.scalar .string)
    let books : Options := .single "schema_options" (.mapping [(.text "collection", .text "books")])
    s.Reachable ∧ ∃ node s₁ extended s₂ annotated s₃ d,
      outcome (timestamps (some "updatedAt") (some "createdAt")) s = (.ok node, s₁) ∧
      outcome (extend node [("title", title)]) s₁ = (.ok extended, s₂) ∧
      outcome (annotateSchema extended (.untyped .null) books) s₂ = (.ok annotated, s₃) ∧
      (outcome (compile none true annotated (.untyped .null)) s₃).1 = .ok d ∧
      d.Stamps (some "updatedAt") (some "createdAt") := by
  intro s title books
  let dates : List (String × Node) :=
    [("updatedAt", .base 1 (.scalar .date)), ("createdAt", .base 2 (.scalar .date))]
  let extended := Node.ofTable 4 (Table.ofList (dates ++ [("title", title)]))
  let names := stampNames (some "updatedAt") (some "createdAt")
  let first := (∅ : Store).addToBag 1 (flags ["required", "index", "immutable"]).textKeys
  let marked := first.addToBag 2 (flags ["required", "index"]).textKeys
  let s₃ : Session := {
    nextId := 5
    shared := (marked.annotate 3 { schemaOptions := .single "timestamps" names }).annotate 4
      { schemaOptions := .ofList [("timestamps", names), ("collection", .text "books")] }
    journal := (outcome (timestamps (some "updatedAt") (some "createdAt")) s).2.journal }
  obtain ⟨node, s₁, s₂, made, extending, annotating⟩ : ∃ node s₁ s₂,
      outcome (timestamps (some "updatedAt") (some "createdAt")) s = (.ok node, s₁) ∧
      outcome (extend node [("title", title)]) s₁ = (.ok extended, s₂) ∧
      outcome (annotateSchema extended (.untyped .null) books) s₂ = (.ok extended, s₃) :=
    ⟨_, _, _, rfl, rfl, rfl⟩
  obtain ⟨d, ok⟩ : ∃ d, (outcome (compile none true extended (.untyped .null)) s₃).1 = .ok d :=
    ⟨_, rfl⟩
  have reachable : s.Reachable := ⟨1, {}, .refl⟩
  have coherent := (timestamps_coherent reachable (some "updatedAt") (some "createdAt")).2.2
  rw [made] at coherent
  have apart : ∀ entry ∈ [("title", title)], ∀ flags,
      ¬Stamped (some "updatedAt") (some "createdAt") entry.1 flags := by
    intro entry mem flags stamped
    rw [List.mem_singleton.1 mem] at stamped
    cases stamped with
    | created given | updated given => exact absurd given (by decide)
  have spares : ∀ options, options = ∅ ∨ options = Table.single "collection" (.text "books") →
      Annotation.Spares { schemaOptions := options } (some "updatedAt") (some "createdAt") := by
    rintro _ (rfl | rfl) <;> exact ⟨rfl, fun _ _ _ => rfl⟩
  have steps : Relation.ReflTransGen
      (Composes (some "updatedAt") (some "createdAt") node.entryIds) (node, s₁) (extended, s₃) :=
    .tail (.single (.extend apart extending))
      (.annotate rfl rfl (spares _ (.inl rfl)) (spares _ (.inr rfl)) annotating)
  exact ⟨reachable, node, s₁, extended, s₂, extended, s₃, d, made, extending, annotating, ok,
    coherent node rfl extended s₃ steps true _ ∅ d rfl (spares _ (.inl rfl)) ok⟩

end Generation

end Authoring

end MapperSchema
