import MapperSchema.Authoring
import MapperSchema.Proofs.Annotation.Monoid
import MapperSchema.Proofs.Store.Calls

/-! Calls that annotate a node. A call either attaches all that it is given or leaves the session as
it was, and what it is given all together and by name may as well be given by two calls. -/
namespace MapperSchema

namespace Store

variable (s : Store) (id : NodeId)

theorem addToBag_addToBag (options more : Bag) :
    (s.addToBag id options).addToBag id more = s.addToBag id (options.merge more) := by
  have read : (s.addToBag id options).bagAt id = (s.bagAt id).merge options := by simp
  have bags : ((s.addToBag id options).addToBag id more).bags =
      (s.bags.insert id ((s.bagAt id).merge options)).insert id
        (((s.addToBag id options).bagAt id).merge more) := rfl
  rw [read, Table.insert_insert, Table.merge_assoc] at bags
  exact congrArg (fun t => ({ s with bags := t } : Store)) bags

theorem annotate_annotate (a b : Annotation) :
    (s.annotate id a).annotate id b = s.annotate id (a.merge b) := by
  unfold annotate
  simp only [Table.get?_insert, beq_self_eq_true, if_true, Table.insert_insert]
  cases s.annotations.get? id with
  | none => rfl
  | some old => simp only [old.merge_assoc]

end Store

namespace Authoring

variable {s : Session} {node : Node}

/-- Options as a call gives them by name. -/
def byName (named : Options) (members : Members := ∅) : SchemaOptions :=
  .untyped (.ofOptions named) members

/-- How a call that annotates an object may end. The kind of the node is looked at first, then what
is given all together, then what is given by name; something is attached if none is refused. -/
inductive Annotates (s : Session) (node : Node) (options : SchemaOptions) (named : Options)
    (members : Members) : Except Fault Node × Session → Prop
  | notObject (other : node.kind ≠ .object) :
    Annotates s node options named members (.error (.notObject node.kind []), s)
  | together {issues} (object : node.kind = .object) (unread : options.read = .error issues) :
    Annotates s node options named members (.error (.invalidOptions issues), s)
  | byName {a issues} (object : node.kind = .object) (read : options.read = .ok a)
    (unread : (byName named members).read = .error issues) :
    Annotates s node options named members (.error (.invalidOptions issues), s)
  | attached {a b} (object : node.kind = .object) (read : options.read = .ok a)
    (readNamed : (byName named members).read = .ok b) :
    Annotates s node options named members
      (.ok node, s.putStore ((s.shared.annotate node.id a).annotate node.id b) none)

/-- Naming no options is giving empty ones. -/
theorem byName_of_isEmpty {named : Options} (none : named.isEmpty) (members : Members) :
    (byName named members).read = .ok ∅ := by
  have nil : named = ∅ := Table.ext (List.isEmpty_iff.1 none)
  rw [nil]
  rfl

variable {options : SchemaOptions} {named : Options} {members : Members}
  {ran : Except Fault Node × Session}

theorem Annotates.outcome_eq (h : Annotates s node options named members ran) :
    outcome (annotateSchema node options named members) s = ran := by
  unfold annotateSchema readOptions
  cases h with
  | notObject other =>
    have object : node.isObject = false := decide_eq_false other
    rw [object]
    rfl
  | together object unread =>
    have object : node.isObject = true := decide_eq_true object
    rw [object, unread]
    rfl
  | byName object read unread =>
    have object : node.isObject = true := decide_eq_true object
    have some : named.isEmpty = false := by
      rw [← Bool.not_eq_true]
      intro none
      rw [byName_of_isEmpty none members] at unread
      cases unread
    have unread : (SchemaOptions.untyped (.ofOptions named) members).read = .error _ := unread
    rw [object, read, some, unread]
    rfl
  | @attached a b object read readNamed =>
    have object : node.isObject = true := decide_eq_true object
    rw [object, read, Store.annotate_annotate]
    cases none : named.isEmpty with
    | true =>
      rw [byName_of_isEmpty none members] at readNamed
      cases readNamed
      rfl
    | false =>
      have readNamed : (SchemaOptions.untyped (.ofOptions named) members).read = .ok b := readNamed
      rw [readNamed]
      rfl

theorem exists_annotates (s : Session) (node : Node) (options : SchemaOptions) (named : Options)
    (members : Members) : ∃ ran, Annotates s node options named members ran := by
  by_cases object : node.kind = .object
  · cases read : options.read with
    | error issues => exact ⟨_, .together object read⟩
    | ok a =>
      cases readNamed : (byName named members).read with
      | error issues => exact ⟨_, .byName object read readNamed⟩
      | ok b => exact ⟨_, .attached object read readNamed⟩
  · exact ⟨_, .notObject object⟩

theorem annotates_outcome (s : Session) (node : Node) (options : SchemaOptions) (named : Options)
    (members : Members) :
    let ran := outcome (annotateSchema node options named members) s
    Annotates s node options named members ran := by
  obtain ⟨ran, h⟩ := exists_annotates s node options named members
  rwa [h.outcome_eq]

/-- Two calls, with the options given all together and with those given by name. -/
def annotateInTurn (node : Node) (options : SchemaOptions) (named : Options)
    (members : Members := ∅) : Authoring Node := do
  let again ← annotateSchema node options ∅
  annotateSchema again (.untyped .null) named members

theorem outcome_bind_of_ok {α β : Type} {run : Authoring α} {s s' : Session} {a : α}
    (h : outcome run s = (.ok a, s')) (next : α → Authoring β) :
    outcome (run >>= next) s = outcome (next a) s' := by
  unfold outcome at h
  cases ran : run s with
  | ok b t =>
    rw [ran] at h
    cases h
    have next_run : (run >>= next) s = next a s' := by
      change EStateM.bind run next s = _
      rw [EStateM.bind, ran]
    rw [outcome, outcome, next_run]
  | error f t =>
    rw [ran] at h
    cases h

/-- The first call names nothing and the second gives nothing else, so each attaches one part. -/
theorem outcome_annotateInTurn {a b : Annotation} (object : node.kind = .object)
    (read : options.read = .ok a) (readNamed : (byName named members).read = .ok b) :
    outcome (annotateInTurn node options named members) s =
      (.ok node, s.putStore ((s.shared.annotate node.id a).annotate node.id b) none) := by
  have first : outcome (annotateSchema node options ∅) s = _ :=
    (Annotates.attached object read (byName_of_isEmpty rfl ∅)).outcome_eq
  rw [Store.annotate_annotate, Annotation.merge_empty] at first
  refine (outcome_bind_of_ok first _).trans ?_
  have nothing : (SchemaOptions.untyped .null).read = .ok ∅ := rfl
  have second := (Annotates.attached (s := s.putStore (s.shared.annotate node.id a) none) object
    nothing readNamed).outcome_eq
  rwa [Store.annotate_annotate _ _ ∅, Annotation.empty_merge] at second

/-- Two calls of the same kind for the options of a field. -/
def annotateFieldInTurn (node : Node) (options : Bag) (named : Options) : Authoring Node := do
  let again ← annotateField node options ∅
  annotateField again ∅ named

theorem outcome_annotateField (s : Session) (node : Node) (options : Bag) (named : Options) :
    outcome (annotateField node options named) s =
      (.ok node, s.putStore
        ((s.shared.addToBag node.id options).addToBag node.id named.textKeys) none) := by
  rw [Store.addToBag_addToBag]
  rfl

theorem outcome_annotateFieldInTurn (s : Session) (node : Node) (options : Bag) (named : Options) :
    outcome (annotateFieldInTurn node options named) s =
      outcome (annotateField node options named) s := by
  have first : outcome (annotateField node options ∅) s = _ :=
    outcome_annotateField s node options ∅
  have none : Table.textKeys ∅ = ∅ := rfl
  rw [none, Store.addToBag_addToBag, Table.merge_empty] at first
  refine (outcome_bind_of_ok first _).trans ?_
  rw [outcome_annotateField, outcome_annotateField, Store.addToBag_addToBag _ _ ∅,
    Table.empty_merge]
  rfl

/-- A call that annotates an object reads all that it is given before it attaches anything; if
something is refused the session is as it was. Otherwise what is given all together is attached, and
then what is given by name, as by two calls; and so it is with a call for the options of a field.
The first kind of call changes no more than the node's annotation, the second no more than its
bag. -/
theorem annotating_atomic (s : Session) (node : Node) :
    (∀ options named members,
      let ran := outcome (annotateSchema node options named members) s
      Annotates s node options named members ran ∧ (∀ f, ran.1 = .error f → ran.2 = s) ∧
      (∀ given, ran.1 = .ok given → given = node ∧
        ran = outcome (annotateInTurn node options named members) s ∧
        ∃ a b, options.read = .ok a ∧ (byName named members).read = .ok b ∧
          ran.2.shared.annotationAt node.id =
            ((s.shared.annotationAt node.id).merge a).merge b) ∧
      ran.2 = s.putStore ran.2.shared none ∧ ran.2.shared.bags = s.shared.bags ∧
      (∀ id, id ≠ node.id →
        ran.2.shared.annotations.get? id = s.shared.annotations.get? id)) ∧
    ∀ options named,
      let ran := outcome (annotateField node options named) s
      let attached := (s.shared.addToBag node.id options).addToBag node.id named.textKeys
      ran = (.ok node, s.putStore attached none) ∧
      ran = outcome (annotateFieldInTurn node options named) s ∧
      ran.2.shared.bagAt node.id =
        ((s.shared.bagAt node.id).merge options).merge named.textKeys ∧
      ran.2.shared.annotations = s.shared.annotations ∧
      (∀ id, id ≠ node.id →
        ran.2.shared.bags.get? id = s.shared.bags.get? id) := by
  constructor
  · intro options named members ran
    have ends : Annotates s node options named members ran :=
      annotates_outcome s node options named members
    refine ⟨ends, ?_⟩
    clear_value ran
    cases ends with
    | notObject | together | byName =>
      exact ⟨fun _ _ => rfl, nofun, rfl, rfl, fun _ _ => rfl⟩
    | @attached a b object read readNamed =>
      refine ⟨nofun, fun given same => ?_, rfl, rfl, fun id apart => ?_⟩
      · cases same
        refine ⟨rfl, (outcome_annotateInTurn object read readNamed).symm, a, b, read, readNamed, ?_⟩
        rw [← s.shared.annotationAt_annotate_self, ← Store.annotationAt_annotate_self]
        rfl
      · rw [Store.annotate_annotate]
        exact (Table.get?_insert ..).trans (if_neg (by simpa using apart.symm))
  · intro options named ran attached
    have ends : ran = (.ok node, s.putStore attached none) :=
      outcome_annotateField s node options named
    refine ⟨ends, (outcome_annotateFieldInTurn s node options named).symm, ?_, ?_, ?_⟩
    · rw [ends]
      change attached.bagAt node.id = _
      simp [attached]
    · rw [ends]
      rfl
    · intro id apart
      rw [ends]
      change attached.bags.get? id = _
      simp [attached, Store.addToBag, Ne.symm apart]

/-- An object that has been annotated before, and indexed. -/
def annotated : Session where
  nextId := 1
  shared := ⟨Table.single 0 (Table.single (.text "index") (.bool true)),
    Table.single 0 { schemaOptions := Table.single "collection" (.text "books") }⟩

def books : SchemaOptions :=
  .untyped (.mapping [(.text "schemaOptions", .mapping [(.text "collection", .text "novels")])])

theorem annotating_atomic_books :
    (∃ f, outcome (annotateSchema (.base 0 (.object [])) books
        (Table.single "unknownKeys" (.text "all"))) annotated = (.error f, annotated)) ∧
      outcome (annotateSchema (.base 0 (.object [])) books
          (Table.single "unknownKeys" (.text "strip"))) annotated =
        outcome (annotateInTurn (.base 0 (.object [])) books
          (Table.single "unknownKeys" (.text "strip"))) annotated ∧
      ((outcome (annotateField (.base 0 (.object [])) (Table.single (.text "index") (.bool false))
          (Table.single "alias" (.text "shelf"))) annotated).2.shared.bagAt 0).rows =
        [(.text "index", .bool false), (.text "alias", .text "shelf")] := by
  obtain ⟨schema, field⟩ := annotating_atomic annotated (.base 0 (.object []))
  obtain ⟨-, refused, -⟩ := schema books (Table.single "unknownKeys" (.text "all")) ∅
  obtain ⟨-, -, attached, -⟩ := schema books (Table.single "unknownKeys" (.text "strip")) ∅
  obtain ⟨-, -, bag, -⟩ := field (Table.single (.text "index") (.bool false))
    (Table.single "alias" (.text "shelf"))
  exact ⟨⟨_, Prod.ext rfl (refused _ rfl)⟩, (attached _ rfl).2.1, congrArg Table.rows bag⟩

end Authoring

end MapperSchema
