import Mathlib.Data.List.Induction
import MapperSchema.Proofs.Compiler.Attachment
import MapperSchema.Proofs.Store.Calls

/-! Histories of calls on the stores of a session. What a store gives for a node is made of what
was added to that node in that store since it was last cleared, in the order of the calls; no other
part of the history is seen, by a compile neither. -/
namespace MapperSchema

open Store

/-- Where one more part decides if it has something to say, the last such part decides. -/
theorem reading_foldl {α β γ : Type} {combine : β → α → β} {start : β} (reading : β → Option γ)
    (part : α → Option γ) (none : reading start = none)
    (step : ∀ b a, reading (combine b a) = (part a).or (reading b)) (parts : List α) :
    reading (parts.foldl combine start) = parts.reverse.findSome? part := by
  induction parts using List.reverseRecOn with
  | nil => exact none
  | append_singleton parts a ih =>
    rw [List.foldl_append, List.foldl_cons, List.foldl_nil, step, ih, List.reverse_concat,
      List.findSome?_cons]
    cases part a <;> rfl

/-- A call, with the name of the store that it is made on. -/
abbrev NamedCall := Option String × Store.Call

namespace Session

def afterCall (s : Session) (c : NamedCall) : Session := s.putStore (c.2.apply (s.store c.1)) c.1

def after (s : Session) (history : List NamedCall) : Session := history.foldl afterCall s

/-- What a history does to the bag of a node in one of the stores. -/
def bagChanges (r : Option String) (id : NodeId) (history : List NamedCall) : List (Change Bag) :=
  history.flatMap fun c => if c.1 = r then (c.2.bagChange? id).toList else []

/-- What a history does to the annotation of a node in one of the stores, from this session on.
Copies add what they find on their way. -/
def annotationChanges (r : Option String) (id : NodeId) :
    Session → List NamedCall → List (Change Annotation)
  | _, [] => []
  | s, c :: rest =>
    (if c.1 = r then (c.2.annotationChange? (s.store r) id).toList else []) ++
      annotationChanges r id (s.afterCall c) rest

variable {s : Session} {r : Option String} {id : NodeId} {bags : List Bag}
  {annotations : List Annotation}

@[simp] theorem store_afterCall (s : Session) (c : NamedCall) (r : Option String) :
    (s.afterCall c).store r = if c.1 = r then c.2.apply (s.store r) else s.store r := by
  rw [afterCall, store_putStore]
  by_cases same : c.1 = r
  · rw [if_pos same, if_pos same, same]
  · rw [if_neg same, if_neg same]

@[simp] theorem after_cons (s : Session) (c : NamedCall) (rest : List NamedCall) :
    s.after (c :: rest) = (s.afterCall c).after rest := rfl

@[simp] theorem journal_after (s : Session) (history : List NamedCall) :
    (s.after history).journal = s.journal := by
  induction history generalizing s with
  | nil => rfl
  | cons c rest ih =>
    obtain ⟨name, call⟩ := c
    refine (ih (s.afterCall (name, call))).trans ?_
    cases name <;> rfl

/-- What no call of a history changes stays as it is. -/
theorem reading_after {α : Type} (reading : Store → α) {history : List NamedCall}
    (h : ∀ c ∈ history, c.1 = r → ∀ st, reading (c.2.apply st) = reading st) :
    reading ((s.after history).store r) = reading (s.store r) := by
  induction history generalizing s with
  | nil => rfl
  | cons c rest ih =>
    obtain ⟨head, tail⟩ := List.forall_mem_cons.1 h
    rw [after_cons, ih tail, store_afterCall]
    split
    next same => exact head same _
    next => rfl

theorem bagAt_after {history : List NamedCall}
    (h : ∀ c ∈ history, c.1 = r → ¬c.2.AboutBag id) :
    ((s.after history).store r).bagAt id = (s.store r).bagAt id :=
  reading_after (·.bagAt id) fun c mem same _ => Call.bagAt_apply c.2 (h c mem same)

theorem annotationAt_after {history : List NamedCall}
    (h : ∀ c ∈ history, c.1 = r → ¬c.2.AboutSchema id) :
    ((s.after history).store r).annotationAt id = (s.store r).annotationAt id :=
  reading_after (·.annotationAt id) fun c mem same _ => Call.annotationAt_apply c.2 (h c mem same)

/-- One call changes the parts of a reading as it says, if it is made on this store. -/
theorem keeps_afterCall (h : (s.store r).Keeps id bags annotations) (c : NamedCall) :
    ((s.afterCall c).store r).Keeps id ((bagChanges r id [c]).foldl Change.onto bags)
      ((annotationChanges r id s [c]).foldl Change.onto annotations) := by
  unfold bagChanges annotationChanges annotationChanges
  by_cases same : c.1 = r
  · simpa [same] using h.apply c.2
  · simpa [same] using h

/-- A history changes the parts one call after the other: each starts from what those before it have
left. -/
theorem keeps_after (h : (s.store r).Keeps id bags annotations) (history : List NamedCall) :
    ((s.after history).store r).Keeps id ((bagChanges r id history).foldl Change.onto bags)
      ((annotationChanges r id s history).foldl Change.onto annotations) := by
  induction history generalizing s bags annotations with
  | nil => exact h
  | cons c rest ih =>
    have kept := ih (keeps_afterCall h c)
    simpa [bagChanges, annotationChanges, List.foldl_append] using kept

/-- The session in which nothing has been attached yet. -/
def fresh (nextId : NodeId) (journal : Journal) : Session := { nextId, journal }

/-- After a history that starts with empty stores a reading is made of what stands. -/
theorem keeps_of_fresh (nextId : NodeId) (journal : Journal) (history : List NamedCall)
    (r : Option String) (id : NodeId) :
    (((fresh nextId journal).after history).store r).Keeps id (standing (bagChanges r id history))
      (standing (annotationChanges r id (fresh nextId journal) history)) := by
  apply keeps_after
  cases r <;> exact .empty id

/-- Of the calls on one node the latest that gives the option decides. -/
theorem get?_bagAt_after (nextId : NodeId) (journal : Journal) (history : List NamedCall)
    (r : Option String) (id : NodeId) (k : Key) :
    ((((fresh nextId journal).after history).store r).bagAt id).get? k =
      (standing (bagChanges r id history)).reverse.findSome? (·.get? k) := by
  rw [(keeps_of_fresh nextId journal history r id).bag]
  exact reading_foldl (fun bag : Bag => bag.get? k) (fun part : Bag => part.get? k) rfl
    (fun bag part => Table.get?_merge bag part k) _

theorem get?_overrides_after (nextId : NodeId) (journal : Journal) (history : List NamedCall)
    (r : Option String) (id : NodeId) (name k : String) :
    (((((fresh nextId journal).after history).store r).annotationAt id).overrides name).get? k =
      (standing (annotationChanges r id (fresh nextId journal) history)).reverse.findSome?
        fun a => (a.overrides name).get? k := by
  rw [(keeps_of_fresh nextId journal history r id).annotationAt]
  exact reading_foldl (fun a : Annotation => (a.overrides name).get? k)
    (fun part : Annotation => (part.overrides name).get? k) rfl
    (fun a part => Annotation.get?_overrides_merge a part name k) _

end Session

namespace Authoring

open Session

/-- Makes the calls of a history. -/
def play (history : List NamedCall) : Authoring Unit :=
  history.forM fun c => updateStore c.1 c.2.apply

theorem outcome_play (s : Session) (history : List NamedCall) :
    outcome (play history) s = (.ok (), s.after history) := by
  induction history generalizing s with
  | nil => rfl
  | cons c rest ih => exact ih (s.afterCall c)

theorem outcome_compile_congr {s s' : Session} {r : Option String}
    (journal : s.journal = s'.journal)
    (bags : ∀ id, (s.store r).bagAt id = (s'.store r).bagAt id)
    (annotations : ∀ id, (s.store r).annotationAt id = (s'.store r).annotationAt id)
    (strict : Bool) (node : Node) (options : SchemaOptions) :
    let ran := outcome (compile r strict node options) s
    let ran' := outcome (compile r strict node options) s'
    ran.1 = ran'.1 ∧ ran.2.journal = ran'.2.journal := by
  have same : (⟨s.store r, strict⟩ : Compiler).compile node options =
      (⟨s'.store r, strict⟩ : Compiler).compile node options :=
    Compiler.compile_congr options fun _ => Compiler.schema_congr_of_readings rfl bags annotations
  have ran := outcome_compile r strict node options s
  have ran' := outcome_compile r strict node options s'
  rw [← same, ← journal] at ran'
  rw [ran, ran']
  exact ⟨rfl, rfl⟩

/-- The readings of a node are folds of what was added to it, in its store and since the last clear.
Calls on other nodes, on the other reading or on other stores leave a reading as it is; a copy is
made once and for all; and histories that leave every node of a store with the same parts are told
apart by no reading of that store and by no compile with it. -/
theorem readings_of_history (nextId : NodeId) (journal : Journal) :
    let start := fresh nextId journal
    (∀ history, outcome (play history) start = (.ok (), start.after history) ∧ ∀ r id,
      ((start.after history).store r).bagAt id =
          (standing (bagChanges r id history)).foldl Table.merge ∅ ∧
        ((start.after history).store r).annotationAt id =
          (standing (annotationChanges r id start history)).foldl Annotation.merge ∅) ∧
      (∀ (s : Session) history r id,
        ((∀ c ∈ history, c.1 = r → ¬c.2.AboutBag id) →
            ((s.after history).store r).bagAt id = (s.store r).bagAt id) ∧
          ((∀ c ∈ history, c.1 = r → ¬c.2.AboutSchema id) →
            ((s.after history).store r).annotationAt id = (s.store r).annotationAt id)) ∧
      (∀ (s : Session) r source target later,
        let copied := s.afterCall (r, .carryOver source target)
        ((∀ c ∈ later, c.1 = r → ¬c.2.AboutSchema target) →
            ((copied.after later).store r).annotationAt target =
              ((s.store r).annotationAt target).merge ((s.store r).annotationAt source)) ∧
          (source ≠ target → (∀ c ∈ later, c.1 = r → ¬c.2.AboutSchema source) →
            ((copied.after later).store r).annotationAt source =
              (s.store r).annotationAt source)) ∧
      ∀ history history' r,
        (∀ id, standing (bagChanges r id history) = standing (bagChanges r id history')) →
        (∀ id, standing (annotationChanges r id start history) =
          standing (annotationChanges r id start history')) →
        (∀ id, ((start.after history).store r).bagAt id =
              ((start.after history').store r).bagAt id ∧
            ((start.after history).store r).annotationAt id =
              ((start.after history').store r).annotationAt id) ∧
          ∀ strict node options,
            let ran := outcome (compile r strict node options) (start.after history)
            let ran' := outcome (compile r strict node options) (start.after history')
            ran.1 = ran'.1 ∧ ran.2.journal = ran'.2.journal := by
  intro start
  have kept := keeps_of_fresh nextId journal
  refine ⟨fun history => ⟨outcome_play start history, fun r id =>
      ⟨(kept history r id).bag, (kept history r id).annotationAt⟩⟩,
    fun s history r id => ⟨bagAt_after, annotationAt_after⟩, ?_, ?_⟩
  · intro s r source target later copied
    have now : copied.store r = (s.store r).carryOver source target := by simp [copied, Call.apply]
    refine ⟨fun untouched => ?_, fun apart untouched => ?_⟩
    · rw [annotationAt_after untouched, now, annotationAt_carryOver_self]
    · rw [annotationAt_after untouched, now]
      exact Call.annotationAt_apply (.carryOver source target) apart.symm
  · intro history history' r bags annotations
    have sameBags : ∀ id, ((start.after history).store r).bagAt id =
        ((start.after history').store r).bagAt id := fun id => by
      rw [(kept history r id).bag, (kept history' r id).bag, bags]
    have sameAnnotations : ∀ id, ((start.after history).store r).annotationAt id =
        ((start.after history').store r).annotationAt id := fun id => by
      rw [(kept history r id).annotationAt, (kept history' r id).annotationAt, annotations]
    have journals : (start.after history).journal = (start.after history').journal := by simp
    exact ⟨fun id => ⟨sameBags id, sameAnnotations id⟩,
      outcome_compile_congr journals sameBags sameAnnotations⟩

/-- A bag that was dropped by a clear, and a copy whose source is annotated again. -/
theorem readings_of_history_copy :
    let start := fresh 3 {}
    let index : Bag := Table.single (.text "index") (.bool true)
    let unique : Bag := Table.single (.text "unique") (.bool true)
    let strip : Annotation := { unknownKeys := some .strip }
    let later : List NamedCall := [(some "b", .annotate 1 { unknownKeys := some .throw })]
    let history : List NamedCall :=
      [(none, .attach 0 index), (some "b", .annotate 1 strip), (none, .clear),
        (none, .attach 0 unique)]
    let copied := (start.after history).afterCall (some "b", .carryOver 1 2)
    ((start.after history).store none).bagAt 0 = unique ∧
      (∀ c ∈ later, c.1 = some "b" → ¬c.2.AboutSchema 2) ∧
      ((copied.after later).store (some "b")).annotationAt 2 = strip ∧
      (∀ id, standing (bagChanges none id history) =
        standing (bagChanges none id [(none, .attach 0 unique)])) ∧
      ∀ node, (outcome (compile none true node (.untyped .null)) (start.after history)).1 =
        (outcome (compile none true node (.untyped .null))
          (start.after [(none, .attach 0 unique)])).1 := by
  intro start index unique strip later history copied
  obtain ⟨folds, -, copies, alike⟩ := readings_of_history 3 {}
  have bag := ((folds history).2 none 0).1
  have untouched : ∀ c ∈ later, c.1 = some "b" → ¬c.2.AboutSchema 2 := by
    simp [later, Call.AboutSchema]
  have copy := (copies (start.after history) (some "b") 1 2 later).1 untouched
  have bags : ∀ id, standing (bagChanges none id history) =
      standing (bagChanges none id [(none, .attach 0 unique)]) := by
    intro id
    by_cases here : 0 = id <;>
      simp [standing, bagChanges, history, Call.bagChange?, Change.onto, here]
  have annotations : ∀ id, standing (annotationChanges none id start history) =
      standing (annotationChanges none id start [(none, .attach 0 unique)]) := fun _ => rfl
  have same := (alike history [(none, .attach 0 unique)] none bags annotations).2
  exact ⟨bag, untouched, copy, bags, fun node => (same true node _).1⟩

end Authoring

end MapperSchema
