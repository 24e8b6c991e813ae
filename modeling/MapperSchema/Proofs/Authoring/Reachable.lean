import Mathlib.Logic.Relation
import MapperSchema.Proofs.Authoring.History

/-! The sessions that can come up: those that are reached from a session in which nothing is
attached by giving out identities, by calls on the stores for nodes that are there, and by writing
to the journal. All runs are made of these steps. In such a session nothing is attached to an
identity that has not been given out. -/
namespace MapperSchema

namespace Store

/-- All that is attached is attached to identities below the bound. -/
def Below (bound : NodeId) (st : Store) : Prop :=
  ∀ id, bound ≤ id → st.bags.get? id = none ∧ st.annotations.get? id = none

/-- The call changes readings of identities below the bound only. -/
def Call.WritesBelow (bound : NodeId) : Call → Prop
  | .attach id _ => id < bound
  | .annotate id _ => id < bound
  | .carryOver _ target => target < bound
  | .clear => True

variable {bound bound' : NodeId} {st : Store}

theorem Below.empty (bound : NodeId) : (∅ : Store).Below bound := fun _ _ => ⟨rfl, rfl⟩

theorem Below.mono (h : st.Below bound) (le : bound ≤ bound') : st.Below bound' :=
  fun id above => h id (Nat.le_trans le above)

theorem Below.annotate (h : st.Below bound) {id : NodeId} (lt : id < bound) (a : Annotation) :
    (st.annotate id a).Below bound := by
  intro id' above
  have apart : id ≠ id' := Nat.ne_of_lt (Nat.lt_of_lt_of_le lt above)
  exact ⟨(h id' above).1, by simp [Store.annotate, apart, (h id' above).2]⟩

theorem Below.apply (h : st.Below bound) {call : Call} (writes : call.WritesBelow bound) :
    (call.apply st).Below bound := by
  cases call with
  | attach id options =>
    intro id' above
    have apart : id ≠ id' := Nat.ne_of_lt (Nat.lt_of_lt_of_le writes above)
    exact ⟨by simp [Call.apply, addToBag, apart, (h id' above).1], (h id' above).2⟩
  | annotate id a => exact h.annotate writes a
  | carryOver source target =>
    rw [Call.apply, carryOver]
    split
    · exact h
    · exact h.annotate writes _
  | clear => exact .empty bound

theorem Below.annotationAt (h : st.Below bound) {id : NodeId} (above : bound ≤ id) :
    st.annotationAt id = ∅ := by
  rw [Store.annotationAt, (h id above).2]
  rfl

theorem Below.bagAt (h : st.Below bound) {id : NodeId} (above : bound ≤ id) : st.bagAt id = ∅ := by
  rw [Store.bagAt, (h id above).1]
  rfl

end Store

namespace Session

/-- What can happen in a session. -/
inductive Step : Session → Session → Prop
  | identity (s) : Step s { s with nextId := s.nextId + 1 }
  | call (s) (c : NamedCall) (writes : c.2.WritesBelow s.nextId) : Step s (s.afterCall c)
  | journal (s) (journal) : Step s { s with journal := journal }

abbrev Reaches : Session → Session → Prop := Relation.ReflTransGen Step

/-- The session comes up after a start without anything attached. -/
def Reachable (s : Session) : Prop := ∃ first journal, (fresh first journal).Reaches s

variable {s s' : Session}

theorem Step.reaches (h : s.Step s') : s.Reaches s' := .single h

theorem Reachable.trans (h : s.Reachable) (h' : s.Reaches s') : s'.Reachable := by
  obtain ⟨first, journal, start⟩ := h
  exact ⟨first, journal, Relation.ReflTransGen.trans start h'⟩

@[simp] theorem nextId_afterCall (s : Session) (c : NamedCall) :
    (s.afterCall c).nextId = s.nextId := by
  obtain ⟨name, call⟩ := c
  cases name <;> rfl

/-- In no store anything is attached to an identity that is yet to come. -/
def Attached (s : Session) : Prop := ∀ r, (s.store r).Below s.nextId

theorem Step.attached (h : s.Step s') (attached : s.Attached) : s'.Attached := by
  intro r
  have before := attached r
  cases h with
  | identity => cases r <;> exact before.mono (Nat.le_succ _)
  | call c writes =>
    rw [nextId_afterCall, store_afterCall]
    split
    · exact before.apply writes
    · exact before
  | journal journal => cases r <;> exact before

theorem Reachable.attached (h : s.Reachable) : s.Attached := by
  obtain ⟨first, journal, start⟩ := h
  induction start with
  | refl => rintro (_ | name) <;> exact .empty _
  | tail _ step ih => exact step.attached ih

end Session

namespace Authoring

open Session

variable {α β : Type} {s : Session} {known : List Node}

/-- However the run ends, it has gone through steps; and its result is as claimed. -/
def Steps (s : Session) (run : Authoring α) (claim : α → NodeId → Prop) : Prop :=
  Along Reaches s run claim

theorem Steps.pure {claim : α → NodeId → Prop} {a : α} (h : claim a s.nextId) :
    Steps s (pure a) claim := ⟨.refl, h⟩

theorem Steps.throw (f : Fault) (claim : α → NodeId → Prop) : Steps s (throw f) claim :=
  Relation.ReflTransGen.refl

theorem Steps.bind {run : Authoring α} {next : α → Authoring β} {claim : α → NodeId → Prop}
    {claim' : β → NodeId → Prop} (h : Steps s run claim)
    (h' : ∀ a s', claim a s'.nextId → Steps s' (next a) claim') :
    Steps s (run >>= next) claim' :=
  Along.bind Relation.ReflTransGen.trans h fun a s' _ => h' a s'

theorem freshId_steps : Steps s freshId fun id bound => id < bound :=
  ⟨(Step.identity s).reaches, Nat.lt_succ_self _⟩

theorem updateStore_steps (r : Option String) (call : Store.Call)
    (writes : call.WritesBelow s.nextId) :
    Steps s (updateStore r call.apply) fun _ bound => s.nextId = bound :=
  ⟨(Step.call s (r, call) writes).reaches, (nextId_afterCall s (r, call)).symm⟩

theorem traced_steps (run : Traced α) : Steps s (traced run) fun _ _ => True := by
  unfold Steps Along traced
  cases run s.journal with
  | ok a j => exact ⟨(Step.journal s j).reaches, trivial⟩
  | error f j => exact (Step.journal s j).reaches

/-- Whatever is run in a session that can come up leaves one that can. -/
theorem Steps.reachable {run : Authoring α} {claim : α → NodeId → Prop} (h : Steps s run claim)
    (before : s.Reachable) : (outcome run s).2.Reachable := by
  unfold Steps Along at h
  unfold outcome
  cases hr : run s with
  | ok a s' =>
    rw [hr] at h
    exact before.trans h.1
  | error f s' =>
    rw [hr] at h
    exact before.trans h

theorem base_steps (form : Form) : Steps s (base form) fun node bound => node.id < bound :=
  freshId_steps.bind fun _ _ lt => .pure lt

theorem object_steps (shape : List (String × Node)) :
    Steps s (object shape) fun node bound => node.id < bound := base_steps _

theorem wrap_steps (modifier : Modifier) (inner : Node) :
    Steps s (wrap modifier inner) fun node bound => node.id < bound :=
  freshId_steps.bind fun _ _ lt => .pure lt

theorem annotateField_steps {node : Node} (there : node.id < s.nextId) (options : Bag)
    (named : Options) :
    Steps s (annotateField node options named) fun node bound => node.id < bound :=
  (updateStore_steps none (.attach node.id _) there).bind fun _ _ same =>
    .pure (same ▸ there)

theorem annotateSchema_steps {node : Node} (there : node.id < s.nextId) (options : SchemaOptions)
    (named : Options) (members : Members) :
    Steps s (annotateSchema node options named members) fun node bound => node.id < bound := by
  obtain ⟨f, refused⟩ | ⟨a, attached⟩ := annotateSchema_eq node options named members
  · rw [refused]
    exact .throw _ _
  · rw [attached]
    exact (updateStore_steps none (.annotate node.id a) there).bind fun _ _ same =>
      .pure (same ▸ there)

theorem extend_steps (node : Node) (shape : List (String × Node)) :
    Steps s (extend node shape) fun node bound => node.id < bound :=
  (object_steps _).bind fun extended _ there =>
    (updateStore_steps none (.carryOver node.id extended.id) there).bind fun _ _ same =>
      .pure (same ▸ there)

theorem timestampEntry_steps (names : List String) (name : Option String) :
    Steps s (timestampEntry names name) fun _ _ => True := by
  cases name with
  | none => exact .pure trivial
  | some name =>
    have field : Steps s (timestamp names) fun node bound => node.id < bound :=
      (base_steps (.scalar .date)).bind fun _ _ there => annotateField_steps there ∅ (flags names)
    exact field.bind fun _ _ _ => .pure trivial

theorem timestamps_steps (created updated : Option String) :
    Steps s (timestamps created updated) fun node bound => node.id < bound := by
  obtain ⟨name, -, -, refused⟩ | ⟨-, made⟩ := timestamps_eq created updated
  · rw [refused]
    exact .throw _ _
  rw [made]
  refine (timestampEntry_steps _ created).bind fun first _ _ => ?_
  refine (timestampEntry_steps _ updated).bind fun second _ _ => ?_
  refine (traced_steps _).bind fun _ _ _ => ?_
  exact (object_steps _).bind fun node _ there => annotateSchema_steps there _ _ _

/-- The calls that give a node are made of steps. -/
theorem Builder.steps {run : Authoring Node} (h : Builder known run)
    (there : ∀ node ∈ known, node.id < s.nextId) :
    Steps s run fun node bound => node.id < bound := by
  cases h with
  | base parts => exact base_steps _
  | object parts => exact object_steps _
  | wrap modifier part => exact wrap_steps modifier _
  | nullish part => exact (wrap_steps .nullable _).bind fun _ _ _ => wrap_steps .optional _
  | annotateField options named part => exact annotateField_steps (there _ part) options named
  | annotateSchema options named members part =>
    exact annotateSchema_steps (there _ part) options named members
  | extend part parts => exact extend_steps _ _
  | timestamps created updated => exact timestamps_steps created updated

theorem Builder.reachable {run : Authoring Node} (h : Builder known run)
    (there : ∀ node ∈ known, node.id < s.nextId) (before : s.Reachable) :
    (outcome run s).2.Reachable :=
  (h.steps there).reachable before

end Authoring

end MapperSchema
