import MapperSchema.Proofs.Annotation.Merging
import MapperSchema.Store

/-! Calls on a store, and what each of them does to the two readings of one node. A reading is made
of the parts that were added to it since it was last dropped. -/
namespace MapperSchema.Store

/-- What is attached adds to what was there, and stands alone if nothing was. -/
theorem annotationAt_annotate_self (s : Store) (id : NodeId) (a : Annotation) :
    (s.annotate id a).annotationAt id = (s.annotationAt id).merge a := by
  cases h : s.annotations.get? id with
  | none => simp [annotate, annotationAt, h]
  | some old => simp [annotate, annotationAt, h]

/-- The target of a copy gets what its source has. -/
theorem annotationAt_carryOver_self (s : Store) (source target : NodeId) :
    (s.carryOver source target).annotationAt target =
      (s.annotationAt target).merge (s.annotationAt source) := by
  unfold carryOver
  cases had : s.annotations.get? source with
  | none => simp [annotationAt, had]
  | some a =>
    have got : s.annotationAt source = a := by simp [annotationAt, had]
    rw [got]
    exact s.annotationAt_annotate_self target a

/-- The calls that change a store. -/
inductive Call where
  | attach (id : NodeId) (options : Bag)
  | annotate (id : NodeId) (a : Annotation)
  | carryOver (source target : NodeId)
  | clear

/-- What happens to a reading. -/
inductive Change (α : Type) where
  | add (part : α)
  | drop

/-- The parts of a reading after a change. -/
def Change.onto {α : Type} (parts : List α) : Change α → List α
  | .add part => parts ++ [part]
  | .drop => []

/-- What has been added since the last drop. -/
def standing {α : Type} (changes : List (Change α)) : List α := changes.foldl Change.onto []

namespace Call

def apply : Call → Store → Store
  | .attach id options, s => s.addToBag id options
  | .annotate id a, s => s.annotate id a
  | .carryOver source target, s => s.carryOver source target
  | .clear, _ => ∅

/-- What a call does to the bag of a node. -/
def bagChange? (id : NodeId) : Call → Option (Change Bag)
  | .attach id' options => if id' = id then some (.add options) else none
  | .clear => some .drop
  | _ => none

/-- What a call does to the annotation of a node. A copy adds what its source has in the store as
it is then, if it has anything. -/
def annotationChange? (before : Store) (id : NodeId) : Call → Option (Change Annotation)
  | .annotate id' a => if id' = id then some (.add a) else none
  | .carryOver source target =>
    if target = id then (before.annotations.get? source).map .add else none
  | .clear => some .drop
  | .attach _ _ => none

/-- The call is about the bag of this node, or about all. -/
def AboutBag (id : NodeId) : Call → Prop
  | .attach id' _ => id' = id
  | .clear => True
  | _ => False

/-- The call is about the annotation of this node, or about all. -/
def AboutSchema (id : NodeId) : Call → Prop
  | .annotate id' _ => id' = id
  | .carryOver _ target => target = id
  | .clear => True
  | .attach _ _ => False

variable {s : Store} {id : NodeId}

theorem bagAt_apply (call : Call) (h : ¬call.AboutBag id) :
    (call.apply s).bagAt id = s.bagAt id := by
  cases call with
  | attach id' options => exact (bagAt_addToBag s id' id options).trans (if_neg h)
  | annotate id' a => rfl
  | carryOver source target => exact bagAt_carryOver s source target id
  | clear => exact absurd trivial h

theorem annotationAt_apply (call : Call) (h : ¬call.AboutSchema id) :
    (call.apply s).annotationAt id = s.annotationAt id := by
  cases call with
  | attach id' options => rfl
  | annotate id' a => exact s.annotationAt_annotate_ne a h
  | carryOver source target =>
    rw [apply, Store.carryOver]
    split
    · rfl
    · exact s.annotationAt_annotate_ne _ h
  | clear => exact absurd trivial h

end Call

/-- The annotation made of some parts. The first is kept as it is. -/
def whole? : List Annotation → Option Annotation
  | [] => none
  | a :: parts => some (parts.foldl Annotation.merge a)

theorem getD_whole? (parts : List Annotation) :
    (whole? parts).getD ∅ = parts.foldl Annotation.merge ∅ := by
  cases parts with
  | nil => rfl
  | cons a parts => rw [List.foldl_cons, Annotation.empty_merge]; rfl

/-- A node's readings are made of these parts. -/
structure Keeps (s : Store) (id : NodeId) (bags : List Bag) (annotations : List Annotation) :
    Prop where
  bag : s.bagAt id = bags.foldl Table.merge ∅
  annotation : s.annotations.get? id = whole? annotations

variable {s : Store} {id : NodeId} {bags : List Bag} {annotations : List Annotation}

theorem Keeps.empty (id : NodeId) : (∅ : Store).Keeps id [] [] := ⟨rfl, rfl⟩

theorem Keeps.annotationAt (h : s.Keeps id bags annotations) :
    s.annotationAt id = annotations.foldl Annotation.merge ∅ := by
  rw [Store.annotationAt, h.annotation, getD_whole?]

theorem Keeps.annotate (h : s.Keeps id bags annotations) (target : NodeId) (a : Annotation) :
    (s.annotate target a).Keeps id bags
      (if target = id then annotations ++ [a] else annotations) where
  bag := h.bag
  annotation := by
    by_cases same : target = id
    · subst same
      rw [if_pos rfl]
      cases annotations with
      | nil => simp [Store.annotate, h.annotation, whole?]
      | cons first parts => simp [Store.annotate, h.annotation, whole?]
    · simp [Store.annotate, same, h.annotation]

/-- One call changes the parts as it says. -/
theorem Keeps.apply (h : s.Keeps id bags annotations) (call : Call) :
    (call.apply s).Keeps id ((call.bagChange? id).toList.foldl Change.onto bags)
      ((call.annotationChange? s id).toList.foldl Change.onto annotations) := by
  cases call with
  | attach id' options =>
    refine ⟨?_, h.annotation⟩
    by_cases same : id' = id
    · simp [Call.apply, Call.bagChange?, same, h.bag, Change.onto]
    · simp [Call.apply, Call.bagChange?, same, h.bag]
  | annotate id' a =>
    have kept := h.annotate id' a
    by_cases same : id' = id
    · simpa [Call.apply, Call.bagChange?, Call.annotationChange?, Change.onto, same] using kept
    · simpa [Call.apply, Call.bagChange?, Call.annotationChange?, same] using kept
  | carryOver source target =>
    cases had : s.annotations.get? source with
    | none =>
      simpa [Call.apply, Store.carryOver, Call.bagChange?, Call.annotationChange?, had] using h
    | some a =>
      have kept := h.annotate target a
      have copied : (Call.carryOver source target).apply s = s.annotate target a := by
        rw [Call.apply, Store.carryOver, had]
      rw [copied]
      by_cases same : target = id
      · simpa [Call.bagChange?, Call.annotationChange?, Change.onto, had, same] using kept
      · simpa [Call.bagChange?, Call.annotationChange?, same] using kept
  | clear => exact .empty id

end MapperSchema.Store
