import MapperSchema.Annotation.Basic
import MapperSchema.Validator.Node

/-! Stores of attached options. A store keeps two readings of every node, both empty until
something is attached: a bag of field options and a schema annotation. -/
namespace MapperSchema

structure Store where
  bags : Table NodeId Bag := ∅
  annotations : Table NodeId Annotation := ∅

namespace Store

def empty : Store := {}

instance : EmptyCollection Store := ⟨empty⟩
instance : Inhabited Store := ⟨empty⟩

def bagAt (s : Store) (id : NodeId) : Bag := (s.bags.get? id).getD ∅

def annotationAt (s : Store) (id : NodeId) : Annotation := (s.annotations.get? id).getD ∅

def addToBag (s : Store) (id : NodeId) (options : Bag) : Store :=
  { s with bags := s.bags.insert id ((s.bagAt id).merge options) }

/-- A node's first annotation is kept as it is; later ones are merged into it. -/
def annotate (s : Store) (id : NodeId) (a : Annotation) : Store :=
  { s with annotations := s.annotations.insert id (match s.annotations.get? id with
      | none => a
      | some old => old.merge a) }

/-- Gives the target what the source has at this moment, if it has anything. -/
def carryOver (s : Store) (source target : NodeId) : Store :=
  match s.annotations.get? source with
  | none => s
  | some a => s.annotate target a

@[simp] theorem bagAt_addToBag (s : Store) (id id' : NodeId) (options : Bag) :
    (s.addToBag id options).bagAt id' =
      if id = id' then (s.bagAt id).merge options else s.bagAt id' := by
  by_cases h : id = id' <;> simp [addToBag, bagAt, h]

@[simp] theorem bagAt_annotate (s : Store) (id id' : NodeId) (a : Annotation) :
    (s.annotate id a).bagAt id' = s.bagAt id' := rfl

theorem annotationAt_annotate_ne (s : Store) {id id' : NodeId} (a : Annotation) (h : id ≠ id') :
    (s.annotate id a).annotationAt id' = s.annotationAt id' := by
  simp [annotate, annotationAt, h]

@[simp] theorem bagAt_carryOver (s : Store) (source target id : NodeId) :
    (s.carryOver source target).bagAt id = s.bagAt id := by
  unfold carryOver
  split <;> simp

end Store

end MapperSchema
