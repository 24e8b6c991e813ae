import MapperSchema.Authoring
import MapperSchema.Proofs.Annotation.Complaints

/-! Coercion of schema options. An annotation comes out of exactly the options that denote one;
others are refused with everything that is wrong with them. -/
namespace MapperSchema.Authoring

open Annotation

variable {s : Session} {o : SchemaOptions}

/-- Options are refused for what is wrong with them: each thing once, in order. -/
structure Refuses (o : SchemaOptions) (f : Fault) : Prop where
  name : f.name = "SchemaOptionsError"
  message : f.message = "Invalid schema options"
  complaints : ∃ issues, f.cause? = some issues ∧ issues ≠ [] ∧ Lists o.Wrong issues ∧
    f.errors = issues.map Issue.text

theorem outcome_readOptions_eq_ok_iff {a : Annotation} :
    outcome (readOptions o) s = (.ok a, s) ↔ o.Denotes Key.Spells a := by
  rw [← SchemaOptions.read_eq_ok_iff]
  unfold readOptions
  cases o.read with
  | ok b =>
    change (Except.ok b, s) = _ ↔ _
    simp
  | error issues =>
    change (Except.error _, s) = _ ↔ _
    simp

theorem exists_refuses (none : ∀ a, ¬o.Denotes Key.Spells a) :
    ∃ f, outcome (readOptions o) s = (.error f, s) ∧ Refuses o f := by
  cases read : o.read with
  | ok a => exact absurd (SchemaOptions.read_eq_ok_iff.1 read) (none a)
  | error issues =>
    refine ⟨.invalidOptions issues, ?_, rfl, rfl, issues, rfl, ?_⟩
    · rw [readOptions, read]
      rfl
    · obtain ⟨some, listed⟩ := SchemaOptions.lists_of_read_eq_error read
      exact ⟨some, listed, rfl⟩

/-- A table given as a mapping denotes what its rows denote. -/
theorem denotes_toValue_iff {given : Bag} {members : Members} {a : Annotation} :
    (SchemaOptions.untyped given.toValue members).Denotes Key.Spells a ↔
      Denoted (Key.Spells members) given.rows a := by
  have rows : (Table.ofList given.rows).rows = given.rows := by rw [Table.ofList_rows]
  constructor
  · intro denotes
    unfold Table.toValue at denotes
    cases denotes with
    | mapping denoted => rwa [rows] at denoted
  · intro denoted
    rw [← rows] at denoted
    exact .mapping denoted

/-- The keys are texts and nothing else. -/
def TextOnly (_ : Members) (k : Key) (s : String) : Prop := k = .text s

end MapperSchema.Authoring
