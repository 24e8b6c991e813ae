import MapperSchema.Proofs.Compiler.Attachment
import MapperSchema.Proofs.Compiler.Tasks

/-! Context variables through a compile. Every task leaves them as it found them, however it ends,
and an entry of an object starts with the path of that object and with all else as it was at first.
Stores are not written to. -/
namespace MapperSchema

namespace Compiler

variable {c : Compiler}

theorem context_schema (c : Compiler) (node : Node) (extra : Option Annotation) (path : Path)
    (j : Journal) : ((c.schema node extra path).journal j).context = j.context := by
  rw [Traced.journal_of_run (c.schema_run node extra path j), Journal.context_addAll]

theorem context_field (c : Compiler) (node : Node) (a : Option Annotation) (name : Option String)
    (path : Path) (j : Journal) : ((c.field node a name path).journal j).context = j.context := by
  rw [Traced.journal_of_run (c.field_run node a name path j), Journal.context_addAll]

theorem context_compile (c : Compiler) (node : Node) (options : SchemaOptions) (j : Journal) :
    ((c.compile node options).journal j).context = j.context := by
  cases valid : options.read with
  | ok a => rw [compile_journal valid, Journal.context_addAll]
  | error issues =>
    rw [compile_of_unread valid]
    rfl

theorem Task.context_run (c : Compiler) (task : Task) (j : Journal) :
    ((task.run c).journal j).context = j.context := by
  cases task with
  | document node options => exact c.context_compile node options j
  | object node extra path => exact c.context_schema node extra path j
  | field node a name path => exact c.context_field node a name path j

theorem context_of_entries {before : List (String × Node)} {path : Path} {a : Annotation}
    {j j' : Journal} {fields : List (String × Field)}
    (walked : c.entries path a before { j with context := j.context.under (some path) } =
      .ok fields j') : j'.context = j.context.under (some path) := by
  have follows : c.Follows (some path) (c.entries path a before) _ _ :=
    entries_follows fun _ _ => fieldRun_follows nodeType_follows
  have run := Traced.journal_of_run
    (follows j.context { j with context := j.context.under (some path) } rfl)
  rw [Traced.journal_of_run (r := .ok fields) walked] at run
  exact congrArg Journal.context run

/-- An entry is begun with the path of the object, whatever came before it. -/
theorem Starts.context_entry {node : Node} {extra : Option Annotation} {path : Path} {j : Journal}
    {m : Moment} (h : c.Starts (.object node extra path, j) m) :
    m.2.context = j.context.under (some path) := by
  obtain ⟨part, begins⟩ := h
  cases part with
  | entry base =>
    obtain ⟨fields, walked⟩ := begins_aroundEntry_iff.1 begins
    exact context_of_entries walked

theorem Starts.context {m m' : Moment} (h : c.Starts m m') :
    ∃ home, m'.2.context = m.2.context.under home := by
  cases h with
  | @part _ _ _ j j' part begins =>
    cases part with
    | root valid =>
      obtain rfl := begins_aroundRoot_iff.1 begins
      exact ⟨none, rfl⟩
    | entry base => exact ⟨_, (Starts.part (.entry base) begins).context_entry⟩
    | inner base | element base =>
      obtain rfl := begins_aroundInside_iff.1 begins
      exact ⟨none, rfl⟩

/-- Of all the objects around a task only one shows, if any: it hides those around it. -/
theorem context_reached {m m' : Moment} (h : Relation.ReflTransGen c.Starts m m') :
    ∃ home, m'.2.context = m.2.context.under home := by
  induction h with
  | refl => exact ⟨none, rfl⟩
  | tail _ step ih =>
    obtain ⟨outer, ih⟩ := ih
    obtain ⟨home, inner⟩ := step.context
    cases home with
    | none => exact ⟨outer, inner.trans ih⟩
    | some path => exact ⟨some path, by rw [inner, ih, Context.under_under]⟩

/-- A task on the way of another, which began at `start`, and the context that it works in. -/
structure Framed (c : Compiler) (start m : Moment) : Prop where
  kept : ((m.1.run c).journal m.2).context = m.2.context
  fails : ∀ f, (m.1.run c).outcome m.2 = .error f → (start.1.run c).outcome start.2 = .error f
  /-- When an entry of an object is begun, only the path is another than at first. -/
  bound : ∀ node extra path, m.1 = .object node extra path → ∀ m', c.Starts m m' → ∀ k,
    m'.2.context.get? k =
      if k = "schema_path" then some (.text (if path.text = "" then "<root>" else path.text))
      else start.2.context.get? k
  /-- A task that does not fail begins all its parts. -/
  started : ∀ part around, c.Part m.1 part around → (∀ f, (m.1.run c).outcome m.2 ≠ .error f) →
    ∃ j, c.Starts m (part, j)

theorem framed_of_reached {start m : Moment} (h : Relation.ReflTransGen c.Starts start m) :
    c.Framed start m := by
  obtain ⟨task, j⟩ := m
  constructor
  case kept => exact task.context_run c j
  case fails => exact fun f => fails_of_reached h
  case bound =>
    rintro node extra path rfl m' step k
    obtain ⟨home, context⟩ := context_reached h
    rw [step.context_entry, context, Context.under_under, Context.get?_under]
    rfl
  case started => exact fun part around h good => h.starts good

end Compiler

/-- Nothing has changed but what the journal holds. -/
structure Session.Kept (s s' : Session) : Prop where
  context : s'.journal.context = s.journal.context
  bags : ∀ r, (s'.store r).bags = (s.store r).bags
  annotations : ∀ r, (s'.store r).annotations = (s.store r).annotations

namespace Authoring

open Compiler

theorem kept_traced {α : Type} {run : Traced α} {s : Session}
    (h : (run.journal s.journal).context = s.journal.context) :
    s.Kept (outcome (traced run) s).2 := by
  have store : ∀ r, (outcome (traced run) s).2.store r = s.store r := fun r => by
    rw [outcome_traced]
    cases r <;> rfl
  constructor
  · rw [outcome_traced]
    exact h
  · exact fun r => congrArg Store.bags (store r)
  · exact fun r => congrArg Store.annotations (store r)

/-- Every compile, of a document, of an object or of a field, leaves the context and all stores as
they were, whether it fails or not. So does every task on its way. A task is run as a part of the
task that begins it, and the entries of an object are begun in the context of the whole but for the
path, which is that of the object. -/
theorem context_survives :
    (∀ (s : Session) r strict node options, s.Kept (outcome (compile r strict node options) s).2) ∧
      (∀ (s : Session) r strict node extra path,
        s.Kept (outcome (compileSchema r strict node extra path) s).2) ∧
      (∀ (s : Session) r strict node a name path,
        s.Kept (outcome (compileField r strict node a name path) s).2) ∧
      (∀ (c : Compiler) whole part around, c.Part whole part around →
        whole.run c = around (part.run c)) ∧
      ∀ (c : Compiler) start m, Relation.ReflTransGen c.Starts start m → c.Framed start m :=
  ⟨fun _ _ _ node options => kept_traced (context_compile _ node options _),
    fun _ _ _ node extra path => kept_traced (context_schema _ node extra path _),
    fun _ _ _ node a name path => kept_traced (context_field _ node a name path _),
    fun _ _ _ _ => Part.run_eq, fun _ _ _ => framed_of_reached⟩

/-- A title after an author with a name of its own, compiled for a user while another schema is. -/
theorem context_survives_title :
    let author : Node := .base 1 (.object [("name", .base 0 (.scalar .string))])
    let title : Node := .base 2 (.scalar .string)
    let root : Node := .base 3 (.object [("author", author), ("title", title)])
    let j : Journal :=
      { context := Table.ofList [("schema_path", .text "library"), ("user", .text "ada")] }
    ∃ a j', Relation.ReflTransGen ({} : Compiler).Starts (.document root (.untyped .null), j)
        (.field title a (some "title") ["title"], j') ∧
      j'.context.get? "schema_path" = some (.text "<root>") ∧
      j'.context.get? "user" = some (.text "ada") := by
  intro author title root j
  obtain ⟨-, -, -, -, tasks⟩ := context_survives
  let c : Compiler := {}
  let document : Task := .document root (.untyped .null)
  let object : Task := .object root (some ∅) []
  have whole : c.Part document object _ := .root rfl
  have split : root.unwrap.form = .object ([("author", author)] ++ ("title", title) :: []) := rfl
  have entry : c.Part object (.field title _ (some "title") ["title"]) _ := .entry split
  obtain ⟨i, first⟩ := (tasks c (document, j) (document, j) .refl).started _ _ whole
    fun f failed => by cases failed
  have framed := tasks c (document, j) (object, i) (.single first)
  have good : ∀ f, (object.run c).outcome i ≠ .error f := by
    intro f failed
    cases framed.fails f failed
  obtain ⟨j', second⟩ := framed.started _ _ entry good
  have bound := framed.bound _ _ _ rfl _ second
  exact ⟨_, j', .tail (.single first) second, bound "schema_path", bound "user"⟩

end Authoring

end MapperSchema
