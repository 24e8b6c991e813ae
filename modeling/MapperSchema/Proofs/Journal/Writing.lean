import MapperSchema.Journal.Operation

/-! What a run writes: its entries in order, those below the threshold left out, and the context
that each of them is written in. -/
namespace MapperSchema

namespace Journal

def keeps (j : Journal) (e : Entry) : Bool := j.threshold ≤ e.event.severity.number

/-- Adds the entries at or above the threshold. -/
def addAll (j : Journal) (es : List Entry) : Journal :=
  { j with entries := j.entries ++ es.filter j.keeps }

@[simp] theorem context_addAll (j : Journal) (es : List Entry) :
    (j.addAll es).context = j.context := rfl

@[simp] theorem addAll_nil (j : Journal) : j.addAll [] = j := by simp [addAll]

@[simp] theorem keeps_addAll (j : Journal) (es : List Entry) : (j.addAll es).keeps = j.keeps := rfl

@[simp] theorem addAll_addAll (j : Journal) (es fs : List Entry) :
    (j.addAll es).addAll fs = j.addAll (es ++ fs) := by
  rw [addAll, keeps_addAll]
  simp [addAll]

theorem add_eq_addAll (j : Journal) (e : Event) : j.add e = j.addAll [⟨e, j.context⟩] := by
  unfold add addAll
  split <;> simp_all [keeps]

/-- Nothing is below the threshold zero. -/
theorem entries_addAll_of_zero {j : Journal} (h : j.threshold = 0) (es : List Entry) :
    (j.addAll es).entries = j.entries ++ es := by
  have hk : ∀ e ∈ es, j.keeps e := by simp [keeps, h]
  rw [addAll, List.filter_eq_self.2 hk]

end Journal

/-- The context of what is written in an object schema, or outside of any. -/
def Context.under (ctx : Context) : Option Path → Context
  | none => ctx
  | some path => (ctx.bind (Table.single "schema_path" (.text path.location))).1

/-- Only the innermost object schema shows. -/
@[simp] theorem Context.under_under (ctx : Context) (home : Option Path) (path : Path) :
    (ctx.under home).under (some path) = ctx.under (some path) := by
  cases home with
  | none => rfl
  | some outer => exact Table.ext (Table.writeRow_writeRow _ _ _ _)

/-- Under a schema path that variable shows the path, and all others what they showed. -/
theorem Context.get?_under (ctx : Context) (path : Path) (k : String) :
    (ctx.under (some path)).get? k =
      if k = "schema_path" then some (.text path.location) else ctx.get? k := by
  change (Table.merge ctx _).get? k = _
  rw [Table.get?_merge, Table.get?_single]
  by_cases h : k = "schema_path"
  · simp [h]
  · have other : ("schema_path" == k) = false := by simpa using Ne.symm h
    simp [h, other]

/-- A run comes to this end with this journal. -/
def ending {α : Type} (r : Except Fault α) (j : Journal) : EStateM.Result Fault Journal α :=
  match r with
  | .ok a => .ok a j
  | .error f => .error f j

namespace Traced

variable {α β : Type}

def outcome (run : Traced α) (j : Journal) : Except Fault α :=
  match run j with
  | .ok a _ => .ok a
  | .error f _ => .error f

/-- The journal that a run leaves, however it ends. -/
def journal (run : Traced α) (j : Journal) : Journal :=
  match run j with
  | .ok _ j' => j'
  | .error _ j' => j'

theorem outcome_of_run {run : Traced α} {j j' : Journal} {r : Except Fault α}
    (h : run j = ending r j') : run.outcome j = r := by
  rw [outcome, h]
  cases r <;> rfl

theorem journal_of_run {run : Traced α} {j j' : Journal} {r : Except Fault α}
    (h : run j = ending r j') : run.journal j = j' := by
  rw [journal, h]
  cases r <;> rfl

theorem bind_of_ok {run : Traced α} {j j' : Journal} {a : α} (next : α → Traced β)
    (h : run j = ending (.ok a) j') : (run >>= next) j = next a j' := by
  change EStateM.bind run next j = _
  rw [EStateM.bind, h]
  rfl

theorem bind_of_error {run : Traced α} {j j' : Journal} {f : Fault} (next : α → Traced β)
    (h : run j = ending (.error f) j') : (run >>= next) j = ending (.error f) j' := by
  change EStateM.bind run next j = _
  rw [EStateM.bind, h]
  rfl

theorem run_eq (run : Traced α) (j : Journal) : run j = ending (run.outcome j) (run.journal j) := by
  unfold outcome journal
  cases run j <;> rfl

theorem outcome_bind_of_error {run : Traced α} {j : Journal} {f : Fault} (next : α → Traced β)
    (h : run.outcome j = .error f) : (run >>= next).outcome j = .error f :=
  outcome_of_run (bind_of_error next ((run_eq run j).trans (by rw [h])))

/-- Variables that are bound are put back, and have no part in how the run ends. -/
theorem outcome_within (values : Options) (run : Traced α) (j : Journal) :
    (within values run).outcome j =
      run.outcome { j with context := (j.context.bind values).1 } := by
  have h := run_eq run { j with context := (j.context.bind values).1 }
  unfold within
  change (match (match run { j with context := (j.context.bind values).1 } with
    | .ok a j' => .ok a _ | .error f j' => .error f _ : EStateM.Result Fault Journal α) with
    | .ok a _ => _ | .error f _ => _) = _
  rw [h]
  cases run.outcome { j with context := (j.context.bind values).1 } <;> rfl

theorem emit_run (e : Event) (j : Journal) :
    emit e j = ending (.ok ()) (j.addAll [⟨e, j.context⟩]) := by
  rw [← Journal.add_eq_addAll]
  rfl

/-- A run under a schema path leaves the context as it was. -/
theorem within_run {run : Traced α} {j : Journal} {r : Except Fault α} {es : List Entry}
    (path : Path)
    (h : run { j with context := j.context.under (some path) } =
      ending r ({ j with context := j.context.under (some path) }.addAll es)) :
    within (Table.single "schema_path" (.text path.location)) run j = ending r (j.addAll es) := by
  have back := Context.restore_bind j.context "schema_path" (.text path.location)
  unfold within
  change (match run { j with context := j.context.under (some path) } with
    | .ok a j' => _ | .error f j' => _) = _
  rw [h]
  cases r with
  | ok a => exact congrArg (fun ctx => EStateM.Result.ok a { j.addAll es with context := ctx }) back
  | error f =>
    exact congrArg (fun ctx => EStateM.Result.error f { j.addAll es with context := ctx }) back

section Operation

variable {name : String} {run : Operation → Traced α} {j j' : Journal}

theorem watch_eq (name : String) (run : Operation → Traced α) (j : Journal) :
    Operation.watch name run j = Operation.ending ⟨name, true⟩ (run ⟨name, true⟩)
      (j.addAll [⟨.started name, j.context⟩]) :=
  bind_of_ok _ (bind_of_ok _ (emit_run (.started name) j))

/-- An operation that succeeds is reported as completed, in the context in which it ends. -/
theorem watch_of_ok {a : α}
    (h : run ⟨name, true⟩ (j.addAll [⟨.started name, j.context⟩]) = ending (.ok a) j') :
    Operation.watch name run j = ending (.ok a) (j'.addAll [⟨.completed name, j'.context⟩]) := by
  rw [watch_eq, Operation.ending, h]
  exact bind_of_ok _ (emit_run (.completed name) j')

theorem watch_of_error {f : Fault}
    (h : run ⟨name, true⟩ (j.addAll [⟨.started name, j.context⟩]) = ending (.error f) j') :
    Operation.watch name run j = ending (.error f) (j'.addAll [⟨.failed name f, j'.context⟩]) := by
  rw [watch_eq, Operation.ending, h]
  exact bind_of_ok _ (emit_run (.failed name f) j')

end Operation

end Traced

end MapperSchema
