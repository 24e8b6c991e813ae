import Mathlib.Logic.Basic
import MapperSchema.Proofs.Journal.Writing

/-! The journal with which a run begins another one that is a part of it. It shows in what becomes
of the whole if the part fails. -/
namespace MapperSchema.Traced

variable {α β γ : Type} {j j' : Journal}

/-- Begun with the first journal, what is around a run begins it with the second: wherever the run
fails with that journal, the whole fails for it. -/
def Begins (around : Traced α → Traced β) (j j' : Journal) : Prop :=
  ∀ run f, run.outcome j' = .error f → (around run).outcome j = .error f

/-- A run that fails in one way with this journal, and in another way with all others. -/
noncomputable def failing (j : Journal) (f g : Fault) : Traced α := fun i =>
  open Classical in if i = j then .error f i else .error g i

theorem outcome_failing (j : Journal) (f g : Fault) :
    (failing j f g : Traced α).outcome j = .error f := by
  rw [outcome, failing, if_pos rfl]

theorem outcome_failing_of_ne {i : Journal} (other : i ≠ j) (f g : Fault) :
    (failing j f g : Traced α).outcome i = .error g := by
  rw [outcome, failing, if_neg other]

/-- A run that comes first is begun with the journal of the whole. -/
theorem begins_first_iff (next : α → Traced β) :
    Begins (fun run => run >>= next) j j' ↔ j' = j := by
  constructor
  · intro begins
    by_cases same : j = j'
    · exact same.symm
    · have part := begins (failing j' (.other "") (.invalidOptions [])) _ (outcome_failing ..)
      have whole := outcome_bind_of_error next
        (outcome_failing_of_ne (α := α) same (.other "") (.invalidOptions []))
      cases whole.symm.trans part
  · rintro rfl run f failed
    exact outcome_bind_of_error next failed

theorem outcome_bind_of_run_ok {first : Traced γ} {x : γ} {i : Journal} (done : first j = .ok x i)
    (next : γ → Traced β) : (first >>= next).outcome j = (next x).outcome i := by
  unfold outcome
  rw [bind_of_ok next done]

/-- A run that comes after another is begun with the journal that the other one leaves. -/
theorem begins_after_iff {first : Traced γ} (around : γ → Traced α → Traced β) :
    Begins (fun run => first >>= fun x => around x run) j j' ↔
      ∃ x i, first j = .ok x i ∧ Begins (around x) i j' := by
  constructor
  · intro begins
    cases done : first j with
    | ok x i =>
      refine ⟨x, i, rfl, fun run f failed => ?_⟩
      rw [← outcome_bind_of_run_ok done fun x => around x run]
      exact begins run f failed
    | error g i =>
      have stopped : first.outcome j = .error g := by rw [outcome, done]
      have whole (f : Fault) : g = f := Except.error.inj
        ((outcome_bind_of_error _ stopped).symm.trans (begins (throw f) f rfl))
      cases (whole (.other "")).symm.trans (whole (.invalidOptions []))
  · rintro ⟨x, i, done, begins⟩ run f failed
    rw [outcome_bind_of_run_ok done fun x => around x run]
    exact begins run f failed

theorem outcome_map (run : Traced α) (g : α → β) (j : Journal) :
    (run >>= fun x => pure (g x)).outcome j = (run.outcome j).map g := by
  cases done : run j with
  | ok x i =>
    rw [outcome_bind_of_run_ok done, outcome, outcome, done]
    rfl
  | error f i =>
    have stopped : run.outcome j = .error f := by rw [outcome, done]
    rw [outcome_bind_of_error _ stopped, stopped]
    rfl

/-- What is made of the result does not matter. -/
theorem begins_map_iff (around : Traced α → Traced β) (g : β → γ) :
    Begins (fun run => around run >>= fun x => pure (g x)) j j' ↔ Begins around j j' := by
  refine forall₃_congr fun run f failed => ?_
  rw [outcome_map]
  cases (around run).outcome j <;> simp [Except.map]

/-- Within further variables a run is begun with the journal in which they are bound. -/
theorem begins_within_iff (values : Options) (around : Traced α → Traced β) :
    Begins (fun run => within values (around run)) j j' ↔
      Begins around { j with context := (j.context.bind values).1 } j' :=
  forall₃_congr fun run f failed => by rw [outcome_within]

theorem outcome_watch (name : String) (run : Operation → Traced α) (j : Journal) :
    (Operation.watch name run).outcome j =
      (run ⟨name, true⟩).outcome (j.addAll [⟨.started name, j.context⟩]) := by
  cases ended : (run ⟨name, true⟩) (j.addAll [⟨.started name, j.context⟩]) with
  | ok a i =>
    rw [outcome_of_run (r := .ok a) (watch_of_ok ended), outcome, ended]
  | error f i =>
    rw [outcome_of_run (r := .error f) (watch_of_error ended), outcome, ended]

/-- An operation is begun with the journal in which its start is reported. -/
theorem begins_watch_iff (name : String) (around : Operation → Traced α → Traced β) :
    Begins (fun run => Operation.watch name fun operation => around operation run) j j' ↔
      Begins (around ⟨name, true⟩) (j.addAll [⟨.started name, j.context⟩]) j' :=
  forall₃_congr fun run f failed => by rw [outcome_watch]

end MapperSchema.Traced
