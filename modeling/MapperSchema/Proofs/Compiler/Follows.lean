import MapperSchema.Proofs.Compiler.Visits
import MapperSchema.Proofs.Journal.Writing

/-! Runs that follow a list of visits: they write one entry for each, in order, and stop at the
first that is refused. -/
namespace MapperSchema.Compiler

variable {c : Compiler} {home : Option Path} {α β : Type}

/-- What a visit is refused with. -/
def visitFault? (c : Compiler) (v : Visit) : Option Fault := v.position?.bind c.fault?

@[simp] theorem visitFault?_field (c : Compiler) (home : Option Path) (p : Position) :
    c.visitFault? (.field home p) = c.fault? p := rfl

@[simp] theorem visitFault?_schema (c : Compiler) (path : Path) (names : List String) :
    c.visitFault? (.schema path names) = none := rfl

def event (c : Compiler) : Visit → Event
  | .field _ p => .fieldCompiled p.path (c.fieldOf p).options.keys
  | .schema _ names => .schemaCompiled names

/-- What is written of a visit. -/
def entryOf (c : Compiler) (ctx : Context) (v : Visit) : Entry := ⟨c.event v, ctx.under v.home⟩

def firstFault? (c : Compiler) (vs : List Visit) : Option Fault := vs.findSome? c.visitFault?

/-- The visits before the first that is refused. -/
def reached (c : Compiler) (vs : List Visit) : List Visit :=
  vs.takeWhile fun v => (c.visitFault? v).isNone

/-- The given result, unless a visit is refused. -/
def verdict (c : Compiler) (vs : List Visit) (a : α) : Except Fault α :=
  match c.firstFault? vs with
  | some f => .error f
  | none => .ok a

theorem firstFault?_append (vs ws : List Visit) :
    c.firstFault? (vs ++ ws) = (c.firstFault? vs).or (c.firstFault? ws) :=
  List.findSome?_append

theorem verdict_of_some {vs : List Visit} {f : Fault} (h : c.firstFault? vs = some f) (a : α) :
    c.verdict vs a = .error f := by rw [verdict, h]

theorem verdict_of_none {vs : List Visit} (h : c.firstFault? vs = none) (a : α) :
    c.verdict vs a = .ok a := by rw [verdict, h]

theorem reached_append_of_none {vs : List Visit} (h : c.firstFault? vs = none) (ws : List Visit) :
    c.reached (vs ++ ws) = vs ++ c.reached ws := by
  have hv : ∀ v ∈ vs, (c.visitFault? v).isNone := by simpa using List.findSome?_eq_none_iff.1 h
  exact List.takeWhile_append_of_pos hv

theorem reached_of_none {vs : List Visit} (h : c.firstFault? vs = none) : c.reached vs = vs := by
  simpa [reached] using reached_append_of_none h []

theorem reached_append_of_some {vs : List Visit} {f : Fault} (h : c.firstFault? vs = some f)
    (ws : List Visit) : c.reached (vs ++ ws) = c.reached vs := by
  induction vs with
  | nil => simp [firstFault?] at h
  | cons v vs ih =>
    cases hv : c.visitFault? v with
    | some g => simp [reached, hv]
    | none =>
      have ht := ih (by simpa [firstFault?, hv] using h)
      simpa [reached, hv] using ht

/-- In the home's context the run makes the visits, and ends with the result if none is refused. -/
def Follows (c : Compiler) (home : Option Path) (run : Traced α) (vs : List Visit) (a : α) : Prop :=
  ∀ (ctx : Context) (j : Journal), j.context = ctx.under home →
    run j = ending (c.verdict vs a) (j.addAll ((c.reached vs).map (c.entryOf ctx)))

theorem Follows.pure (a : α) : c.Follows home (pure a) [] a := by
  intro ctx j _
  simp only [reached, List.takeWhile_nil, List.map_nil, Journal.addAll_nil]
  rfl

theorem Follows.bind {run : Traced α} {next : α → Traced β} {vs ws : List Visit} {a : α} {b : β}
    (h : c.Follows home run vs a) (h' : c.Follows home (next a) ws b) :
    c.Follows home (run >>= next) (vs ++ ws) b := by
  intro ctx j hj
  have hr := h ctx j hj
  cases hf : c.firstFault? vs with
  | some f =>
    rw [verdict_of_some hf] at hr
    have hw : c.firstFault? (vs ++ ws) = some f := by rw [firstFault?_append, hf]; rfl
    rw [Traced.bind_of_error next hr, verdict_of_some hw, reached_append_of_some hf]
  | none =>
    rw [verdict_of_none hf, reached_of_none hf] at hr
    have hw : c.verdict (vs ++ ws) b = c.verdict ws b := by
      rw [verdict, verdict, firstFault?_append, hf, Option.none_or]
    rw [Traced.bind_of_ok next hr, h' ctx _ (by simpa using hj), hw, reached_append_of_none hf]
    simp

/-- A result that is made from another takes no visits. -/
theorem Follows.map {run : Traced α} {vs : List Visit} {a : α} (h : c.Follows home run vs a)
    (f : α → β) : c.Follows home (run >>= fun x => Pure.pure (f x)) vs (f a) := by
  rw [← List.append_nil vs]
  exact h.bind (Follows.pure (f a))

theorem Follows.emit {v : Visit} (hv : c.visitFault? v = none) (hh : v.home = home) :
    c.Follows home (Traced.emit (c.event v)) [v] () := by
  intro ctx j hj
  have hn : c.firstFault? [v] = none := by simp [firstFault?, hv]
  rw [Traced.emit_run, verdict_of_none hn, reached_of_none hn, hj]
  simp [entryOf, hh]

theorem Follows.throw {v : Visit} {f : Fault} (hv : c.visitFault? v = some f) (a : α) :
    c.Follows home (throw f) [v] a := by
  intro ctx j _
  have hs : c.firstFault? [v] = some f := by simp [firstFault?, hv]
  rw [verdict_of_some hs, reached]
  simp only [List.takeWhile_cons, hv, Option.isNone_some, Bool.false_eq_true, if_false,
    List.map_nil, Journal.addAll_nil]
  rfl

theorem Follows.within {run : Traced α} {path : Path} {vs : List Visit} {a : α}
    (h : c.Follows (some path) run vs a) :
    c.Follows home (Traced.within (Table.single "schema_path" (.text path.location)) run) vs a := by
  intro ctx j hj
  refine Traced.within_run path (h ctx _ ?_)
  rw [hj, Context.under_under]

end MapperSchema.Compiler
