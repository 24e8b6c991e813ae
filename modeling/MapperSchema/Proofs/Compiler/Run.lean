import MapperSchema.Proofs.Compiler.Follows

/-! Compiling follows the visits of the node, and ends with its outline if no position is faulty. -/
namespace MapperSchema.Compiler

variable {c : Compiler} {home : Option Path}

/-- The whole run of one field: its type, then the field itself. -/
def fieldRun (c : Compiler) (p : Position) : Traced Field := do
  let type ← c.nodeType p.path p.node
  c.finish p.path p.overrides p.node type

theorem nodeType_eq (c : Compiler) (path : Path) (node : Node) :
    c.nodeType path node = c.formType path node.unwrap.id node.unwrap.form := by
  induction node with
  | wrap id modifier inner ih => simpa [nodeType] using ih
  | _ => simp [nodeType]

theorem nodeType_object (c : Compiler) (path : Path) {node : Node} {shape : List (String × Node)}
    (h : node.unwrap.form = .object shape) :
    c.nodeType path node = (do
      let a := c.store.annotationAt node.unwrap.id
      return .document (← assemble path a (c.entries path a shape))) := by
  rw [nodeType_eq, h, formType]

theorem nodeType_array (c : Compiler) (path : Path) {node element : Node}
    (h : node.unwrap.form = .array element) :
    c.nodeType path node = (do return .array (← c.fieldRun (elementAt path element))) := by
  rw [nodeType_eq, h, formType]
  simp only [fieldRun, elementAt, bind_assoc]

theorem nodeType_never (c : Compiler) (path : Path) {node : Node}
    (h : node.unwrap.form.kind = .never) :
    c.nodeType path node = throw (.unsupportedKind .never path) := by
  rw [nodeType_eq]
  cases hf : node.unwrap.form with
  | never => rfl
  | scalar s => cases s <;> simp [hf, Form.kind, Scalar.kind] at h
  | _ => simp [hf, Form.kind] at h

theorem nodeType_leaf (c : Compiler) (path : Path) {node : Node} (h : node.unwrap.form.isLeaf)
    (hn : node.unwrap.form.kind ≠ .never) :
    c.nodeType path node = pure (.primitive node.unwrap.form.primitive) := by
  rw [nodeType_eq]
  cases hf : node.unwrap.form with
  | never => simp [hf, Form.kind] at hn
  | object shape => simp [hf, Form.isLeaf] at h
  | array element => simp [hf, Form.isLeaf] at h
  | _ => simp [formType, Form.primitive]

theorem isLeaf_of_never {form : Form} (h : form.kind = .never) : form.isLeaf := by
  cases form with
  | object shape => cases h
  | array element => cases h
  | _ => rfl

theorem entries_cons (c : Compiler) (path : Path) (a : Annotation) (entry : String × Node)
    (rest : List (String × Node)) :
    c.entries path a (entry :: rest) = (do
      let field ← c.fieldRun (entryAt path a entry)
      return (entry.1, field) :: (← c.entries path a rest)) := by
  rw [entries, fieldRun]
  simp only [entryAt, bind_assoc]

/-- An entry may change if its run stays. -/
theorem entries_congr {path : Path} {a : Annotation} {name : String} {n m : Node}
    (h : c.fieldRun (entryAt path a (name, n)) = c.fieldRun (entryAt path a (name, m)))
    (before after : List (String × Node)) :
    c.entries path a (before ++ (name, n) :: after) =
      c.entries path a (before ++ (name, m) :: after) := by
  induction before with
  | nil => rw [List.nil_append, List.nil_append, entries_cons, entries_cons, h]
  | cons entry before ih =>
    rw [List.cons_append, List.cons_append, entries_cons, entries_cons, ih]

theorem finish_follows {p : Position} (h : p.node.unwrap.form.kind ≠ .never) :
    c.Follows home (c.finish p.path p.overrides p.node (c.typeOf p.path p.node))
      [.field home p] (c.fieldOf p) := by
  have hr := required_eq (c := c) h
  cases hf : c.fault? p with
  | some f =>
    rw [hf] at hr
    have he : c.finish p.path p.overrides p.node (c.typeOf p.path p.node) = throw f := by
      unfold finish
      change (Traced.ofExcept (c.required p.node.unwrap p.path (c.givenAt p)) >>= _) = _
      rw [hr]
      rfl
    rw [he]
    exact Follows.throw (v := .field home p) hf _
  | none =>
    rw [hf] at hr
    have he : c.finish p.path p.overrides p.node (c.typeOf p.path p.node) =
        (Traced.emit (c.event (.field home p)) >>= fun _ => pure (c.fieldOf p)) := by
      unfold finish
      change (Traced.ofExcept (c.required p.node.unwrap p.path (c.givenAt p)) >>= _) = _
      rw [hr]
      rfl
    rw [he]
    exact (Follows.emit (v := .field home p) hf rfl).map fun _ => c.fieldOf p

/-- A field is finished after its type, unless the type cannot be had. -/
theorem fieldRun_follows {p : Position} (h : p.node.unwrap.form.kind ≠ .never →
    c.Follows home (c.nodeType p.path p.node) (c.visits home p.path p.node)
      (c.typeOf p.path p.node)) :
    c.Follows home (c.fieldRun p) (c.fieldVisits home p) (c.fieldOf p) := by
  by_cases hn : p.node.unwrap.form.kind = .never
  · have hv : c.fieldVisits home p = [.field home p] := by
      rw [fieldVisits, visits_leaf c home p.path (isLeaf_of_never hn), List.nil_append]
    have hr : c.fieldRun p = throw (.unsupportedKind .never p.path) := by
      rw [fieldRun, nodeType_never c p.path hn]
      rfl
    rw [hv, hr]
    exact Follows.throw (v := .field home p) (fault?_of_never hn) _
  · exact (h hn).bind (finish_follows hn)

theorem entries_follows {path : Path} {a : Annotation} {shape : List (String × Node)}
    (h : ∀ entry ∈ shape, c.Follows (some path) (c.fieldRun (entryAt path a entry))
      (c.fieldVisits (some path) (entryAt path a entry)) (c.fieldOf (entryAt path a entry))) :
    c.Follows (some path) (c.entries path a shape) (c.entryVisits path a shape)
      (c.fieldsOf path a shape) := by
  induction shape with
  | nil =>
    simp only [entries, entryVisits, fieldsOf]
    exact Follows.pure []
  | cons entry rest ih =>
    obtain ⟨head, tail⟩ := List.forall_mem_cons.1 h
    rw [entries_cons, entryVisits, fieldsOf]
    exact head.bind ((ih tail).map _)

theorem assemble_follows {path : Path} {a : Annotation} {shape : List (String × Node)}
    (h : c.Follows (some path) (c.entries path a shape) (c.entryVisits path a shape)
      (c.fieldsOf path a shape)) :
    c.Follows home (assemble path a (c.entries path a shape)) (c.schemaVisits path a shape)
      (c.schemaOf path a shape) := by
  have hs : c.event (.schema path (shape.map (·.1))) =
      .schemaCompiled ((c.fieldsOf path a shape).map (·.1)) := by
    rw [names_fieldsOf]
    rfl
  have he : c.Follows (some path) (Traced.emit (c.event (.schema path (shape.map (·.1)))))
      [.schema path (shape.map (·.1))] () := Follows.emit rfl rfl
  rw [hs] at he
  have hb : c.Follows (some path) (do
      let fields ← c.entries path a shape
      Traced.emit (.schemaCompiled (fields.map (·.1)))
      return fields) (c.schemaVisits path a shape) (c.fieldsOf path a shape) :=
    h.bind (he.map fun _ => c.fieldsOf path a shape)
  exact hb.within.map fun fields => (⟨path, fields, a.finalOptions, a.unknownKeys⟩ : Schema)

/-- Unless the node is a `never`, its type is compiled by making its visits. -/
theorem nodeType_follows {path : Path} {node : Node} (h : node.unwrap.form.kind ≠ .never) :
    c.Follows home (c.nodeType path node) (c.visits home path node) (c.typeOf path node) := by
  induction node using Node.inductUnwrapped generalizing home path with
  | object node shape base ih =>
    rw [nodeType_object c path base, visits_object c home path base, typeOf_object c path base]
    have he := entries_follows (a := c.store.annotationAt node.unwrap.id)
      fun entry mem => fieldRun_follows (p := entryAt path _ entry) (ih entry mem)
    exact (assemble_follows he).map FieldType.document
  | array node element base ih =>
    rw [nodeType_array c path base, visits_array c home path base, typeOf_array c path base]
    exact (fieldRun_follows (p := elementAt path element) ih).map FieldType.array
  | leaf node leaf =>
    rw [nodeType_leaf c path leaf h, visits_leaf c home path leaf, typeOf_leaf c path leaf]
    exact Follows.pure _

/-- An object schema is compiled by making the visits of its entries. -/
theorem assemble_entries_follows (c : Compiler) (home : Option Path) (path : Path) (a : Annotation)
    (shape : List (String × Node)) :
    c.Follows home (assemble path a (c.entries path a shape)) (c.schemaVisits path a shape)
      (c.schemaOf path a shape) :=
  assemble_follows (entries_follows fun _ _ => fieldRun_follows nodeType_follows)

/-- How the compile of a root ends. -/
def result (c : Compiler) (node : Node) (extra : Option Annotation) (path : Path) :
    Except Fault Schema :=
  match node.unwrap.form with
  | .object shape =>
    c.verdict (c.rootVisits node extra path)
      (c.schemaOf path (c.effective node.unwrap.id extra) shape)
  | form => .error (.notObject form.kind path)

/-- The whole run of a root: how it ends, and what it writes. -/
theorem schema_run (c : Compiler) (node : Node) (extra : Option Annotation) (path : Path)
    (j : Journal) : c.schema node extra path j = ending (c.result node extra path)
      (j.addAll ((c.reached (c.rootVisits node extra path)).map (c.entryOf j.context))) := by
  unfold schema result rootVisits
  cases hf : node.unwrap.form with
  | object shape => exact assemble_entries_follows c none path _ shape j.context j rfl
  | _ => simp only [reached, List.takeWhile_nil, List.map_nil, Journal.addAll_nil]; rfl

theorem schema_outcome (c : Compiler) (node : Node) (extra : Option Annotation) (path : Path)
    (j : Journal) : (c.schema node extra path).outcome j = c.result node extra path :=
  Traced.outcome_of_run (c.schema_run node extra path j)

end MapperSchema.Compiler
