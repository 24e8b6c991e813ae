import MapperSchema.Proofs.Compiler.Attachment
import MapperSchema.Proofs.Compiler.Replacement

/-! What can have an influence on a compile: bags of the layers of fields, and annotations of the
objects that are compiled. What is attached elsewhere has none, and neither have the members of a
union. -/
namespace MapperSchema.Compiler

variable {c d : Compiler} {root : Node} {extra : Option Annotation} {path : Path}

/-- Compilers that find the same bags at all fields, and the same annotations at all objects, run
alike. A root that is not an object is refused before anything is read. -/
theorem schema_congr_of_fields (strict : c.strictRequired = d.strictRequired)
    (bags : ∀ field, root.HasField field → ∀ layer ∈ field.unwrap.layers,
      c.store.bagAt layer.id = d.store.bagAt layer.id)
    (annotations : ∀ n, n = root ∨ root.HasField n → n.unwrap.form.kind = .object →
      c.store.annotationAt n.unwrap.id = d.store.annotationAt n.unwrap.id) :
    c.schema root extra path = d.schema root extra path := by
  by_cases object : root.unwrap.form.kind = .object
  · have effective : c.effective root.unwrap.id extra = d.effective root.unwrap.id extra := by
      unfold effective
      rw [annotations root (.inl rfl) object]
    exact schema_congr strict effective fun p visited =>
      ⟨bags p.node visited.hasField, annotations p.node (.inr visited.hasField)⟩
  · cases form : root.unwrap.form with
    | object shape =>
      rw [form] at object
      exact absurd rfl object
    | _ => simp only [schema, form]

/-- The compiler that finds options attached to a node. -/
def adding (c : Compiler) (id : NodeId) (options : Bag) : Compiler :=
  { c with store := c.store.addToBag id options }

section Known

variable {bound : NodeId} {known : List Node} {w : Node}

/-- Options are read at the layers of fields only, and in one session no other node than such a
layer has its identity. -/
theorem schema_adding (h : Known bound known) (mem : root ∈ known) (among : w.Among known)
    (unread : ∀ field, root.HasField field → w ∉ field.unwrap.layers) (options : Bag) :
    (c.adding w.id options).schema root extra path = c.schema root extra path := by
  refine schema_congr_of_fields rfl (fun field hasField layer layers => ?_) fun _ _ _ => rfl
  have apart : w.id ≠ layer.id := by
    intro same
    have layerWithin := (Node.Within.of_mem_layers layers).trans hasField.within_root
    have eq := h.identified w layer among ⟨root, mem, layerWithin⟩ same
    exact unread field hasField (eq ▸ layers)
  exact (c.store.bagAt_addToBag _ _ _).trans (if_neg apart)

/-- Annotations are read at the root object and at fields that are objects. -/
theorem schema_attaching_of_unread (h : Known bound known) (mem : root ∈ known)
    (among : w.Among known)
    (unread : ∀ n, n = root ∨ root.HasField n → n.unwrap.base = w → w.isObject = false)
    (a : Annotation) : (c.attaching w.id a).schema root extra path = c.schema root extra path := by
  refine schema_congr_of_fields rfl (fun _ _ _ _ => rfl) fun n visited object => ?_
  have within : n.Within root := by
    rcases visited with rfl | hasField
    · exact .self
    · exact hasField.within_root
  have apart : w.id ≠ n.unwrap.id := by
    intro same
    have eq := h.identified n.unwrap.base w ⟨root, mem, n.base_within.trans within⟩ among same.symm
    have isObject : w.isObject = true := by
      rw [← eq]
      exact decide_eq_true object
    exact absurd (unread n visited eq) (by simp [isObject])
  exact c.store.annotationAt_annotate_ne a apart

end Known

/-- Unions that differ in their members. -/
def OtherMembers (c : Compiler) (n m : Node) : Prop :=
  ∃ id id' members members', c.store.bagAt id = c.store.bagAt id' ∧
    n = .base id (.union members) ∧ m = .base id' (.union members')

theorem OtherMembers.interchangeable {n m : Node} (h : c.OtherMembers n m) :
    c.Interchangeable n m := by
  obtain ⟨id, id', members, members', bag, rfl, rfl⟩ := h
  exact .union members members' bag

/-- A compile depends on a store through the bags of the layers of fields and the annotations of
the compiled objects. So options of the root and its wrappers have no influence, nor have those of
any node that is not a layer of a field, as are the members of unions; annotations have none unless
they are attached to one of those objects; and other members of a union have none. -/
theorem schema_local (root : Node) (extra : Option Annotation) (path : Path) :
    (∀ c d : Compiler, c.strictRequired = d.strictRequired →
      (∀ field, root.HasField field → ∀ layer ∈ field.unwrap.layers,
        c.store.bagAt layer.id = d.store.bagAt layer.id) →
      (∀ n, n = root ∨ root.HasField n → n.unwrap.form.kind = .object →
        c.store.annotationAt n.unwrap.id = d.store.annotationAt n.unwrap.id) →
      c.schema root extra path = d.schema root extra path) ∧
    (∀ (c : Compiler) bound known (w : Node), Known bound known → root ∈ known → w.Among known →
      (w ∈ root.unwrap.layers ∨ (∀ field, root.HasField field → w ∉ field.unwrap.layers) →
        ∀ options, (c.adding w.id options).schema root extra path = c.schema root extra path) ∧
      (w.isObject = false ∨ (∀ n, n = root ∨ root.HasField n → n.unwrap.base ≠ w) →
        ∀ a, (c.attaching w.id a).schema root extra path = c.schema root extra path)) ∧
    ∀ (c : Compiler) root', Relation.ReflTransGen (c.Replaced c.OtherMembers) root root' →
      c.schema root extra path = c.schema root' extra path := by
  refine ⟨fun c d strict bags annotations => schema_congr_of_fields strict bags annotations, ?_,
    fun c root' h => schema_of_replaced (fun _ _ => (·.interchangeable)) h extra path⟩
  intro c bound known w h mem among
  constructor
  · rintro (outer | unread)
    · have apart : ∀ field, root.HasField field → w ∉ field.unwrap.layers :=
        fun field hasField => hasField.layers_apart (h.madeBefore root mem) outer
      exact schema_adding h mem among apart
    · exact schema_adding h mem among unread
  · rintro (other | unread)
    · exact schema_attaching_of_unread h mem among fun _ _ _ => other
    · exact schema_attaching_of_unread h mem among fun n visited base =>
        absurd base (unread n visited)

/-- A tag that is a text or a number, in a schema that may be missing. Options of the text or of the
wrapper are not seen, nor is an annotation of the wrapper, nor what the members are. -/
theorem schema_local_tag :
    let text : Node := .base 0 (.scalar .string)
    let number : Node := .base 1 (.scalar .number)
    let tagged (members : List Node) : Node := .base 3 (.object [("tag", .base 2 (.union members))])
    let root (members : List Node) : Node := .wrap 4 .optional (tagged members)
    let known : List Node := [root [text, number]]
    let index : Bag := Table.single (.text "index") (.bool true)
    let required : Bag := Table.single (.text "required") (.bool true)
    let c : Compiler := { store := (∅ : Store).addToBag 2 index }
    let compiled := c.schema (root [text, number]) none []
    Known 5 known ∧ text.Among known ∧
      (c.adding 0 required).schema (root [text, number]) none [] = compiled ∧
      (c.adding 4 required).schema (root [text, number]) none [] = compiled ∧
      (c.attaching 4 { unknownKeys := some .throw }).schema (root [text, number]) none [] =
        compiled ∧
      compiled = c.schema (root [.base 5 .never]) none [] := by
  intro text number tagged root known index required c compiled
  have h : Known 5 known := by
    let tag : Node := .base 2 (.union [text, number])
    have ofText : Authoring.Built { nextId := 1 } [text] :=
      .call (.start {}) (@Authoring.Builder.base _ (.scalar .string) (by simp [Form.inside])) rfl
    have ofNumber : Authoring.Built { nextId := 2 } [number, text] :=
      .call ofText (@Authoring.Builder.base _ (.scalar .number) (by simp [Form.inside])) rfl
    have ofTag : Authoring.Built { nextId := 3 } [tag, number, text] :=
      .call ofNumber (@Authoring.Builder.base _ (.union [text, number]) (by simp [Form.inside])) rfl
    have ofTagged : Authoring.Built { nextId := 4 } [tagged [text, number], tag, number, text] :=
      .call ofTag (@Authoring.Builder.object _ [("tag", tag)] (by simp)) rfl
    have ofRoot : Authoring.Built { nextId := 5 }
        [root [text, number], tagged [text, number], tag, number, text] :=
      .call ofTagged (@Authoring.Builder.wrap _ .optional (tagged [text, number]) (by simp)) rfl
    exact ofRoot.identities.subset (by simp [known])
  have mem : root [text, number] ∈ known := List.mem_singleton_self _
  have among : text.Among known :=
    ⟨_, mem, .inner (.part (List.mem_singleton_self _) (.part List.mem_cons_self .self))⟩
  have unread : ∀ field, (root [text, number]).HasField field → text ∉ field.unwrap.layers := by
    have fields : ∀ field, (root [text, number]).HasField field →
        field = .base 2 (.union [text, number]) := by
      intro field hasField
      induction hasField with
      | entry base mem =>
        cases base
        rw [List.mem_singleton.1 mem]
      | inner outer base mem ih => rw [ih] at base; cases base
      | element outer base ih => rw [ih] at base; cases base
    intro field hasField
    rw [fields field hasField]
    simp [text]
  obtain ⟨-, attached, unions⟩ := schema_local (root [text, number]) none []
  have ofText := (attached c 5 known text h mem among).1 (.inr unread)
  have ofRoot := attached c 5 known _ h mem (.of_mem mem)
  have replaced : c.Replaced c.OtherMembers (root [text, number]) (root [.base 5 .never]) :=
    .wrap (.entry [] (.here ⟨2, 2, _, _, rfl, rfl, rfl⟩) rfl rfl) rfl
  exact ⟨h, among, ofText required, ofRoot.1 (.inl List.mem_cons_self) required,
    ofRoot.2 (.inl rfl) _, unions c _ (.single replaced)⟩

end MapperSchema.Compiler
