import MapperSchema.Proofs.Compiler.Fields
import MapperSchema.Proofs.Table.Order

/-! The names that objects declare. In a node that comes from calls no object declares a name twice,
at whatever depth. -/
namespace MapperSchema

namespace Node

/-- Every object in the node declares different names. -/
def Declared (n : Node) : Prop :=
  ∀ id shape, (Node.base id (.object shape)).Within n → (shape.map (·.1)).Nodup

variable {n part : Node} {shape : List (String × Node)}

theorem Declared.of_within (h : n.Declared) (within : part.Within n) : part.Declared :=
  fun id shape inside => h id shape (inside.trans within)

theorem Declared.names (h : n.Declared) (base : n.unwrap.form = .object shape) :
    (shape.map (·.1)).Nodup := by
  apply h n.unwrap.id
  rw [← base]
  exact n.base_within

theorem Declared.entry {entry : String × Node} (h : n.Declared)
    (base : n.unwrap.form = .object shape) (mem : entry ∈ shape) : entry.2.Declared :=
  h.of_within (within_of_mem_inside (by
    rw [base]
    exact List.mem_map_of_mem mem))

theorem Declared.element {element : Node} (h : n.Declared)
    (base : n.unwrap.form = .array element) : element.Declared :=
  h.of_within (within_of_mem_inside (by
    rw [base]
    exact List.mem_singleton_self element))

theorem declared_base {id : NodeId} {form : Form}
    (own : ∀ shape, form = .object shape → (shape.map (·.1)).Nodup)
    (parts : ∀ part ∈ form.inside, part.Declared) : (Node.base id form).Declared := by
  intro id' shape within
  cases within with
  | self => exact own shape rfl
  | part mem within => exact parts _ mem id' shape within

theorem declared_object {id : NodeId} {shape : List (String × Node)}
    (names : (shape.map (·.1)).Nodup) (entries : ∀ entry ∈ shape, entry.2.Declared) :
    (Node.base id (.object shape)).Declared := by
  refine declared_base ?_ (List.forall_mem_map.2 entries)
  rintro rows ⟨⟩
  exact names

theorem declared_array {id : NodeId} {element : Node} (h : element.Declared) :
    (Node.base id (.array element)).Declared :=
  declared_base nofun (List.forall_mem_singleton.2 h)

theorem declared_wrap {id : NodeId} {modifier : Modifier} (h : n.Declared) :
    (Node.wrap id modifier n).Declared := by
  intro id' shape within
  cases within with
  | inner within => exact h id' shape within

end Node

namespace Authoring

variable {s : Session} {known : List Node}

theorem base_declared {form : Form}
    (names : ∀ shape, form = .object shape → (shape.map (·.1)).Nodup)
    (parts : ∀ part ∈ form.inside, part.Declared) :
    Grows s (base form) fun node _ => node.Declared :=
  freshId_grows.bind fun _ _ _ _ => .pure (Node.declared_base names parts)

theorem object_declared {shape : List (String × Node)}
    (parts : ∀ entry ∈ shape, entry.2.Declared) :
    Grows s (object shape) fun node _ => node.Declared := by
  apply base_declared
  · rintro rows ⟨⟩
    exact Table.nodup_keys (Table.ofList shape)
  · intro part mem
    obtain ⟨entry, hentry, rfl⟩ := List.mem_map.1 mem
    exact Table.forall_value_ofList (P := Node.Declared) parts entry hentry

theorem wrap_declared (modifier : Modifier) {inner : Node} (h : inner.Declared) :
    Grows s (wrap modifier inner) fun node _ => node.Declared :=
  freshId_grows.bind fun _ _ _ _ => .pure (Node.declared_wrap h)

theorem extend_declared {node : Node} {shape : List (String × Node)} (h : node.Declared)
    (parts : ∀ entry ∈ shape, entry.2.Declared) :
    Grows s (extend node shape) fun node _ => node.Declared := by
  have old : ∀ entry ∈ node.shape?.getD [], entry.2.Declared := by
    intro entry mem
    cases node with
    | wrap id modifier inner => cases mem
    | base id form =>
      cases form with
      | object shape => exact h.entry rfl mem
      | _ => cases mem
  have both := object_declared (s := s) fun entry mem =>
    (List.mem_append.1 mem).elim (old entry) (parts entry)
  exact both.bind fun extended _ _ made => (updateStore_grows none _).bind fun _ _ _ _ => .pure made

/-- Annotating gives back the node that was annotated. -/
theorem annotateField_same (node : Node) (options : Bag) (named : Options) :
    Grows s (annotateField node options named) fun given _ => given = node :=
  (updateStore_grows none _).bind fun _ _ _ _ => .pure rfl

theorem annotateSchema_same (node : Node) (options : SchemaOptions) (named : Options)
    (members : Members) :
    Grows s (annotateSchema node options named members) fun given _ => given = node := by
  obtain ⟨f, refused⟩ | ⟨a, attached⟩ := annotateSchema_eq node options named members
  · rw [refused]
    exact .throw _ _
  · rw [attached]
    exact (updateStore_grows none _).bind fun _ _ _ _ => .pure rfl

theorem timestampEntry_declared (names : List String) (name : Option String) :
    Grows s (timestampEntry names name) fun entries _ => ∀ entry ∈ entries, entry.2.Declared := by
  cases name with
  | none => exact .pure nofun
  | some name =>
    have date : Grows s (scalar .date) fun node _ => node.Declared := base_declared nofun nofun
    have field : Grows s (timestamp names) fun node _ => node.Declared :=
      date.bind fun node _ _ made => (annotateField_same node _ _).imp fun _ _ same => same ▸ made
    refine field.bind fun node _ _ made => .pure fun entry mem => ?_
    rw [List.mem_singleton.1 mem]
    exact made

theorem timestamps_declared (created updated : Option String) :
    Grows s (timestamps created updated) fun node _ => node.Declared := by
  obtain ⟨name, -, -, refused⟩ | ⟨-, made⟩ := timestamps_eq created updated
  · rw [refused]
    exact .throw _ _
  rw [made]
  refine (timestampEntry_declared _ created).bind fun first s₁ _ made₁ => ?_
  refine (timestampEntry_declared _ updated).bind fun second s₂ _ made₂ => ?_
  refine (traced_grows _).bind fun _ s₃ _ _ => ?_
  have entries : ∀ entry ∈ first ++ second, entry.2.Declared := fun entry mem =>
    (List.mem_append.1 mem).elim (made₁ entry) (made₂ entry)
  exact (object_declared entries).bind fun node s₄ _ made =>
    (annotateSchema_same node _ _ _).imp fun _ _ same => same ▸ made

/-- Every call that gives a node gives one in which no object declares a name twice, if that holds
of the nodes that it is made of. Only where a form is given as it is, its own names have to
differ. -/
theorem Builder.declared {run : Authoring Node} (h : Builder known run)
    (old : ∀ node ∈ known, node.Declared)
    (names : ∀ shape : List (String × Node), run = Authoring.base (.object shape) →
      (shape.map (·.1)).Nodup) :
    Grows s run fun node _ => node.Declared := by
  cases h with
  | @base form parts =>
    have own : ∀ shape, form = .object shape → (shape.map (·.1)).Nodup := fun shape eq =>
      names shape (congrArg Authoring.base eq)
    exact base_declared own fun part mem => old part (parts part mem)
  | object parts => exact object_declared fun entry mem => old _ (parts entry mem)
  | wrap modifier part => exact wrap_declared modifier (old _ part)
  | nullish part =>
    exact (wrap_declared .nullable (old _ part)).bind fun _ _ _ made => wrap_declared .optional made
  | annotateField options named part =>
    exact (annotateField_same _ options named).imp fun _ _ same => same ▸ old _ part
  | annotateSchema options named members part =>
    exact (annotateSchema_same _ options named members).imp fun _ _ same => same ▸ old _ part
  | extend part parts => exact extend_declared (old _ part) fun entry mem => old _ (parts entry mem)
  | timestamps created updated => exact timestamps_declared created updated

end Authoring

end MapperSchema
