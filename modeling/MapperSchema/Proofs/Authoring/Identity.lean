import MapperSchema.Authoring

/-! Identities of nodes grow outward: a node is made from nodes that are there already, so its
identity is above all those inside it, and no two nodes share one. Every call that builds nodes
keeps to this. -/
namespace MapperSchema

/-- The nodes that a form is made of. -/
def Form.inside : Form → List Node
  | .object shape => shape.map (·.2)
  | .array element => [element]
  | .union members => members
  | _ => []

/-- The node has an identity below the bound, and was made from nodes that came before it. -/
inductive Node.MadeBefore : NodeId → Node → Prop
  | base {bound id form} (lt : id < bound) (inside : ∀ node ∈ form.inside, MadeBefore id node) :
    MadeBefore bound (.base id form)
  | wrap {bound id modifier inner} (lt : id < bound) (inside : MadeBefore id inner) :
    MadeBefore bound (.wrap id modifier inner)

namespace Node

theorem MadeBefore.mono {a b : NodeId} {node : Node} (h : node.MadeBefore a) (le : a ≤ b) :
    node.MadeBefore b := by
  cases h with
  | base lt inside => exact .base (Nat.lt_of_lt_of_le lt le) inside
  | wrap lt inside => exact .wrap (Nat.lt_of_lt_of_le lt le) inside

/-- What is found under the wrappers came before the node as well. -/
theorem MadeBefore.unwrap {bound : NodeId} {node : Node} (h : node.MadeBefore bound) :
    node.unwrap.id < bound ∧ ∀ part ∈ node.unwrap.form.inside, part.MadeBefore node.unwrap.id := by
  induction h with
  | base lt inside => exact ⟨lt, inside⟩
  | @wrap bound id modifier inner lt _ ih =>
    rw [unwrap_wrap, Unwrapped.id_under, Unwrapped.form_under]
    exact ⟨Nat.lt_trans ih.1 lt, ih.2⟩

/-- A node is found inside another, or is that node. -/
inductive Within (x : Node) : Node → Prop
  | self : Within x x
  | part {id form part} (mem : part ∈ form.inside) (h : Within x part) : Within x (.base id form)
  | inner {id modifier inner} (h : Within x inner) : Within x (.wrap id modifier inner)

theorem Within.trans {x y z : Node} (h : x.Within y) (h' : y.Within z) : x.Within z := by
  induction h' with
  | self => exact h
  | part mem _ ih => exact .part mem ih
  | inner _ ih => exact .inner ih

theorem MadeBefore.id_lt {bound : NodeId} {node : Node} (h : node.MadeBefore bound) :
    node.id < bound := by
  cases h with
  | base lt inside => exact lt
  | wrap lt inside => exact lt

theorem MadeBefore.within {bound : NodeId} {x node : Node} (h : x.Within node)
    (made : node.MadeBefore bound) : x.MadeBefore bound := by
  induction h generalizing bound with
  | self => exact made
  | part mem h ih =>
    cases made with
    | base lt inside => exact ih ((inside _ mem).mono (Nat.le_of_lt lt))
  | inner h ih =>
    cases made with
    | wrap lt inside => exact ih (inside.mono (Nat.le_of_lt lt))

/-- The node is one of these or inside one. -/
def Among (x : Node) (known : List Node) : Prop := ∃ node ∈ known, x.Within node

theorem Among.of_mem {x : Node} {known : List Node} (h : x ∈ known) : x.Among known :=
  ⟨x, h, .self⟩

end Node

/-- Among these nodes and those inside them, an identity belongs to one node only. -/
def Identified (known : List Node) : Prop :=
  ∀ n m : Node, n.Among known → m.Among known → n.id = m.id → n = m

/-- These nodes were made in the order of their identities, below the bound. -/
structure Known (bound : NodeId) (known : List Node) : Prop where
  madeBefore : ∀ node ∈ known, node.MadeBefore bound
  identified : Identified known

namespace Known

variable {bound bound' : NodeId} {known known' : List Node}

theorem mono (h : Known bound known) (le : bound ≤ bound') : Known bound' known :=
  ⟨fun node mem => (h.madeBefore node mem).mono le, h.identified⟩

theorem subset (h : Known bound known) (sub : known' ⊆ known) : Known bound known' where
  madeBefore node mem := h.madeBefore node (sub mem)
  identified := by
    rintro n m ⟨a, ha, hn⟩ ⟨b, hb, hm⟩
    exact h.identified n m ⟨a, sub ha, hn⟩ ⟨b, sub hb, hm⟩

theorem madeBefore_of_among (h : Known bound known) {x : Node} (among : x.Among known) :
    x.MadeBefore bound := by
  obtain ⟨node, mem, within⟩ := among
  exact .within within (h.madeBefore node mem)

/-- A node with an identity that is not in use yet, made from such nodes, is one more of them. -/
theorem cons (h : Known bound known) {new : Node} (fresh : bound ≤ new.id)
    (made : new.MadeBefore bound') (parts : ∀ x : Node, x.Within new → x = new ∨ x.Among known) :
    Known bound' (new :: known) where
  madeBefore := by
    have le : bound ≤ bound' := Nat.le_of_lt (Nat.lt_of_le_of_lt fresh made.id_lt)
    exact List.forall_mem_cons.2 ⟨made, fun node mem => (h.madeBefore node mem).mono le⟩
  identified := by
    have old : ∀ x : Node, x.Among (new :: known) → x = new ∨ x.Among known := by
      rintro x ⟨node, mem, within⟩
      rcases List.mem_cons.1 mem with rfl | mem
      · exact parts x within
      · exact .inr ⟨node, mem, within⟩
    have apart : ∀ x : Node, x.Among known → x.id ≠ new.id := fun x among =>
      Nat.ne_of_lt (Nat.lt_of_lt_of_le (h.madeBefore_of_among among).id_lt fresh)
    intro n m hn hm same
    rcases old n hn with rfl | hn'
    · rcases old m hm with rfl | hm'
      · rfl
      · exact absurd same.symm (apart m hm')
    · rcases old m hm with rfl | hm'
      · exact absurd same (apart n hn')
      · exact h.identified n m hn' hm' same

end Known

namespace Authoring

variable {α β : Type} {s : Session} {known : List Node}

/-- However the run ends, the session after it is in this relation to the one before; and its
result is as claimed. -/
def Along (R : Session → Session → Prop) (s : Session) (run : Authoring α)
    (claim : α → NodeId → Prop) : Prop :=
  match run s with
  | .ok a s' => R s s' ∧ claim a s'.nextId
  | .error _ s' => R s s'

theorem Along.bind {R : Session → Session → Prop} (trans : ∀ {a b c}, R a b → R b c → R a c)
    {run : Authoring α} {next : α → Authoring β} {claim : α → NodeId → Prop}
    {claim' : β → NodeId → Prop} (h : Along R s run claim)
    (h' : ∀ a s', R s s' → claim a s'.nextId → Along R s' (next a) claim') :
    Along R s (run >>= next) claim' := by
  unfold Along at h ⊢
  change match EStateM.bind run next s with | .ok a s' => _ | .error _ s' => _
  rw [EStateM.bind]
  cases hr : run s with
  | error f s' => simpa [hr] using h
  | ok a s' =>
    rw [hr] at h
    have hn := h' a s' h.1 h.2
    unfold Along at hn
    cases hm : next a s' with
    | error f s'' =>
      rw [hm] at hn
      simpa only [hm] using trans h.1 hn
    | ok b s'' =>
      rw [hm] at hn
      simpa only [hm] using And.intro (trans h.1 hn.1) hn.2

/-- From this session on the run takes back no identity, and its result is as claimed. -/
def Grows (s : Session) (run : Authoring α) (claim : α → NodeId → Prop) : Prop :=
  Along (fun s s' => s.nextId ≤ s'.nextId) s run claim

theorem Grows.pure {claim : α → NodeId → Prop} {a : α} (h : claim a s.nextId) :
    Grows s (pure a) claim := ⟨Nat.le_refl _, h⟩

theorem Grows.throw (f : Fault) (claim : α → NodeId → Prop) : Grows s (throw f) claim :=
  Nat.le_refl _

theorem Grows.bind {run : Authoring α} {next : α → Authoring β} {claim : α → NodeId → Prop}
    {claim' : β → NodeId → Prop} (h : Grows s run claim)
    (h' : ∀ a s', s.nextId ≤ s'.nextId → claim a s'.nextId → Grows s' (next a) claim') :
    Grows s (run >>= next) claim' :=
  Along.bind (R := fun s s' => s.nextId ≤ s'.nextId) Nat.le_trans h h'

theorem freshId_grows : Grows s freshId fun id bound => s.nextId ≤ id ∧ id < bound :=
  ⟨Nat.le_succ _, Nat.le_refl _, Nat.lt_succ_self _⟩

theorem updateStore_grows (r : Option String) (f : Store → Store) :
    Grows s (updateStore r f) fun _ _ => True := by
  cases r <;> exact ⟨Nat.le_refl _, trivial⟩

theorem traced_grows (run : Traced α) : Grows s (traced run) fun _ _ => True := by
  unfold Grows Along traced
  cases run s.journal with
  | ok a j => exact ⟨Nat.le_refl _, trivial⟩
  | error f j => exact Nat.le_refl _

theorem Grows.imp {run : Authoring α} {claim claim' : α → NodeId → Prop} (h : Grows s run claim)
    (sub : ∀ a bound, claim a bound → claim' a bound) : Grows s run claim' := by
  unfold Grows Along at h ⊢
  cases hr : run s with
  | ok a s' =>
    rw [hr] at h
    exact ⟨h.1, sub _ _ h.2⟩
  | error f s' =>
    rw [hr] at h
    exact h

/-- The call gives one more node to those that are known. -/
abbrev Adds (s : Session) (known : List Node) (run : Authoring Node) : Prop :=
  Grows s run fun node bound => Known bound (node :: known)

theorem Adds.of_subset {known' : List Node} {run : Authoring Node} (h : Adds s known' run)
    (sub : known ⊆ known') : Adds s known run :=
  h.imp fun _ _ h => h.subset (List.cons_subset_cons _ sub)

theorem base_adds (h : Known s.nextId known) {form : Form}
    (parts : ∀ part ∈ form.inside, part.Among known) : Adds s known (base form) := by
  refine freshId_grows.bind fun id s' _ fresh => .pure (h.cons fresh.1 ?_ ?_)
  · exact .base fresh.2 fun part mem => (h.madeBefore_of_among (parts part mem)).mono fresh.1
  · intro x within
    cases within with
    | self => exact .inl rfl
    | part mem within =>
      obtain ⟨node, known, under⟩ := parts _ mem
      exact .inr ⟨node, known, within.trans under⟩

theorem wrap_adds (h : Known s.nextId known) (modifier : Modifier) {inner : Node}
    (part : inner ∈ known) : Adds s known (wrap modifier inner) := by
  refine freshId_grows.bind fun id s' _ fresh => .pure (h.cons fresh.1 ?_ ?_)
  · exact .wrap fresh.2 ((h.madeBefore inner part).mono fresh.1)
  · intro x within
    cases within with
    | self => exact .inl rfl
    | inner within => exact .inr ⟨inner, part, within⟩

theorem nullish_adds (h : Known s.nextId known) {node : Node} (part : node ∈ known) :
    Adds s known (nullish node) :=
  (wrap_adds h .nullable part).bind fun _ _ _ h' =>
    (wrap_adds h' .optional List.mem_cons_self).of_subset (List.subset_cons_self _ _)

theorem object_adds (h : Known s.nextId known) {shape : List (String × Node)}
    (parts : ∀ entry ∈ shape, entry.2.Among known) : Adds s known (object shape) := by
  apply base_adds h
  intro node mem
  obtain ⟨entry, hentry, rfl⟩ := List.mem_map.1 mem
  exact Table.forall_value_ofList (P := fun node => node.Among known) parts entry hentry

theorem annotateField_adds (h : Known s.nextId known) {node : Node} (options : Bag)
    (named : Options) (part : node ∈ known) : Adds s known (annotateField node options named) :=
  (updateStore_grows none _).bind fun _ _ le _ =>
    .pure ((h.mono le).subset (List.cons_subset.2 ⟨part, List.Subset.refl _⟩))

/-- What annotating an object comes to: it is refused, or one annotation is attached. -/
theorem annotateSchema_eq (node : Node) (options : SchemaOptions) (named : Options)
    (members : Members) : (∃ f, annotateSchema node options named members = throw f) ∨
      ∃ a, annotateSchema node options named members = do
        updateStore none (·.annotate node.id a)
        return node := by
  unfold annotateSchema readOptions
  cases node.isObject with
  | false => exact .inl ⟨_, rfl⟩
  | true =>
    cases options.read with
    | error issues => exact .inl ⟨_, rfl⟩
    | ok a =>
      cases named.isEmpty with
      | true => exact .inr ⟨a.merge ∅, rfl⟩
      | false =>
        cases (SchemaOptions.untyped (.ofOptions named) members).read with
        | error issues => exact .inl ⟨_, rfl⟩
        | ok b => exact .inr ⟨a.merge b, rfl⟩

theorem annotateSchema_adds (h : Known s.nextId known) {node : Node} (options : SchemaOptions)
    (named : Options) (members : Members) (part : node ∈ known) :
    Adds s known (annotateSchema node options named members) := by
  obtain ⟨f, refused⟩ | ⟨a, attached⟩ := annotateSchema_eq node options named members
  · rw [refused]
    exact .throw _ _
  · rw [attached]
    refine (updateStore_grows none _).bind fun _ _ le _ => .pure ?_
    exact (h.mono le).subset (List.cons_subset.2 ⟨part, List.Subset.refl _⟩)

theorem extend_adds (h : Known s.nextId known) {node : Node} {shape : List (String × Node)}
    (part : node ∈ known) (parts : ∀ entry ∈ shape, entry.2 ∈ known) :
    Adds s known (extend node shape) := by
  have old : ∀ entry ∈ node.shape?.getD [], entry.2.Among known := by
    intro entry mem
    cases node with
    | wrap id modifier inner => cases mem
    | base id form =>
      cases form with
      | object shape => exact ⟨_, part, .part (List.mem_map_of_mem mem) .self⟩
      | _ => cases mem
  have both := object_adds h fun entry mem =>
    (List.mem_append.1 mem).elim (old entry) fun mem => .of_mem (parts entry mem)
  exact both.bind fun extended _ _ h' =>
    (updateStore_grows none _).bind fun _ _ le _ => .pure (h'.mono le)

theorem timestampEntry_adds (h : Known s.nextId known) (names : List String)
    (name : Option String) :
    Grows s (timestampEntry names name) fun entries bound =>
      Known bound (entries.map (·.2) ++ known) := by
  cases name with
  | none => exact .pure h
  | some name =>
    have date : Adds s known (scalar .date) := base_adds h (by simp [Form.inside])
    have field : Adds s known (timestamp names) := date.bind fun node _ _ h' =>
      (annotateField_adds h' _ _ List.mem_cons_self).of_subset (List.subset_cons_self _ _)
    exact field.bind fun _ _ _ h' => .pure h'

/-- What generating timestamps comes to: one name for both is refused, otherwise two fields are made
and an object of them. -/
theorem timestamps_eq (created updated : Option String) :
    (∃ name, created = some name ∧ updated = some name ∧
      timestamps created updated = throw (.duplicateTimestamp name)) ∨
    (∀ name, created = some name → updated ≠ some name) ∧
      timestamps created updated = (do
        let first ← timestampEntry ["required", "index", "immutable"] created
        let second ← timestampEntry ["required", "index"] updated
        traced (Traced.emit (.timestampsGenerated created updated))
        let node ← object (first ++ second)
        annotateSchema node (.untyped .null)
          (Table.single "schema_options" (timestampOptions created updated))) := by
  unfold timestamps
  cases created with
  | none => exact .inr ⟨nofun, rfl⟩
  | some name =>
    by_cases same : updated = some name
    · simp only [same, if_true]
      exact .inl ⟨name, rfl, rfl, rfl⟩
    · refine .inr ⟨fun _ given => Option.some.inj given ▸ same, ?_⟩
      simp only [same, if_false]

theorem timestamps_adds (h : Known s.nextId known) (created updated : Option String) :
    Adds s known (timestamps created updated) := by
  obtain ⟨name, -, -, refused⟩ | ⟨-, made⟩ := timestamps_eq created updated
  · rw [refused]
    exact .throw _ _
  rw [made]
  refine (timestampEntry_adds h _ created).bind fun first s₁ _ h₁ => ?_
  refine (timestampEntry_adds h₁ _ updated).bind fun second s₂ _ h₂ => ?_
  refine (traced_grows _).bind fun _ s₃ le₃ _ => ?_
  have entries : ∀ entry ∈ first ++ second,
      entry.2 ∈ second.map (·.2) ++ (first.map (·.2) ++ known) := by
    intro entry mem
    rcases List.mem_append.1 mem with mem | mem
    · exact List.mem_append_right _ (List.mem_append_left _ (List.mem_map_of_mem mem))
    · exact List.mem_append_left _ (List.mem_map_of_mem mem)
  refine (object_adds (h₂.mono le₃) fun entry mem => .of_mem (entries entry mem)).bind
    fun node s₄ _ h₄ => ?_
  refine (annotateSchema_adds h₄ _ _ _ List.mem_cons_self).of_subset fun old mem => ?_
  exact List.mem_cons_of_mem _ (List.mem_append_right _ (List.mem_append_right _ mem))

/-- The calls that give a node, made out of nodes that are known. -/
inductive Builder (known : List Node) : Authoring Node → Prop
  | base {form} (parts : ∀ node ∈ form.inside, node ∈ known) : Builder known (base form)
  | object {shape} (parts : ∀ entry ∈ shape, entry.2 ∈ known) : Builder known (object shape)
  | wrap (modifier) {inner} (part : inner ∈ known) : Builder known (wrap modifier inner)
  | nullish {node} (part : node ∈ known) : Builder known (nullish node)
  | annotateField (options named) {node} (part : node ∈ known) :
    Builder known (annotateField node options named)
  | annotateSchema (options named members) {node} (part : node ∈ known) :
    Builder known (annotateSchema node options named members)
  | extend {node shape} (part : node ∈ known) (parts : ∀ entry ∈ shape, entry.2 ∈ known) :
    Builder known (extend node shape)
  | timestamps (created updated) : Builder known (timestamps created updated)

theorem Builder.adds {run : Authoring Node} (h : Builder known run) (hk : Known s.nextId known) :
    Adds s known run := by
  cases h with
  | base parts => exact base_adds hk fun part mem => .of_mem (parts part mem)
  | object parts => exact object_adds hk fun entry mem => .of_mem (parts entry mem)
  | wrap modifier part => exact wrap_adds hk modifier part
  | nullish part => exact nullish_adds hk part
  | annotateField options named part => exact annotateField_adds hk options named part
  | annotateSchema options named members part =>
    exact annotateSchema_adds hk options named members part
  | extend part parts => exact extend_adds hk part parts
  | timestamps created updated => exact timestamps_adds hk created updated

/-- A session with the nodes that were made in it, newest first. Between the calls that make them
anything may happen that takes back no identity. -/
inductive Built : Session → List Node → Prop
  | start (s : Session) : Built s []
  | call {s s' known run node} (before : Built s known) (builder : Builder known run)
    (done : run s = .ok node s') : Built s' (node :: known)
  | later {s s' : Session} {known} (before : Built s known) (le : s.nextId ≤ s'.nextId) :
    Built s' known

/-- Every node that is made in a session came after the nodes inside it, and has an identity of its
own. -/
theorem Built.identities (h : Built s known) : Known s.nextId known := by
  induction h with
  | start s => exact ⟨by simp, by rintro n m ⟨_, mem, _⟩; cases mem⟩
  | @call s s' known run node before builder done ih =>
    have adds := builder.adds ih
    unfold Adds Grows Along at adds
    rw [done] at adds
    exact adds.2
  | later before le ih => exact ih.mono le

theorem Built.madeBefore (h : Built s known) : ∀ node ∈ known, node.MadeBefore s.nextId :=
  h.identities.madeBefore

end Authoring

end MapperSchema
