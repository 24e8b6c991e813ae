import MapperSchema.Proofs.Compiler.Replacement
import MapperSchema.Proofs.Validator.Wrappers
import MapperSchema.Table.Merge

/-! What a compile sees of the wrappers around a node: whether optional and nullable ones are among
them, the outermost default, and the options of all layers merged from the inside out. -/
namespace MapperSchema.Compiler

/-- The nodes have one base, and their wrappers come to the same. -/
structure Equivalent (c : Compiler) (n m : Node) : Prop where
  base : n.unwrap.base = m.unwrap.base
  optional : n.crosses .optional = m.crosses .optional
  nullable : n.crosses .nullable = m.crosses .nullable
  default? : n.outermostDefault? = m.outermostDefault?
  bag : c.layerBag n.unwrap.layers = c.layerBag m.unwrap.layers

variable {c : Compiler}

theorem schema_of_base {n m : Node} (h : n.unwrap.base = m.unwrap.base) (extra : Option Annotation)
    (path : Path) : c.schema n extra path = c.schema m extra path := by
  obtain ⟨id, form⟩ := Node.base.inj h
  unfold schema
  simp only [id, form]

theorem Equivalent.interchangeable {n m : Node} (h : c.Equivalent n m) : c.Interchangeable n m := by
  obtain ⟨id, form⟩ := Node.base.inj h.base
  constructor
  case optional => rw [Node.optional_unwrap, Node.optional_unwrap, h.optional]
  case nullable => rw [Node.nullable_unwrap, Node.nullable_unwrap, h.nullable, form]
  case default? => rw [Node.default?_unwrap, Node.default?_unwrap, h.default?]
  case acceptsOnlyNull => rw [form]
  case bag => exact h.bag
  case nodeType =>
    intro path
    rw [nodeType_eq, nodeType_eq, id, form]
  case schema => exact schema_of_base h.base

/-- A step that takes a wrapper away, makes it anew or changes the order of two. Wrappers are told
from the outside. -/
inductive Tidied (c : Compiler) : List Wrapper → List Wrapper → Prop
  /-- A wrapper is made anew, with the same options attached. -/
  | remade (before) {id id' after} (modifier) (bag : c.store.bagAt id = c.store.bagAt id') :
    Tidied c (before ++ ⟨id, modifier⟩ :: after) (before ++ ⟨id', modifier⟩ :: after)
  /-- An effect without options goes. -/
  | effects (before) {w after} (kind : w.kind = .effects) (bare : c.store.bagAt w.id = ∅) :
    Tidied c (before ++ w :: after) (before ++ after)
  /-- A flag without options goes if it is there once more. -/
  | again (before) {w after} (kind : w.kind = .optional ∨ w.kind = .nullable)
    (bare : c.store.bagAt w.id = ∅) (other : ∃ v ∈ before ++ after, v.kind = w.kind) :
    Tidied c (before ++ w :: after) (before ++ after)
  /-- Two neighbours with one flag become one, which has the options of both. -/
  | joined (before) {v w x after} (kind : x.kind = .optional ∨ x.kind = .nullable)
    (outer : v.kind = x.kind) (inner : w.kind = x.kind)
    (bag : c.store.bagAt x.id = (c.store.bagAt w.id).merge (c.store.bagAt v.id)) :
    Tidied c (before ++ v :: w :: after) (before ++ x :: after)
  /-- A default without options goes if there is one outside of it. -/
  | shadowed (before) {w after} (kind : w.kind = .default) (bare : c.store.bagAt w.id = ∅)
    (outer : ∃ v ∈ before, v.kind = .default) :
    Tidied c (before ++ w :: after) (before ++ after)
  /-- Neighbours change places if one of them has no options, unless both are defaults. -/
  | swapped (before) {v w after} (bare : c.store.bagAt v.id = ∅ ∨ c.store.bagAt w.id = ∅)
    (kinds : v.kind ≠ .default ∨ w.kind ≠ .default) :
    Tidied c (before ++ v :: w :: after) (before ++ w :: v :: after)

/-- What is around a base comes to the same. -/
structure SameChain (c : Compiler) (ws ws' : List Wrapper) : Prop where
  flags : ∀ k, k = .optional ∨ k = .nullable →
    (ws.any fun w => w.kind = k) = ws'.any fun w => w.kind = k
  default? : ws.findSome? Wrapper.default? = ws'.findSome? Wrapper.default?
  bags : ∀ bag : Bag, ws.foldr (fun w inner => inner.merge (c.store.bagAt w.id)) bag =
    ws'.foldr (fun w inner => inner.merge (c.store.bagAt w.id)) bag

theorem layerBag_wrapped (base : Node) (ws : List Wrapper) :
    c.layerBag (base.wrapped ws).unwrap.layers =
      ws.foldr (fun w inner => inner.merge (c.store.bagAt w.id))
        (c.layerBag base.unwrap.layers) := by
  induction ws with
  | nil => rfl
  | cons w ws ih =>
    rw [Node.wrapped_cons, Node.unwrap_wrap, Unwrapped.layers_under, List.foldr_cons, ← ih]
    rfl

namespace SameChain

theorem equivalent {ws ws' : List Wrapper} (h : c.SameChain ws ws') (base : Node) :
    c.Equivalent (base.wrapped ws) (base.wrapped ws') where
  base := by rw [Node.base_unwrap_wrapped, Node.base_unwrap_wrapped]
  optional := by rw [Node.crosses_wrapped, Node.crosses_wrapped, h.flags _ (.inl rfl)]
  nullable := by rw [Node.crosses_wrapped, Node.crosses_wrapped, h.flags _ (.inr rfl)]
  default? := by rw [Node.outermostDefault?_wrapped, Node.outermostDefault?_wrapped, h.default?]
  bag := by rw [layerBag_wrapped, layerBag_wrapped, h.bags]

theorem refl (ws : List Wrapper) : c.SameChain ws ws := ⟨fun _ _ => rfl, rfl, fun _ => rfl⟩

theorem trans {ws ws' ws'' : List Wrapper} (h : c.SameChain ws ws') (h' : c.SameChain ws' ws'') :
    c.SameChain ws ws'' where
  flags k hk := (h.flags k hk).trans (h'.flags k hk)
  default? := h.default?.trans h'.default?
  bags bag := (h.bags bag).trans (h'.bags bag)

theorem between {ws ws' : List Wrapper} (h : c.SameChain ws ws') (before after : List Wrapper) :
    c.SameChain (before ++ (ws ++ after)) (before ++ (ws' ++ after)) where
  flags k hk := by simp only [List.any_append, h.flags k hk]
  default? := by simp only [List.findSome?_append, h.default?]
  bags bag := by simp only [List.foldr_append, h.bags]

/-- A wrapper without options is not missed if its flag is found elsewhere, and a default further
out. -/
theorem drop {before after : List Wrapper} {w : Wrapper} (bare : c.store.bagAt w.id = ∅)
    (flag : w.kind = .optional ∨ w.kind = .nullable → ∃ v ∈ before ++ after, v.kind = w.kind)
    (default : w.kind = .default → ∃ v ∈ before, v.kind = .default) :
    c.SameChain (before ++ w :: after) (before ++ after) where
  flags k hk := by
    have split : ((before ++ w :: after).any fun w => w.kind = k) =
        (decide (w.kind = k) || (before ++ after).any fun w => w.kind = k) := by
      rw [List.any_append, List.any_cons, List.any_append, Bool.or_left_comm]
    rw [split]
    by_cases h : w.kind = k
    · obtain ⟨v, mem, kind⟩ := flag (h ▸ hk)
      have found : ((before ++ after).any fun w => w.kind = k) = true :=
        List.any_eq_true.2 ⟨v, mem, decide_eq_true (kind.trans h)⟩
      rw [found, Bool.or_true]
    · rw [decide_eq_false h, Bool.false_or]
  default? := by
    rw [List.findSome?_append, List.findSome?_append, List.findSome?_cons]
    cases hw : w.default? with
    | none => rfl
    | some value =>
      have outer := default ((Wrapper.isSome_default?_iff w).1 (by rw [hw]; rfl))
      have found := (Wrapper.isSome_findSome?_default?_iff before).2 outer
      obtain ⟨u, hu⟩ := Option.isSome_iff_exists.1 found
      rw [hu]
      rfl
  bags bag := by
    rw [List.foldr_append, List.foldr_append, List.foldr_cons, bare, Table.merge_empty]

theorem remade {id id' : NodeId} (modifier : Modifier)
    (bag : c.store.bagAt id = c.store.bagAt id') :
    c.SameChain [⟨id, modifier⟩] [⟨id', modifier⟩] where
  flags _ _ := rfl
  default? := rfl
  bags _ := by simp only [List.foldr_cons, bag]

theorem joined {v w x : Wrapper} (kind : x.kind = .optional ∨ x.kind = .nullable)
    (outer : v.kind = x.kind) (inner : w.kind = x.kind)
    (bag : c.store.bagAt x.id = (c.store.bagAt w.id).merge (c.store.bagAt v.id)) :
    c.SameChain [v, w] [x] where
  flags _ _ := by simp only [List.any_cons, outer, inner, Bool.or_self_left]
  default? := by
    have none : ∀ u : Wrapper, u.kind = x.kind → u.default? = none := fun u hu =>
      Wrapper.default?_eq_none (by rcases kind with h | h <;> simp [hu, h])
    simp only [List.findSome?_cons, none v outer, none w inner, none x rfl]
  bags _ := by simp only [List.foldr_cons, List.foldr_nil, bag, Table.merge_assoc]

theorem swapped {v w : Wrapper} (bare : c.store.bagAt v.id = ∅ ∨ c.store.bagAt w.id = ∅)
    (kinds : v.kind ≠ .default ∨ w.kind ≠ .default) : c.SameChain [v, w] [w, v] where
  flags _ _ := by simp only [List.any_cons, List.any_nil, Bool.or_left_comm]
  default? := by
    rcases kinds with h | h <;>
      simp only [List.findSome?_cons, Wrapper.default?_eq_none h, List.findSome?_nil]
  bags _ := by
    rcases bare with h | h <;> simp only [List.foldr_cons, List.foldr_nil, h, Table.merge_empty]

end SameChain

theorem Tidied.sameChain {ws ws' : List Wrapper} (h : c.Tidied ws ws') : c.SameChain ws ws' := by
  cases h with
  | remade before modifier bag => exact (SameChain.remade modifier bag).between before _
  | effects before kind bare => exact .drop bare (by simp [kind]) (by simp [kind])
  | again before kind bare other =>
    refine .drop bare (fun _ => other) fun default => ?_
    rw [default] at kind
    simp at kind
  | joined before kind outer inner bag =>
    exact (SameChain.joined kind outer inner bag).between before _
  | shadowed before kind bare outer => exact .drop bare (by simp [kind]) fun _ => outer
  | swapped before bare kinds => exact (SameChain.swapped bare kinds).between before _

theorem sameChain_of_tidied {ws ws' : List Wrapper} (h : Relation.ReflTransGen c.Tidied ws ws') :
    c.SameChain ws ws' := by
  induction h with
  | refl => exact .refl _
  | tail _ step ih => exact ih.trans step.sameChain

/-- Equivalent nodes give the same field, or the same fault, under whatever annotation, name and
path. Put in each other's place, anywhere and any number of times, they leave the compile of a root
as it was. Chains of wrappers that are tidied step by step lead to equivalent nodes. -/
theorem compile_of_equivalent (c : Compiler) :
    (∀ n m, c.Equivalent n m → ∀ a name path, c.field n a name path = c.field m a name path) ∧
      (∀ root root', Relation.ReflTransGen (c.Replaced c.Equivalent) root root' →
        (∀ extra path, c.schema root extra path = c.schema root' extra path) ∧
          ∀ options, c.compile root options = c.compile root' options) ∧
      ∀ (base : Node) ws ws', Relation.ReflTransGen c.Tidied ws ws' →
        c.Equivalent (base.wrapped ws) (base.wrapped ws') := by
  have swap : ∀ n m, c.Equivalent n m → c.Interchangeable n m := fun _ _ => (·.interchangeable)
  refine ⟨fun n m h => (swap n m h).field, fun root root' h => ?_, fun base ws ws' h =>
    (sameChain_of_tidied h).equivalent base⟩
  have schemas := schema_of_replaced swap h
  exact ⟨schemas, fun options => compile_congr options fun a => schemas (some a) []⟩

/-- An array of texts that may be missing. Its elements' default is shadowed, and they pass through
an effect; neither is seen, but the options of the inner default stay where they are. -/
theorem compile_of_equivalent_tags :
    let c : Compiler := ⟨(∅ : Store).addToBag 1 (Table.single (.text "index") (.bool true)), true⟩
    let text : Node := .base 0 (.scalar .string)
    let ws : List Wrapper :=
      [⟨5, .default (.text "a")⟩, ⟨4, .effects⟩, ⟨3, .default (.text "b")⟩, ⟨2, .optional⟩,
        ⟨1, .optional⟩]
    let ws' : List Wrapper := [⟨1, .optional⟩, ⟨5, .default (.text "a")⟩]
    let root (element : Node) : Node := .base 7 (.object [("tags", .base 6 (.array element))])
    Relation.ReflTransGen c.Tidied ws ws' ∧
      c.Equivalent (text.wrapped ws) (text.wrapped ws') ∧
      (∀ a, c.field (text.wrapped ws) a (some "tags") [] =
        c.field (text.wrapped ws') a (some "tags") []) ∧
      c.compile (root (text.wrapped ws)) (.untyped .null) =
        c.compile (root (text.wrapped ws')) (.untyped .null) := by
  intro c text ws ws' root
  have tidied : Relation.ReflTransGen c.Tidied ws ws' := by
    let outer : Wrapper := ⟨5, .default (.text "a")⟩
    refine .trans (.single (.effects [outer] rfl rfl)) ?_
    refine .trans (.single (.shadowed [outer] rfl rfl ⟨outer, by simp, rfl⟩)) ?_
    refine .trans (.single (.again [outer] (.inl rfl) rfl ⟨⟨1, .optional⟩, by simp, rfl⟩)) ?_
    exact .single (.swapped [] (.inl rfl) (.inr (by decide)))
  obtain ⟨fields, roots, chains⟩ := compile_of_equivalent c
  have equivalent := chains text ws ws' tidied
  have replaced : c.Replaced c.Equivalent (root (text.wrapped ws)) (root (text.wrapped ws')) :=
    .entry [] (.element (.here equivalent) rfl) rfl rfl
  exact ⟨tidied, equivalent, fun a => fields _ _ equivalent a _ _,
    (roots _ _ (.single replaced)).2 _⟩

end MapperSchema.Compiler
