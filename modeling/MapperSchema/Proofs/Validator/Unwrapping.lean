import Mathlib.Data.List.Infix
import Mathlib.Logic.Relation
import MapperSchema.Proofs.Validator.Wrappers

/-! What unwrapping finds in a chain of wrappers around a base. One walk from the outside in finds
the same: flags add up on the way, and of several defaults the first that is met is kept. -/
namespace MapperSchema

/-- What has been seen on the way in. -/
structure Seen where
  optional : Bool := false
  nullable : Bool := false
  default? : Option Value := none
  layers : List Node := []

namespace Seen

def cross (s : Seen) (outer : Node) : Modifier → Seen
  | .optional => { s with optional := true, layers := s.layers ++ [outer] }
  | .nullable => { s with nullable := true, layers := s.layers ++ [outer] }
  | .default v => { s with default? := s.default?.or (some v), layers := s.layers ++ [outer] }
  | .effects => { s with layers := s.layers ++ [outer] }

/-- At the base the walk ends. A literal null is nullable whatever has been seen. -/
def arrive (s : Seen) (id : NodeId) (form : Form) : Unwrapped :=
  ⟨id, form, s.optional, s.nullable || form.acceptsOnlyNull, s.default?,
    s.layers ++ [.base id form]⟩

def walk (s : Seen) : Node → Unwrapped
  | .base id form => s.arrive id form
  | .wrap id modifier inner => (s.cross (.wrap id modifier inner) modifier).walk inner

/-- The rest of the way, with what has been seen in front of it. -/
def followedBy (s : Seen) (u : Unwrapped) : Unwrapped :=
  { u with
    optional := s.optional || u.optional
    nullable := s.nullable || u.nullable
    default? := s.default?.or u.default?
    layers := s.layers ++ u.layers }

/-- A wrapper may be counted with what has been seen, or with the rest. -/
theorem followedBy_cross (s : Seen) (outer : Node) (modifier : Modifier) (u : Unwrapped) :
    (s.cross outer modifier).followedBy u = s.followedBy (u.under outer modifier) := by
  cases modifier <;> simp [cross, followedBy, Unwrapped.under]

theorem walk_eq (s : Seen) (n : Node) : s.walk n = s.followedBy n.unwrap := by
  induction n generalizing s with
  | wrap id modifier inner ih => rw [walk, ih, followedBy_cross, Node.unwrap_wrap]
  | _ => simp [walk, arrive, followedBy]

end Seen

namespace Node

theorem unwrap_eq_walk (n : Node) : n.unwrap = ({} : Seen).walk n := by
  simp [Seen.walk_eq, Seen.followedBy]

/-- The wrappers of a node, outermost first. -/
def wrappers : Node → List Wrapper
  | .base _ _ => []
  | .wrap id modifier inner => ⟨id, modifier⟩ :: inner.wrappers

/-- Every node is a base in its wrappers. -/
theorem wrapped_wrappers (n : Node) : n.unwrap.base.wrapped n.wrappers = n := by
  induction n with
  | wrap id modifier inner ih =>
    rw [unwrap_wrap, Unwrapped.base_under, wrappers, wrapped_cons, ih]
  | _ => rfl

variable (id : NodeId) (form : Form) (ws : List Wrapper)

theorem layers_wrapped : ((base id form).wrapped ws).unwrap.layers =
    ws.tails.map (base id form).wrapped := by
  induction ws with
  | nil => rfl
  | cons w ws ih =>
    rw [wrapped_cons, unwrap_wrap, Unwrapped.layers_under, ih, List.tails_cons, List.map_cons]
    rfl

/-- Seen from one of its layers, a node has the layers from there on. -/
theorem layers_of_layer {n layer : Node} {i : Nat} (there : n.unwrap.layers[i]? = some layer) :
    layer.unwrap.layers = n.unwrap.layers.drop i := by
  induction n generalizing i with
  | wrap id modifier inner ih =>
    rw [unwrap_wrap, Unwrapped.layers_under] at there ⊢
    cases i with
    | zero =>
      cases there
      rw [unwrap_wrap, Unwrapped.layers_under, List.drop_zero]
    | succ i => exact ih there
  | _ =>
    cases i with
    | zero =>
      cases there
      rfl
    | succ i => cases there

theorem optional_wrapped :
    ((base id form).wrapped ws).unwrap.optional ↔ ∃ w ∈ ws, w.kind = .optional := by
  rw [optional_unwrap, crosses_wrapped, crosses, Bool.or_false, List.any_eq_true]
  simp only [decide_eq_true_eq]

theorem nullable_wrapped : ((base id form).wrapped ws).unwrap.nullable ↔
    (∃ w ∈ ws, w.kind = .nullable) ∨ form = .literal .null := by
  rw [nullable_unwrap, crosses_wrapped, crosses, Bool.or_false, Bool.or_eq_true, List.any_eq_true,
    form_unwrap_wrapped, unwrap_base, Form.acceptsOnlyNull_iff]
  simp only [decide_eq_true_eq]

theorem default?_wrapped :
    ((base id form).wrapped ws).unwrap.default? = ws.findSome? Wrapper.default? := by
  rw [default?_unwrap, outermostDefault?_wrapped]
  exact Option.or_none

end Node

theorem Wrapper.default?_eq_some_iff {w : Wrapper} {v : Value} :
    w.default? = some v ↔ w.modifier = .default v := by
  obtain ⟨id, modifier⟩ := w
  cases modifier <;> simp [default?]

/-- What is found in a chain of wrappers around a base. -/
structure Unwrapped.ReadOff (u : Unwrapped) (id : NodeId) (form : Form) (ws : List Wrapper) :
    Prop where
  base : u.base = .base id form
  bare : u.base.kind.isWrapper = false
  layers : u.layers = ws.tails.map (Node.base id form).wrapped
  count : u.layers.length = ws.length + 1
  inside : ∀ (i : Nat) layer, u.layers[i]? = some layer → layer.unwrap.layers = u.layers.drop i
  optional : u.optional ↔ ∃ w ∈ ws, w.kind = .optional
  nullable : u.nullable ↔ (∃ w ∈ ws, w.kind = .nullable) ∨ form = .literal .null
  hasDefault : u.default?.isSome ↔ ∃ w ∈ ws, w.kind = .default
  /-- The kept default may be null. -/
  default? : ∀ v, u.default? = some v ↔ ∃ before w after, ws = before ++ w :: after ∧
    w.modifier = .default v ∧ ∀ x ∈ before, x.kind ≠ .default

theorem Node.readOff_wrapped (id : NodeId) (form : Form) (ws : List Wrapper) :
    ((base id form).wrapped ws).unwrap.ReadOff id form ws where
  base := base_unwrap_wrapped _ ws
  bare := by
    rw [base_unwrap_wrapped]
    exact form.isWrapper_kind
  layers := layers_wrapped id form ws
  count := by rw [layers_wrapped, List.length_map, List.length_tails]
  inside i layer := layers_of_layer
  optional := optional_wrapped id form ws
  nullable := nullable_wrapped id form ws
  hasDefault := by rw [default?_wrapped, Wrapper.isSome_findSome?_default?_iff]
  default? v := by
    rw [default?_wrapped, List.findSome?_eq_some_iff]
    simp only [Wrapper.default?_eq_some_iff, ← Option.not_isSome_iff_eq_none,
      Wrapper.isSome_default?_iff, ne_eq]

namespace Wrapper

/-- Another order of a chain, one of its wrappers once more, or a default or an effect put in. -/
inductive Rearranged : List Wrapper → List Wrapper → Prop
  | permuted {ws ws'} (perm : ws.Perm ws') : Rearranged ws ws'
  | repeated (before) {w again after} (mem : w ∈ before ++ after)
    (modifier : again.modifier = w.modifier) :
    Rearranged (before ++ after) (before ++ again :: after)
  | inserted (before) {w after} (kind : w.kind = .default ∨ w.kind = .effects) :
    Rearranged (before ++ after) (before ++ w :: after)

/-- Another order of a chain in which its defaults come as they did, or a wrapper put in that is
none. -/
inductive DefaultsKept : List Wrapper → List Wrapper → Prop
  | permuted {ws ws'} (perm : ws.Perm ws')
    (defaults : ws.filterMap Wrapper.default? = ws'.filterMap Wrapper.default?) :
    DefaultsKept ws ws'
  | inserted (before) {w after} (kind : w.kind ≠ .default) :
    DefaultsKept (before ++ after) (before ++ w :: after)

variable {ws ws' : List Wrapper} {k : Kind}

theorem exists_mem_middle_iff {before after : List Wrapper} {w : Wrapper} :
    (∃ x ∈ before ++ w :: after, x.kind = k) ↔ w.kind = k ∨ ∃ x ∈ before ++ after, x.kind = k := by
  rw [← List.exists_mem_cons_iff (fun x : Wrapper => x.kind = k)]
  simp only [List.perm_middle.mem_iff]

theorem Rearranged.exists_kind_iff (h : Rearranged ws ws') (flag : k = .optional ∨ k = .nullable) :
    (∃ w ∈ ws, w.kind = k) ↔ ∃ w ∈ ws', w.kind = k := by
  cases h with
  | permuted perm => simp only [perm.mem_iff]
  | @repeated before w again after mem modifier =>
    have same : again.kind = w.kind := congrArg Modifier.kind modifier
    rw [exists_mem_middle_iff, or_iff_right_of_imp]
    exact fun found => ⟨w, mem, same.symm.trans found⟩
  | @inserted before w after kind =>
    have other : w.kind ≠ k := by
      rcases kind with kind | kind <;> rcases flag with rfl | rfl <;> simp [kind]
    rw [exists_mem_middle_iff, or_iff_right other]

theorem exists_kind_iff_of_rearranged (h : Relation.EqvGen Rearranged ws ws')
    (flag : k = .optional ∨ k = .nullable) :
    (∃ w ∈ ws, w.kind = k) ↔ ∃ w ∈ ws', w.kind = k := by
  induction h with
  | rel _ _ step => exact step.exists_kind_iff flag
  | refl _ => rfl
  | symm _ _ _ ih => exact ih.symm
  | trans _ _ _ _ _ ih ih' => exact ih.trans ih'

theorem DefaultsKept.findSome?_eq (h : DefaultsKept ws ws') :
    ws.findSome? default? = ws'.findSome? default? := by
  cases h with
  | permuted perm defaults => rw [← List.head?_filterMap, defaults, List.head?_filterMap]
  | inserted before kind =>
    rw [List.findSome?_append, List.findSome?_append, List.findSome?_cons, default?_eq_none kind]

theorem findSome?_eq_of_defaultsKept (h : Relation.EqvGen DefaultsKept ws ws') :
    ws.findSome? default? = ws'.findSome? default? := by
  induction h with
  | rel _ _ step => exact step.findSome?_eq
  | refl _ => rfl
  | symm _ _ _ ih => exact ih.symm
  | trans _ _ _ _ _ ih ih' => exact ih.trans ih'

end Wrapper

namespace Node

/-- Every node is a base in a chain of wrappers, and unwrapping it is one walk along the chain. The
base, the layers, the flags and the outermost default are read off the chain; so the order of its
wrappers, and defaults and effects, do not matter for the base and the flags, nor do wrappers that
are not defaults for the kept default. -/
theorem unwrapping_read_off :
    (∀ n : Node, (∃ id form ws, n = (base id form).wrapped ws) ∧ n.unwrap = ({} : Seen).walk n) ∧
    ∀ id form ws, let u := ((base id form).wrapped ws).unwrap
      u.ReadOff id form ws ∧
      (∀ ws', Relation.EqvGen Wrapper.Rearranged ws ws' →
        let u' := ((base id form).wrapped ws').unwrap
        u'.base = u.base ∧ u'.optional = u.optional ∧ u'.nullable = u.nullable) ∧
      ∀ ws', Relation.EqvGen Wrapper.DefaultsKept ws ws' →
        ((base id form).wrapped ws').unwrap.default? = u.default? := by
  constructor
  · exact fun n => ⟨⟨_, _, _, n.wrapped_wrappers.symm⟩, n.unwrap_eq_walk⟩
  · intro id form ws u
    have read := readOff_wrapped id form ws
    refine ⟨read, fun ws' rearranged => ?_, fun ws' kept => ?_⟩
    · have read' := readOff_wrapped id form ws'
      have flag := fun k => Wrapper.exists_kind_iff_of_rearranged (k := k) rearranged
      refine ⟨read'.base.trans read.base.symm, Bool.eq_iff_iff.2 ?_, Bool.eq_iff_iff.2 ?_⟩
      · exact read'.optional.trans ((flag _ (.inl rfl)).symm.trans read.optional.symm)
      · rw [read'.nullable, ← flag _ (.inr rfl)]
        exact read.nullable.symm
    · rw [default?_wrapped, ← Wrapper.findSome?_eq_of_defaultsKept kept]
      exact (default?_wrapped id form ws).symm

/-- A number with null for its default and zero for a hidden one. The null goes and an effect comes,
which is not seen in the flags; the option goes and an effect comes, which is not seen in the
default. -/
theorem unwrapping_read_off_number :
    let optional : Wrapper := ⟨1, .optional⟩
    let null : Wrapper := ⟨2, .default .null⟩
    let zero : Wrapper := ⟨3, .default (.int 0)⟩
    let effects : Wrapper := ⟨4, .effects⟩
    let number (ws : List Wrapper) := ((base 0 (.scalar .number)).wrapped ws).unwrap
    Relation.EqvGen Wrapper.Rearranged [optional, null, zero] [zero, optional, effects] ∧
      (number [zero, optional, effects]).optional = (number [optional, null, zero]).optional ∧
      Relation.EqvGen Wrapper.DefaultsKept [optional, null, zero] [null, effects, zero] ∧
      (number [null, effects, zero]).default? = (number [optional, null, zero]).default? := by
  intro optional null zero effects number
  have rearranged : Relation.EqvGen Wrapper.Rearranged [optional, null, zero]
      [zero, optional, effects] := by
    have gone : Wrapper.Rearranged [optional, zero] [optional, null, zero] :=
      .inserted [optional] (.inl rfl)
    have turned : Wrapper.Rearranged [optional, zero] [zero, optional] :=
      .permuted (.swap zero optional [])
    have come : Wrapper.Rearranged [zero, optional] [zero, optional, effects] :=
      .inserted [zero, optional] (.inr rfl)
    exact .trans _ _ _ (.symm _ _ (.rel _ _ gone)) (.trans _ _ _ (.rel _ _ turned) (.rel _ _ come))
  have kept : Relation.EqvGen Wrapper.DefaultsKept [optional, null, zero]
      [null, effects, zero] := by
    have gone : Wrapper.DefaultsKept [null, zero] [optional, null, zero] :=
      .inserted [] (by decide)
    have come : Wrapper.DefaultsKept [null, zero] [null, effects, zero] :=
      .inserted [null] (by decide)
    exact .trans _ _ _ (.symm _ _ (.rel _ _ gone)) (.rel _ _ come)
  obtain ⟨-, flags, default⟩ := unwrapping_read_off.2 0 (.scalar .number) [optional, null, zero]
  exact ⟨rearranged, (flags _ rearranged).2.1, kept, default _ kept⟩

end Node

end MapperSchema
