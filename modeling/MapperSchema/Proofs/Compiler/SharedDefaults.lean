import Mathlib.Data.Fintype.EquivFin
import MapperSchema.Authoring
import MapperSchema.Proofs.Annotation.Grammar
import MapperSchema.Proofs.Compiler.Defaults

/-! Defaults that documents share. A list, mapping or set is copied for each document with all that
is in it, but a tuple is handed out as it is; so what one document changes in a part of a tuple
shows in the defaults of the next. -/
namespace MapperSchema

namespace Value

/-- The value itself, or a part of it inside lists, tuples and the values of mappings. -/
inductive Contains : Value → Value → Prop
  | self {v} : Contains v v
  | item {items v w} (mem : v ∈ items) (inside : Contains v w) : Contains (.list items) w
  | part {items v w} (mem : v ∈ items) (inside : Contains v w) : Contains (.tuple items) w
  | entry {entries entry w} (mem : entry ∈ entries) (inside : Contains entry.2 w) :
    Contains (.mapping entries) w

/-- A document could change the value in place, or a part of it. -/
def HoldsMutable (v : Value) : Prop := ∃ w, v.Contains w ∧ w.isMutable

/-- The default of the next document, after one has grown its own at these keys. A copy is the
document's own; all else is seen by the next. -/
def handedAfter (w : Value) (keys : List Key) : Value → Value
  | .producer v => .producer v
  | v => (pushAt? w keys v).getD v

/-- What a document does to its default may show in the default of the next. -/
def Shared (default : Value) : Prop := ∃ w keys, handedAfter w keys default ≠ default

theorem HoldsMutable.of_isMutable {v : Value} (h : v.isMutable) : v.HoldsMutable := ⟨v, .self, h⟩

theorem HoldsMutable.part {items : List Value} {v : Value} (mem : v ∈ items)
    (inside : v.HoldsMutable) : HoldsMutable (.tuple items) := by
  obtain ⟨w, contains, mutable⟩ := inside
  exact ⟨w, .part mem contains, mutable⟩

/-- What is not mutable itself holds something mutable only as a tuple. -/
theorem HoldsMutable.exists_part {v : Value} (h : v.HoldsMutable) (fixed : ¬v.isMutable) :
    ∃ items, v = .tuple items ∧ ∃ part ∈ items, part.HoldsMutable := by
  obtain ⟨w, contains, mutable⟩ := h
  cases contains with
  | self => exact absurd mutable fixed
  | item mem inside => exact absurd rfl fixed
  | part mem inside => exact ⟨_, rfl, _, mem, w, inside, mutable⟩
  | entry mem inside => exact absurd rfl fixed

/-- A set has room for one more text. -/
theorem exists_text_notMem (members : List Key) : ∃ s, members.any (· == .text s) = false := by
  obtain ⟨s, fresh⟩ := Infinite.exists_notMem_finset (members.map Key.label).toFinset
  refine ⟨s, List.any_eq_false.2 fun k mem same => fresh ?_⟩
  rw [List.mem_toFinset, List.mem_map]
  exact ⟨k, mem, by rw [Key.beq_text_iff.1 same, Key.label_text]⟩

/-- Lists, mappings and sets can grow, a mapping for instance by itself, which is none of its own
values. -/
theorem exists_pushed {v : Value} (h : v.isMutable) : ∃ w v', push? w v = some v' ∧ v' ≠ v := by
  cases v with
  | list items => exact ⟨.null, _, rfl, by simp⟩
  | mapping entries =>
    refine ⟨.mapping entries, _, rfl, fun same => ?_⟩
    have found : ((Table.ofList entries).insert (Key.text "pushed") (.mapping entries)).get?
        (.text "pushed") = some (.mapping entries) := by simp
    have mem := Bag.get?_text_eq_some_iff.1 found
    rw [Value.mapping.inj same] at mem
    have smaller := List.sizeOf_lt_of_mem mem
    simp only [Prod.mk.sizeOf_spec, Value.mapping.sizeOf_spec] at smaller
    omega
  | set members =>
    obtain ⟨s, fresh⟩ := exists_text_notMem members
    refine ⟨.text s, .set (members ++ [.text s]), ?_, by simp⟩
    simp only [push?, toKey?, Option.map_some, fresh, Bool.false_eq_true, if_false]
  | _ => cases h

theorem pushAt?_part {items : List Value} {i : Nat} {v v' w : Value} {keys : List Key}
    (there : items[i]? = some v) (grown : pushAt? w keys v = some v') :
    pushAt? w (.atom (.int i) :: keys) (.tuple items) = some (.tuple (items.set i v')) := by
  have whole : (Atom.int i).whole? = some (i : Int) := rfl
  have place : position? i items.length = some i := by
    obtain ⟨lt, -⟩ := List.getElem?_eq_some_iff.1 there
    have counted : ¬(i : Int) < 0 := by omega
    rw [position?, if_neg counted, if_pos ⟨by omega, by omega⟩, Int.toNat_natCast]
  have changed : modifyAt? (pushAt? w keys) items i = some (items.set i v') := by
    rw [modifyAt?, there, Option.bind_some, grown, Option.map_some]
  rw [pushAt?, modifyIn?, whole, Option.bind_some, place, Option.bind_some, changed,
    Option.map_some]

/-- What holds a mutable value can change. Only through tuples one has to go inside for it. -/
theorem HoldsMutable.exists_grown {v : Value} (h : v.HoldsMutable) :
    ∃ w keys v', pushAt? w keys v = some v' ∧ v' ≠ v := by
  obtain ⟨u, contains, mutable⟩ := h
  have outermost : ∀ {v : Value}, v.isMutable → ∃ w keys v', pushAt? w keys v = some v' ∧ v' ≠ v :=
    fun h => (exists_pushed h).imp fun w grown => ⟨[], grown⟩
  induction contains with
  | self => exact outermost mutable
  | item mem inside ih => exact outermost rfl
  | entry mem inside ih => exact outermost rfl
  | @part items v u mem inside ih =>
    obtain ⟨w, keys, v', grown, other⟩ := ih mutable
    obtain ⟨i, there⟩ := List.mem_iff_getElem?.1 mem
    refine ⟨w, _, _, pushAt?_part there grown, fun same => other ?_⟩
    obtain ⟨lt, -⟩ := List.getElem?_eq_some_iff.1 there
    have changed : (items.set i v')[i]? = some v' := List.getElem?_set_self lt
    rw [Value.tuple.inj same, there] at changed
    exact (Option.some.inj changed).symm

theorem holdsMutable_of_pushAt? {w v v' : Value} {keys : List Key}
    (grown : pushAt? w keys v = some v') : v.HoldsMutable := by
  induction keys generalizing v v' with
  | nil =>
    cases v with
    | list items => exact .of_isMutable rfl
    | mapping entries => exact .of_isMutable rfl
    | set members => exact .of_isMutable rfl
    | _ => cases grown
  | cons k keys ih =>
    cases v with
    | list items => exact .of_isMutable rfl
    | mapping entries => exact .of_isMutable rfl
    | set members => exact .of_isMutable rfl
    | tuple items =>
      cases k with
      | tuple parts => cases grown
      | atom a =>
        rw [pushAt?, modifyIn?] at grown
        obtain ⟨i, -, grown⟩ := Option.bind_eq_some_iff.1 grown
        obtain ⟨j, -, grown⟩ := Option.bind_eq_some_iff.1 grown
        obtain ⟨items', grown, -⟩ := Option.map_eq_some_iff.1 grown
        obtain ⟨part', grown, -⟩ := Option.map_eq_some_iff.1 grown
        obtain ⟨part, there, grown⟩ := Option.bind_eq_some_iff.1 grown
        exact .part (List.mem_of_getElem? there) (ih grown)
    | atom a => cases k <;> cases grown
    | producer u => cases k <;> cases grown

theorem handedAfter_eq (w : Value) (keys : List Key) (v : Value) :
    handedAfter w keys v = (pushAt? w keys v).getD v := by
  cases v with
  | producer u => cases keys with
    | nil => rfl
    | cons k keys => cases k <;> rfl
  | _ => rfl

/-- Handed out as it is, a value is shared if there is something in it that can be changed. -/
theorem shared_iff {v : Value} : v.Shared ↔ v.HoldsMutable := by
  simp only [Shared, handedAfter_eq]
  constructor
  · rintro ⟨w, keys, changed⟩
    cases grown : pushAt? w keys v with
    | some v' => exact holdsMutable_of_pushAt? grown
    | none =>
      rw [grown] at changed
      exact absurd rfl changed
  · intro h
    obtain ⟨w, keys, v', grown, other⟩ := h.exists_grown
    exact ⟨w, keys, by rwa [grown, Option.getD_some]⟩

theorem not_holdsMutable_producer (v : Value) : ¬(producer v).HoldsMutable := by
  rintro ⟨w, contains, mutable⟩
  cases contains
  cases mutable

theorem producer_ne_self (v : Value) : producer v ≠ v := fun same => by
  have size := congrArg sizeOf same
  rw [producer.sizeOf_spec] at size
  omega

end Value

namespace Compiler

/-- How a default that is found in the wrappers of a field is handed to documents. -/
structure Hands (v : Value) (f : Field) : Prop where
  copied : f.default? = some (.producer v) ↔ v.isMutable
  plain : f.default? = some v ↔ ¬v.isMutable
  shared : (∃ d, f.default? = some d ∧ d.Shared) ↔
    ∃ items, v = .tuple items ∧ ∃ part ∈ items, part.HoldsMutable

theorem hands_of_handed {v : Value} {f : Field}
    (handed : f.default? = some (if v.isMutable then .producer v else v)) : Hands v f := by
  by_cases mutable : v.isMutable
  · rw [if_pos mutable] at handed
    refine ⟨iff_of_true handed mutable, iff_of_false ?_ (not_not_intro mutable), ?_⟩
    · rw [handed, Option.some.injEq]
      exact v.producer_ne_self
    · refine iff_of_false ?_ ?_
      · rintro ⟨d, given, shared⟩
        cases handed.symm.trans given
        exact v.not_holdsMutable_producer (Value.shared_iff.1 shared)
      · rintro ⟨items, rfl, -⟩
        cases mutable
  · rw [if_neg mutable] at handed
    refine ⟨iff_of_false ?_ mutable, iff_of_true handed mutable, ?_, ?_⟩
    · rw [handed, Option.some.injEq]
      exact v.producer_ne_self.symm
    · rintro ⟨d, given, shared⟩
      cases handed.symm.trans given
      exact (Value.shared_iff.1 shared).exists_part mutable
    · rintro ⟨items, rfl, part, mem, inside⟩
      exact ⟨_, handed, Value.shared_iff.2 (.part mem inside)⟩

variable {c : Compiler}

theorem fieldOf_hands {p : Position} {v : Value}
    (free : c.lastGiven? p.overrides p.node "default" = none)
    (outermost : p.node.outermostDefault? = some v) : Hands v (c.fieldOf p) := by
  apply hands_of_handed
  rw [default?_fieldOf_of_free free, outermost, Option.map_some, Option.some_or, v.asDefault_eq]

/-- Whether a default is copied hangs on its outermost part alone. In every definition, and in a
field that is compiled by itself, a default that a wrapper gives and no option replaces is copied
exactly if it is a list, a mapping or a set; so it is shared by all documents exactly if it is a
tuple with something in it that can be changed. -/
theorem tuple_defaults_shared (c : Compiler) :
    (∀ root extra path d, c.Compiles root extra path d →
      (∀ f, d.Holds f → ∃ p, c.Matches root extra path d p f) ∧
        ∀ p f, c.Matches root extra path d p f →
          c.lastGiven? p.overrides p.node "default" = none →
            ∀ v, p.node.outermostDefault? = some v → Hands v f) ∧
      ∀ node a name path j f, (c.field node a name path).outcome j = .ok f →
        c.lastGiven? (overridesFor a name) node "default" = none →
          ∀ v, node.outermostDefault? = some v → Hands v f := by
  constructor
  · intro root extra path d compiled
    refine ⟨fun f held => Matches.of_holds compiled.result_eq held, ?_⟩
    intro p f found free v outermost
    obtain ⟨-, rfl⟩ := compiled.field_eq found
    exact fieldOf_hands free outermost
  · intro node a name path j f ok free v outermost
    obtain ⟨-, rfl⟩ := field_eq_of_ok ok
    exact fieldOf_hands (p := fieldAlone node a name path) free outermost

/-- A list of pairs and a pair of lists. The list is copied with all that is in it; the pair is
shared, with the lists in it. -/
theorem tuple_defaults_shared_pair :
    let c : Compiler := ⟨∅, true⟩
    let pair : Value := .tuple [.list [.int 1], .list []]
    let any (v : Value) : Node := .wrap 1 (.default v) (.base 0 (.scalar .any))
    let root : Node := .base 2 (.object [("pairs", any (.list [pair])), ("pair", any pair)])
    let pairs := entryAt [] ∅ ("pairs", any (.list [pair]))
    let single := entryAt [] ∅ ("pair", any pair)
    ∃ d, c.Compiles root none [] d ∧
      (c.Matches root none [] d pairs (c.fieldOf pairs) ∧
        (c.fieldOf pairs).default? = some (.producer (.list [pair]))) ∧
      c.Matches root none [] d single (c.fieldOf single) ∧
        ∃ v, (c.fieldOf single).default? = some v ∧ v.Shared := by
  intro c pair any root pairs single
  have compiled : c.Compiles root none [] _ := .schema {} rfl
  have handed := ((tuple_defaults_shared c).1 _ _ _ _ compiled).2
  refine ⟨_, compiled, ⟨?first, ?_⟩, ?second, ?_⟩
  case first => exact .entry (i := 0) rfl rfl rfl
  case second => exact .entry (i := 1) rfl rfl rfl
  · exact (handed pairs _ (.entry (i := 0) rfl rfl rfl) rfl _ rfl).copied.2 rfl
  · have mutable : (Value.list [.int 1]).HoldsMutable := .of_isMutable rfl
    exact (handed single _ (.entry (i := 1) rfl rfl rfl) rfl _ rfl).shared.2
      ⟨_, rfl, _, List.mem_cons_self, mutable⟩

end Compiler

namespace Authoring

/-- A list in a tuple as the default of a field: it holds something mutable, and is handed to every
document as it is, so that what one pushes to the list is seen by the next. -/
theorem list_in_tuple_shared :
    let value : Value := .tuple [.list [.int 1]]
    let build : Authoring Node := do object [("a", ← wrap (.default value) (← scalar .any))]
    value.HoldsMutable ∧ ∃ node s d f, outcome build {} = (.ok node, s) ∧
      (outcome (compile none false node (.untyped .null)) s).1 = .ok d ∧ d.field? "a" = some f ∧
      f.default? = some value ∧ f.default? ≠ some (.producer value) ∧
      Value.handedAfter (.int 2) [.atom (.int 0)] value = .tuple [.list [.int 1, .int 2]] := by
  intro value build
  have mutable : value.HoldsMutable := .part List.mem_cons_self (.of_isMutable rfl)
  have compiled : ∃ node s d f, outcome build {} = (.ok node, s) ∧
      (outcome (compile none false node (.untyped .null)) s).1 = .ok d ∧ d.field? "a" = some f ∧
      f.default? = some value := ⟨_, _, _, _, rfl, rfl, rfl, rfl⟩
  obtain ⟨node, s, d, f, made, ok, found, handed⟩ := compiled
  refine ⟨mutable, node, s, d, f, made, ok, found, handed, ?_, rfl⟩
  rw [handed, ne_eq, Option.some.injEq]
  exact value.producer_ne_self.symm

end Authoring

end MapperSchema
