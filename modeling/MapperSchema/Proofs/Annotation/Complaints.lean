import Mathlib.Data.List.Basic
import MapperSchema.Proofs.Annotation.Grammar

/-! What is complained about in a value that denotes no annotation: each thing that is wrong with
it once, in the order of the parts and, within a part, in the order in which it is written. -/
namespace MapperSchema

/-- A way to something that is wrong: which part, entry, or side of an entry, from outside in. -/
abbrev Place := List Nat

/-- The issues that stand at places, one at each of them, in lexicographic order of the places. -/
def Lists (P : Place → Issue → Prop) (issues : List Issue) : Prop :=
  ∃ found : List (Place × Issue), issues = found.map (·.2) ∧
    found.Pairwise (fun x y => List.Lex (· < ·) x.1 y.1) ∧
    ∀ place issue, (place, issue) ∈ found ↔ P place issue

/-- Issues moved below a step of the way. -/
inductive Under (n : Nat) (P : Place → Issue → Prop) : Place → Issue → Prop
  | step {place issue} (h : P place issue) : Under n P (n :: place) issue

namespace Lists

variable {P Q : Place → Issue → Prop} {xs ys : List Issue}

theorem congr (same : ∀ place issue, P place issue ↔ Q place issue) (h : Lists P xs) :
    Lists Q xs := by
  obtain ⟨found, issues, order, all⟩ := h
  exact ⟨found, issues, order, fun place issue => (all place issue).trans (same place issue)⟩

theorem nil (none : ∀ place issue, ¬P place issue) : Lists P [] :=
  ⟨[], rfl, .nil, fun place issue => iff_of_false (List.not_mem_nil) (none place issue)⟩

theorem single {issue : Issue}
    (only : ∀ place issue', P place issue' ↔ place = [] ∧ issue' = issue) : Lists P [issue] :=
  ⟨[([], issue)], rfl, List.pairwise_singleton .., by simp [only]⟩

theorem toList (o : Option Issue) : Lists (fun place issue => place = [] ∧ o = some issue)
    o.toList := by
  cases o with
  | none => exact nil (by simp)
  | some issue => exact single (by simp [eq_comm])

theorem under (n : Nat) (h : Lists P xs) : Lists (Under n P) xs := by
  obtain ⟨found, rfl, order, all⟩ := h
  refine ⟨found.map fun x => (n :: x.1, x.2), by simp, ?_, fun place issue => ?_⟩
  · exact List.pairwise_map.2 (order.imp .cons)
  · constructor
    · intro mem
      obtain ⟨⟨place, issue⟩, there, ⟨⟩⟩ := List.mem_map.1 mem
      exact .step ((all ..).1 there)
    · rintro ⟨h⟩
      exact List.mem_map.2 ⟨_, (all ..).2 h, rfl⟩

theorem append (h : Lists P xs) (h' : Lists Q ys)
    (before : ∀ {place issue place' issue'}, P place issue → Q place' issue' →
      List.Lex (· < ·) place place') :
    Lists (fun place issue => P place issue ∨ Q place issue) (xs ++ ys) := by
  obtain ⟨found, rfl, order, all⟩ := h
  obtain ⟨found', rfl, order', all'⟩ := h'
  refine ⟨found ++ found', by simp, List.pairwise_append.2 ⟨order, order', ?_⟩,
    fun place issue => ?_⟩
  · exact fun x mem y mem' => before ((all ..).1 mem) ((all' ..).1 mem')
  · rw [List.mem_append, all, all']

/-- What stands under a step comes before what stands under later ones. -/
theorem under_append (n : Nat) (h : Lists P xs) (h' : Lists Q ys)
    (later : ∀ {place issue}, Q place issue → ∃ m rest, place = m :: rest ∧ n < m) :
    Lists (fun place issue => Under n P place issue ∨ Q place issue) (xs ++ ys) := by
  refine (h.under n).append h' fun first second => ?_
  obtain ⟨m, rest, rfl, lt⟩ := later second
  cases first
  exact .rel lt

/-- Issues of items, with the places counted from `n`: those of the tail are the next ones. -/
theorem flatMap_from {β : Type} {f : β → List Issue} {P : β → Place → Issue → Prop}
    (each : ∀ x, Lists (P x) (f x)) (xs : List β) (n : Nat) :
    Lists (fun place issue => ∃ i x, xs[i]? = some x ∧ Under (n + i) (P x) place issue)
      (xs.flatMap f) := by
  induction xs generalizing n with
  | nil => exact nil (by simp)
  | cons x xs ih =>
    have first := under_append n (each x) (ih (n + 1)) (by
      rintro _ _ ⟨i, y, -, ⟨-⟩⟩
      exact ⟨_, _, rfl, by omega⟩)
    refine first.congr fun place issue => ⟨?_, ?_⟩
    · rintro (here | ⟨i, y, at_, there⟩)
      · exact ⟨0, x, rfl, here⟩
      · exact ⟨i + 1, y, at_, by rwa [Nat.add_right_comm] at there⟩
    · rintro ⟨_ | i, y, at_, there⟩
      · cases at_
        exact .inl there
      · exact .inr ⟨i, y, at_, by rwa [Nat.add_right_comm]⟩

/-- Issues of items, each under the place of its item. -/
theorem flatMap {β : Type} {f : β → List Issue} {P : β → Place → Issue → Prop}
    (each : ∀ x, Lists (P x) (f x)) (xs : List β) :
    Lists (fun place issue => ∃ i x, xs[i]? = some x ∧ Under i (P x) place issue)
      (xs.flatMap f) := by
  simpa only [Nat.zero_add] using flatMap_from each xs 0

end Lists

/-- Why a key spells no text. -/
inductive Key.Unspelled (members : Members) : Key → Complaint → Prop
  | undecodable {data : List UInt8} (none : decodeText? data = none) :
    Unspelled members (.atom (.bytes data)) .undecodableText
  | notText {k : Key} (other : k.Other) (none : members.get? k = none) :
    Unspelled members k .notText

theorem Members.readText_eq_error_iff {members : Members} {k : Key} {c : Complaint} :
    members.readText k = .error c ↔ k.Unspelled members c := by
  constructor
  · intro unread
    rcases k.cases_other with ⟨t, rfl⟩ | ⟨data, rfl⟩ | other
    · cases unread
    · rw [readText_bytes] at unread
      cases decoded : decodeText? data with
      | some t => simp [decoded] at unread
      | none =>
        rw [decoded] at unread
        cases unread
        exact .undecodable decoded
    · rw [readText_other members other] at unread
      cases member : members.get? k with
      | some t => simp [member] at unread
      | none =>
        rw [member] at unread
        cases unread
        exact .notText other member
  · rintro (none | ⟨other, none⟩)
    · rw [readText_bytes, none]
      rfl
    · rw [readText_other members other, none]
      rfl

/-- What is wrong with a value that should be a mapping with text keys, given what may be wrong
with the value of an entry: it is none, or there is something about the key or the value of an
entry. -/
inductive Value.WrongMapping (members : Members)
    (item : List String → Value → Place → Issue → Prop) (location : List String) :
    Value → Place → Issue → Prop
  | notMapping {v} (other : ∀ entries, v ≠ .mapping entries) :
    WrongMapping members item location v [] ⟨location, .notMapping⟩
  | key {entries i entry c} (at_ : entries[i]? = some entry)
    (unspelled : entry.1.Unspelled members c) :
    WrongMapping members item location (.mapping entries) [i, 0]
      ⟨location ++ [entry.1.label, "[key]"], c⟩
  | value {entries i entry place issue} (at_ : entries[i]? = some entry)
    (wrong : item (location ++ [entry.1.label]) entry.2 place issue) :
    WrongMapping members item location (.mapping entries) (i :: 1 :: place) issue

/-- Options may have any values. -/
def Value.WrongOptions (members : Members) : List String → Value → Place → Issue → Prop :=
  WrongMapping members fun _ _ _ _ => False

def Value.WrongTypeOptions (members : Members) : List String → Value → Place → Issue → Prop :=
  WrongMapping members (WrongOptions members)

/-- A value that names no mode. -/
inductive Value.WrongMode (location : List String) (v : Value) : Place → Issue → Prop
  | none (other : ∀ mode, ¬UnknownKeys.Denotes v mode) :
    WrongMode location v [] ⟨location, .notOneOf UnknownKeys.names⟩

namespace Annotation

/-- What is wrong with a mapping that should denote an annotation. Each of the parts is looked for
under the name that is used for it; any other key is one too many. -/
inductive Wrong (members : Members) (given : Bag) : Place → Issue → Prop
  | schemaOptions {name v place issue} (used : schemaOptionsSpelling.Used given name v)
    (wrong : v.WrongOptions members [name] place issue) : Wrong members given (0 :: place) issue
  | typeOptions {name v place issue} (used : typeOptionsSpelling.Used given name v)
    (wrong : v.WrongTypeOptions members [name] place issue) :
    Wrong members given (1 :: place) issue
  | unknownKeys {name v place issue} (used : unknownKeysSpelling.Used given name v)
    (wrong : v.WrongMode [name] place issue) : Wrong members given (2 :: place) issue
  | unexpected {i name v} (at_ : given.rows[i]? = some (.text name, v))
    (unused : ∀ s ∈ spellings, ∀ w, ¬s.Used given name w) :
    Wrong members given [3, i] ⟨[name], .unexpected⟩
  | notText {i k v} (at_ : given.rows[i]? = some (k, v)) (other : ∀ name, k ≠ .text name) :
    Wrong members given [3, i] ⟨[k.label], .keyNotText⟩

theorem lists_keyIssues (members : Members) (location : List String) (k : Key) :
    Lists (fun place issue => place = [] ∧ ∃ c, k.Unspelled members c ∧
      issue = ⟨location ++ [k.label, "[key]"], c⟩) (keyIssues members location k) := by
  unfold keyIssues
  simp only [← Members.readText_eq_error_iff]
  cases members.readText k with
  | ok s => exact .nil (by simp)
  | error c => exact .single (by simp)

theorem lists_readMapping {α : Type} {read : List String → Value → List Issue × α}
    {wrong : List String → Value → Place → Issue → Prop} (members : Members)
    (each : ∀ location v, Lists (wrong location v) (read location v).1) (location : List String)
    (v : Value) :
    Lists (v.WrongMapping members wrong location) (readMapping members read location v).1 := by
  cases v with
  | mapping entries =>
    have entry (entry : Key × Value) := (lists_keyIssues members location entry.1).under_append 0
      ((each (location ++ [entry.1.label]) entry.2).under 1) (by
        rintro _ _ ⟨-⟩
        exact ⟨_, _, rfl, Nat.one_pos⟩)
    rw [readMapping_mapping]
    refine (Lists.flatMap entry entries).congr fun place issue => ⟨?_, ?_⟩
    · rintro ⟨i, entry, at_, ⟨⟨rfl, c, unspelled, rfl⟩ | ⟨⟨found⟩⟩⟩⟩
      · exact .key at_ unspelled
      · exact .value at_ found
    · rintro (other | ⟨at_, unspelled⟩ | ⟨at_, found⟩)
      · exact absurd rfl (other entries)
      · exact ⟨_, _, at_, .step (.inl (.step ⟨rfl, _, unspelled, rfl⟩))⟩
      · exact ⟨_, _, at_, .step (.inr (.step found))⟩
  | _ =>
    refine .single fun place issue => ⟨?_, ?_⟩
    · rintro ⟨⟩
      exact ⟨rfl, rfl⟩
    · rintro ⟨rfl, rfl⟩
      refine .notMapping fun _ same => ?_
      cases same

theorem lists_readOptions (members : Members) (location : List String) (v : Value) :
    Lists (v.WrongOptions members location) (readOptions members location v).1 :=
  lists_readMapping members (fun _ _ => .nil fun _ _ h => h) location v

theorem lists_readTypeOptions (members : Members) (location : List String) (v : Value) :
    Lists (v.WrongTypeOptions members location) (readTypeOptions members location v).1 :=
  lists_readMapping members (lists_readOptions members) location v

theorem lists_readUnknownKeys (location : List String) (v : Value) :
    Lists (v.WrongMode location) (readUnknownKeys location v).1 := by
  by_cases named : ∃ mode, UnknownKeys.Denotes v mode
  · obtain ⟨mode, denotes⟩ := named
    rw [(readUnknownKeys_iff ..).2 denotes]
    refine .nil fun _ _ wrong => ?_
    obtain ⟨other⟩ := wrong
    exact other mode denotes
  · have single : (readUnknownKeys location v).1 = [⟨location, .notOneOf UnknownKeys.names⟩] := by
      unfold readUnknownKeys
      split
      · exact absurd ⟨none, .null⟩ named
      · split
        next mode name =>
          rw [← UnknownKeys.name_of_ofName? name] at named
          exact absurd ⟨some mode, .mode mode⟩ named
        next => rfl
      · rfl
    rw [single]
    refine .single fun place issue => ⟨?_, ?_⟩
    · rintro ⟨⟩
      exact ⟨rfl, rfl⟩
    · rintro ⟨rfl, rfl⟩
      exact .none (not_exists.1 named)

/-- What is wrong with a part is what is wrong with the value that is used for it. -/
theorem lists_readPart {α : Type} {s : Spelling} {read : List String → Value → List Issue × α}
    {wrong : List String → Value → Place → Issue → Prop}
    (each : ∀ location v, Lists (wrong location v) (read location v).1) (missing : α)
    (given : Bag) : Lists (fun place issue => ∃ name v, s.Used given name v ∧
      wrong [name] v place issue) (readPart s read missing given).1 := by
  simp only [← Spelling.find?_eq_some_iff]
  unfold readPart
  cases s.find? given with
  | none => exact .nil (by simp)
  | some row =>
    refine (each [row.1] row.2).congr fun place issue => ⟨fun wrong => ⟨_, _, rfl, wrong⟩, ?_⟩
    rintro ⟨name, v, ⟨⟩, wrong⟩
    exact wrong

theorem keyIssue?_eq_some_iff {used : List String} {k : Key} {issue : Issue} :
    keyIssue? used k = some issue ↔
      (∃ name, k = .text name ∧ name ∉ used ∧ issue = ⟨[name], .unexpected⟩) ∨
        (∀ name, k ≠ .text name) ∧ issue = ⟨[k.label], .keyNotText⟩ := by
  unfold keyIssue?
  split
  next name =>
    by_cases mem : used.contains name <;> simp_all [eq_comm]
  next other => simp_all [eq_comm]

theorem lists_keys (given : Bag) : Lists (fun place issue => ∃ i row,
    given.rows[i]? = some row ∧ place = [i] ∧ keyIssue? (usedKeys given) row.1 = some issue)
      (given.keys.filterMap (keyIssue? (usedKeys given))) := by
  rw [Table.keys, List.filterMap_map, List.filterMap_eq_flatMap_toList]
  refine (Lists.flatMap (fun row => Lists.toList _) given.rows).congr fun place issue => ⟨?_, ?_⟩
  · rintro ⟨i, row, at_, ⟨rfl, said⟩⟩
    exact ⟨i, row, at_, rfl, said⟩
  · rintro ⟨i, row, at_, rfl, said⟩
    exact ⟨i, row, at_, .step ⟨rfl, said⟩⟩

/-- What is complained about in a mapping is what is wrong with it, one part after the other. -/
theorem lists_issuesOf (members : Members) (given : Bag) :
    Lists (Wrong members given) (issuesOf members given) := by
  have third := (lists_readPart (s := unknownKeysSpelling) lists_readUnknownKeys none given
    ).under_append 2 ((lists_keys given).under 3) (by
      rintro _ _ ⟨-⟩
      exact ⟨_, _, rfl, by decide⟩)
  have second := (lists_readPart (s := typeOptionsSpelling) (lists_readTypeOptions members) ∅
    given).under_append 1 third (by
      rintro _ _ (⟨⟨-⟩⟩ | ⟨⟨-⟩⟩) <;> exact ⟨_, _, rfl, by decide⟩)
  have all := (lists_readPart (s := schemaOptionsSpelling) (lists_readOptions members) ∅
    given).under_append 0 second (by
      rintro _ _ (⟨⟨-⟩⟩ | ⟨⟨-⟩⟩ | ⟨⟨-⟩⟩) <;> exact ⟨_, _, rfl, by decide⟩)
  rw [issuesOf, List.append_assoc, List.append_assoc]
  refine all.congr fun place issue => ⟨?_, ?_⟩
  · rintro (⟨⟨name, v, used, wrong⟩⟩ | ⟨⟨name, v, used, wrong⟩⟩ | ⟨⟨name, v, used, wrong⟩⟩ |
      ⟨⟨i, ⟨k, v⟩, at_, rfl, said⟩⟩)
    · exact .schemaOptions used wrong
    · exact .typeOptions used wrong
    · exact .unknownKeys used wrong
    · obtain ⟨name, rfl, unused, rfl⟩ | ⟨other, rfl⟩ := keyIssue?_eq_some_iff.1 said
      · exact .unexpected at_ fun s hs w used => unused (mem_usedKeys_iff.2 ⟨s, hs, w, used⟩)
      · exact .notText at_ other
  · rintro (⟨used, wrong⟩ | ⟨used, wrong⟩ | ⟨used, wrong⟩ | ⟨at_, unused⟩ | ⟨at_, other⟩)
    · exact .inl (.step ⟨_, _, used, wrong⟩)
    · exact .inr (.inl (.step ⟨_, _, used, wrong⟩))
    · exact .inr (.inr (.inl (.step ⟨_, _, used, wrong⟩)))
    · refine .inr (.inr (.inr (.step ⟨_, _, at_, rfl, keyIssue?_eq_some_iff.2 ?_⟩)))
      refine .inl ⟨_, rfl, fun mem => ?_, rfl⟩
      obtain ⟨s, hs, w, used⟩ := mem_usedKeys_iff.1 mem
      exact unused s hs w used
    · refine .inr (.inr (.inr (.step ⟨_, _, at_, rfl, keyIssue?_eq_some_iff.2 ?_⟩)))
      exact .inr ⟨other, rfl⟩

end Annotation

open Annotation

/-- What is wrong with options that denote no annotation. -/
inductive SchemaOptions.Wrong : SchemaOptions → Place → Issue → Prop
  | neitherForm {v : Value} {members : Members} (null : v ≠ .null)
    (mapping : ∀ entries, v ≠ .mapping entries) :
    Wrong (.untyped v members) [] ⟨[], .neitherForm⟩
  | mapping {entries members place issue}
    (wrong : Annotation.Wrong members (Table.ofList entries) place issue) :
    Wrong (.untyped (.mapping entries) members) place issue

/-- Options that are not read are answered by what is wrong with them, which is something. -/
theorem SchemaOptions.lists_of_read_eq_error {o : SchemaOptions} {issues : List Issue}
    (unread : o.read = .error issues) : issues ≠ [] ∧ Lists o.Wrong issues := by
  cases o with
  | typed a => cases unread
  | untyped v members =>
    simp only [read] at unread
    unfold Annotation.ofValue at unread
    split at unread
    · cases unread
    next entries =>
      rw [ofBag_eq] at unread
      split at unread
      next => cases unread
      next some =>
        cases unread
        refine ⟨some, (lists_issuesOf ..).congr fun place issue => ⟨.mapping, ?_⟩⟩
        rintro (⟨-, other⟩ | wrong)
        · exact absurd rfl (other entries)
        · exact wrong
    next null mapping =>
      cases unread
      refine ⟨List.cons_ne_nil _ _, .single fun place issue => ⟨?_, ?_⟩⟩
      · rintro (_ | wrong)
        · exact ⟨rfl, rfl⟩
        · exact absurd rfl (mapping _)
      · rintro ⟨rfl, rfl⟩
        exact .neitherForm null mapping

end MapperSchema
