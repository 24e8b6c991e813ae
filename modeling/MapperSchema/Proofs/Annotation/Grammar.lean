import Mathlib.Data.List.Basic
import Mathlib.Data.List.Forall2
import Mathlib.Data.List.Pairwise
import MapperSchema.Annotation.Coercion
import MapperSchema.Proofs.Table.Order

/-! The grammar of annotations given as untyped values: which values are one, and the annotation
that each of them denotes. Exactly these values are read. -/
namespace MapperSchema

/-- The key is neither a text nor bytes. -/
structure Key.Other (k : Key) : Prop where
  text : ∀ s, k ≠ .text s
  bytes : ∀ data, k ≠ .atom (.bytes data)

/-- The key is a text, or bytes that encode it, or a member of an enumeration with that text. -/
inductive Key.Spells (members : Members) : Key → String → Prop
  | text (s : String) : Spells members (.text s) s
  | bytes {data : List UInt8} {s : String} (decoded : decodeText? data = some s) :
    Spells members (.atom (.bytes data)) s
  | member {k : Key} {s : String} (other : k.Other) (member : members.get? k = some s) :
    Spells members k s

theorem Key.Other.readText {k : Key} (other : k.Other) : k.readText = .error .notText := by
  cases k with
  | tuple items => rfl
  | atom a =>
    cases a with
    | text s => exact absurd rfl (other.text s)
    | bytes data => exact absurd rfl (other.bytes data)
    | _ => rfl

theorem Key.cases_other (k : Key) :
    (∃ s, k = .text s) ∨ (∃ data, k = .atom (.bytes data)) ∨ k.Other := by
  by_cases text : ∃ s, k = .text s
  · exact .inl text
  · by_cases bytes : ∃ data, k = .atom (.bytes data)
    · exact .inr (.inl bytes)
    · exact .inr (.inr ⟨not_exists.1 text, not_exists.1 bytes⟩)

theorem Members.readText_bytes (members : Members) (data : List UInt8) :
    members.readText (.atom (.bytes data)) =
      ((decodeText? data).map .ok).getD (.error .undecodableText) := by
  simp only [readText, Key.readText, Atom.readText]
  cases decodeText? data with
  | none => rfl
  | some s => rfl

theorem Members.readText_other (members : Members) {k : Key} (other : k.Other) :
    members.readText k = ((members.get? k).map .ok).getD (.error .notText) := by
  unfold readText
  rw [other.readText]
  cases members.get? k with
  | none => rfl
  | some s => rfl

theorem Members.readText_eq_ok_iff {members : Members} {k : Key} {s : String} :
    members.readText k = .ok s ↔ k.Spells members s := by
  constructor
  · intro read
    rcases k.cases_other with ⟨t, rfl⟩ | ⟨data, rfl⟩ | other
    · cases read
      exact .text s
    · rw [readText_bytes] at read
      cases decoded : decodeText? data with
      | none => simp [decoded] at read
      | some t =>
        rw [decoded] at read
        cases read
        exact .bytes decoded
    · rw [readText_other members other] at read
      cases member : members.get? k with
      | none => simp [member] at read
      | some t =>
        rw [member] at read
        cases read
        exact .member other member
  · rintro (_ | decoded | ⟨other, member⟩)
    · rfl
    · rw [readText_bytes, decoded]
      rfl
    · rw [readText_other members other, member]
      rfl

/-- A mapping denotes a table: each key spells a text, each value denotes a row's value. -/
inductive Value.Denotes (Spelled : Key → String → Prop) {α : Type} (item : Value → α → Prop) :
    Value → Table String α → Prop
  | mapping {entries rows} (rowwise : List.Forall₂
      (fun entry row => Spelled entry.1 row.1 ∧ item entry.2 row.2) entries rows) :
    Denotes Spelled item (.mapping entries) (Table.ofList rows)

theorem Atom.eq_text_of_canonical {a : Atom} {s : String} (h : a.canonical = .text s) :
    a = .text s := by
  unfold canonical at h
  split at h
  next => cases h
  next => exact h

/-- Nothing but the text itself is the same key as a text. -/
theorem Key.beq_text_iff {k : Key} {s : String} : k == .text s ↔ k = .text s := by
  constructor
  · intro same
    cases k with
    | tuple items => cases same
    | atom a =>
      have canonical : a.canonical = (Atom.text s).canonical := by
        simpa [BEq.beq, Key.same, Atom.same] using same
      rw [Atom.eq_text_of_canonical canonical]
  · rintro rfl
    exact BEq.rfl

theorem Bag.get?_text_eq_some_iff {given : Bag} {s : String} {v : Value} :
    given.get? (.text s) = some v ↔ (.text s, v) ∈ given.rows := by
  constructor
  · intro found
    obtain ⟨row, at_, rfl⟩ := Option.map_eq_some_iff.1 found
    have same : row.1 == .text s := List.find?_some (p := fun row : Key × Value => row.1 == _) at_
    rw [← Key.beq_text_iff.1 same]
    exact List.mem_of_find?_eq_some at_
  · exact fun mem => given.get?_of_mem mem

theorem UnknownKeys.name_of_ofName? {s : String} {m : UnknownKeys} (h : ofName? s = some m) :
    m.name = s := by
  unfold ofName? at h
  split at h <;> cases h <;> rfl

/-- Null denotes no mode, and the name of a mode denotes that mode. -/
inductive UnknownKeys.Denotes : Value → Option UnknownKeys → Prop
  | null : Denotes .null none
  | mode (m : UnknownKeys) : Denotes (.text m.name) (some m)

namespace Annotation

/-- The key is one of the two spellings of a part. -/
def Spelling.Names (s : Spelling) (k : Key) : Prop := k = .text s.compact ∨ k = .text s.spaced

def spellings : List Spelling := [schemaOptionsSpelling, typeOptionsSpelling, unknownKeysSpelling]

/-- The value is given for the part, under one of its spellings. -/
def Spelling.Gives (s : Spelling) (rows : List (Key × Value)) (v : Value) : Prop :=
  ∃ row ∈ rows, s.Names row.1 ∧ row.2 = v

/-- A part of an annotation: what the value given for it denotes, or what stands for a part that
is not given. -/
inductive Spelling.Part (s : Spelling) (rows : List (Key × Value)) {α : Type}
    (item : Value → α → Prop) (missing : α) : α → Prop
  | given {v x} (gives : s.Gives rows v) (denotes : item v x) : Part s rows item missing x
  | missing (absent : ∀ v, ¬s.Gives rows v) : Part s rows item missing missing

/-- No part is given twice. -/
def Once (rows : List (Key × Value)) : Prop :=
  rows.Pairwise fun row row' => ∀ s ∈ spellings, ¬(s.Names row.1 ∧ s.Names row'.1)

/-- Rows that denote an annotation: no keys but spellings of the parts, no part twice, and
each part as it should be. -/
structure Denoted (Spelled : Key → String → Prop) (rows : List (Key × Value)) (a : Annotation) :
    Prop where
  keys : ∀ row ∈ rows, ∃ s ∈ spellings, s.Names row.1
  once : Once rows
  schemaOptions : schemaOptionsSpelling.Part rows (Value.Denotes Spelled Eq) ∅ a.schemaOptions
  typeOptions : typeOptionsSpelling.Part rows (Value.Denotes Spelled (Value.Denotes Spelled Eq)) ∅
    a.typeOptions
  unknownKeys : unknownKeysSpelling.Part rows UnknownKeys.Denotes none a.unknownKeys

/-- What is said of a key that spells no text. -/
def keyIssues (members : Members) (location : List String) (k : Key) : List Issue :=
  match members.readText k with
  | .ok _ => []
  | .error c => [⟨location ++ [k.label, "[key]"], c⟩]

section Mapping

variable {α : Type} {read : List String → Value → List Issue × α} {item : Value → α → Prop}
  {members : Members}

theorem readMapping_mapping (location : List String) (entries : List (Key × Value)) :
    readMapping members read location (.mapping entries) =
      (entries.flatMap fun entry =>
          keyIssues members location entry.1 ++ (read (location ++ [entry.1.label]) entry.2).1,
        Table.ofList (entries.filterMap fun entry => (members.readText entry.1).toOption.map
          (·, (read (location ++ [entry.1.label]) entry.2).2))) := by
  simp only [readMapping, List.flatMap_map, List.filterMap_map]
  rfl

/-- Rows are read without complaint if each of them is what it should be. -/
theorem rows_read_iff (reads : ∀ location v x, read location v = ([], x) ↔ item v x)
    (location : List String) (entries : List (Key × Value)) (rows : List (String × α)) :
    ((entries.flatMap fun entry =>
          keyIssues members location entry.1 ++ (read (location ++ [entry.1.label]) entry.2).1) =
            [] ∧
        (entries.filterMap fun entry => (members.readText entry.1).toOption.map
          (·, (read (location ++ [entry.1.label]) entry.2).2)) = rows) ↔
      List.Forall₂ (fun entry row => entry.1.Spells members row.1 ∧ item entry.2 row.2)
        entries rows := by
  induction entries generalizing rows with
  | nil => simp [eq_comm]
  | cons entry rest ih =>
    have value := reads (location ++ [entry.1.label]) entry.2
    rw [List.flatMap_cons, List.filterMap_cons, List.append_eq_nil_iff, List.append_eq_nil_iff]
    cases spelled : members.readText entry.1 with
    | error c =>
      have unread : ∀ s, ¬entry.1.Spells members s := by
        intro s spells
        rw [← Members.readText_eq_ok_iff, spelled] at spells
        cases spells
      simp [keyIssues, spelled, List.forall₂_cons_left_iff, unread]
    | ok s =>
      have spells : ∀ t, entry.1.Spells members t ↔ s = t := by
        intro t
        rw [← Members.readText_eq_ok_iff, spelled, Except.ok.injEq]
      have none : keyIssues members location entry.1 = [] := by rw [keyIssues, spelled]
      have found : (Except.ok s : Except Complaint String).toOption = some s := rfl
      simp only [none, found, true_and, Option.map_some]
      constructor
      · rintro ⟨⟨fine, tail⟩, rfl⟩
        exact .cons ⟨(spells s).2 rfl, (value _).1 (Prod.ext fine rfl)⟩ ((ih _).1 ⟨tail, rfl⟩)
      · rintro (_ | ⟨⟨key, denotes⟩, tail⟩)
        obtain ⟨none, rfl⟩ := (ih _).2 tail
        rw [(value _).2 denotes, (spells _).1 key]
        exact ⟨⟨rfl, none⟩, rfl⟩

theorem readMapping_eq_ok_iff (reads : ∀ location v x, read location v = ([], x) ↔ item v x)
    (location : List String) (v : Value) (t : Table String α) :
    readMapping members read location v = ([], t) ↔ v.Denotes (Key.Spells members) item t := by
  constructor
  · intro done
    cases v with
    | mapping entries =>
      rw [readMapping_mapping, Prod.mk.injEq] at done
      obtain ⟨none, rfl⟩ := done
      exact .mapping ((rows_read_iff reads location entries _).1 ⟨none, rfl⟩)
    | _ => cases done
  · rintro ⟨rowwise⟩
    obtain ⟨none, rows⟩ := (rows_read_iff reads location _ _).2 rowwise
    rw [readMapping_mapping, none, rows]

end Mapping

theorem readOptions_iff (members : Members) (location : List String) (v : Value) (t : Options) :
    readOptions members location v = ([], t) ↔ v.Denotes (Key.Spells members) Eq t :=
  readMapping_eq_ok_iff (fun _ v x => by simp) location v t

theorem readTypeOptions_iff (members : Members) (location : List String) (v : Value)
    (t : Table String Options) : readTypeOptions members location v = ([], t) ↔
      v.Denotes (Key.Spells members) (Value.Denotes (Key.Spells members) Eq) t :=
  readMapping_eq_ok_iff (readOptions_iff members) location v t

theorem readUnknownKeys_iff (location : List String) (v : Value) (mode : Option UnknownKeys) :
    readUnknownKeys location v = ([], mode) ↔ UnknownKeys.Denotes v mode := by
  constructor
  · intro done
    unfold readUnknownKeys at done
    split at done
    · cases done
      exact .null
    · split at done
      next m named =>
        cases done
        rw [← UnknownKeys.name_of_ofName? named]
        exact .mode m
      next => cases done
    · cases done
  · rintro (_ | m)
    · rfl
    · simp [readUnknownKeys]

/-- No two parts have a spelling in common. -/
theorem spellings_apart : ∀ s ∈ spellings, ∀ s' ∈ spellings,
    (∃ name ∈ [s.compact, s.spaced], name ∈ [s'.compact, s'.spaced]) →
      s.compact = s'.compact ∧ s.spaced = s'.spaced := by decide

theorem Spelling.names_iff {s : Spelling} {k : Key} :
    s.Names k ↔ ∃ name ∈ [s.compact, s.spaced], k = .text name := by simp [Names]

theorem eq_of_names {s s' : Spelling} {k : Key} (h : s ∈ spellings) (h' : s' ∈ spellings)
    (named : s.Names k) (named' : s'.Names k) : s = s' := by
  obtain ⟨name, mem, rfl⟩ := Spelling.names_iff.1 named
  obtain ⟨_, mem', ⟨⟩⟩ := Spelling.names_iff.1 named'
  obtain ⟨compact, spaced⟩ := spellings_apart s h s' h' ⟨name, mem, mem'⟩
  cases s
  cases s'
  cases compact
  cases spaced
  rfl

/-- A part is read under this name from this value: under the compact spelling if it is given. -/
inductive Spelling.Used (s : Spelling) (given : Bag) : String → Value → Prop
  | compact {v} (mem : (.text s.compact, v) ∈ given.rows) : Used s given s.compact v
  | spaced {v} (mem : (.text s.spaced, v) ∈ given.rows)
    (only : ∀ w, (.text s.compact, w) ∉ given.rows) : Used s given s.spaced v

section Parts

variable {s : Spelling} {given : Bag} {name : String} {v : Value}

theorem Spelling.Used.mem (h : s.Used given name v) : (.text name, v) ∈ given.rows := by
  cases h with
  | compact mem => exact mem
  | spaced mem => exact mem

theorem Spelling.Used.names (h : s.Used given name v) : s.Names (.text name) := by
  cases h with
  | compact => exact .inl rfl
  | spaced => exact .inr rfl

theorem Spelling.Used.gives (h : s.Used given name v) : s.Gives given.rows v :=
  ⟨_, h.mem, h.names, rfl⟩

theorem Spelling.find?_eq_some_iff : s.find? given = some (name, v) ↔ s.Used given name v := by
  unfold Spelling.find?
  cases compact : given.get? (.text s.compact) with
  | some w =>
    have mem := Bag.get?_text_eq_some_iff.1 compact
    constructor
    · rintro ⟨⟩
      exact .compact mem
    · rintro (mem | ⟨-, only⟩)
      · rw [Bag.get?_text_eq_some_iff.2 mem] at compact
        cases compact
        rfl
      · exact absurd mem (only w)
  | none =>
    have only : ∀ w, (.text s.compact, w) ∉ given.rows := by
      intro w mem
      rw [Bag.get?_text_eq_some_iff.2 mem] at compact
      cases compact
    rw [Option.map_eq_some_iff]
    constructor
    · rintro ⟨w, found, ⟨⟩⟩
      exact .spaced (Bag.get?_text_eq_some_iff.1 found) only
    · rintro (mem | ⟨mem, -⟩)
      · exact absurd mem (only v)
      · exact ⟨v, Bag.get?_text_eq_some_iff.2 mem, rfl⟩

theorem Spelling.find?_eq_none_iff :
    s.find? given = none ↔ ∀ v, ¬s.Gives given.rows v := by
  constructor
  · rintro none v ⟨⟨k, _⟩, mem, rfl | rfl, rfl⟩
    · rw [Spelling.find?_eq_some_iff.2 (.compact mem)] at none
      cases none
    · by_cases only : ∀ w, (.text s.compact, w) ∉ given.rows
      · rw [Spelling.find?_eq_some_iff.2 (.spaced mem only)] at none
        cases none
      · obtain ⟨w, compact⟩ := not_forall_not.1 only
        rw [Spelling.find?_eq_some_iff.2 (.compact compact)] at none
        cases none
  · intro absent
    rw [Option.eq_none_iff_forall_not_mem]
    rintro ⟨name, v⟩ found
    have used := Spelling.find?_eq_some_iff.1 found
    exact absent _ used.gives

end Parts

section Reading

variable {given : Bag}

/-- In rows that give no part twice a part stands in one row. -/
theorem Once.eq {rows : List (Key × Value)} (once : Once rows) {s : Spelling}
    (h : s ∈ spellings) {row row' : Key × Value} (mem : row ∈ rows)
    (mem' : row' ∈ rows) (named : s.Names row.1) (named' : s.Names row'.1) : row = row' := by
  by_contra apart
  have : Std.Symm fun row row' : Key × Value =>
      ∀ s ∈ spellings, ¬(s.Names row.1 ∧ s.Names row'.1) := ⟨fun _ _ h s mem => by grind⟩
  exact List.Pairwise.forall once mem mem' apart s h ⟨named, named'⟩

theorem readPart_iff {α : Type} {read : List String → Value → List Issue × α}
    {item : Value → α → Prop} (reads : ∀ location v x, read location v = ([], x) ↔ item v x)
    {s : Spelling} (h : s ∈ spellings) (once : Once given.rows) (missing x : α) :
    readPart s read missing given = ([], x) ↔ s.Part given.rows item missing x := by
  unfold readPart
  cases found : s.find? given with
  | none =>
    have absent := Spelling.find?_eq_none_iff.1 found
    constructor
    · rintro ⟨⟩
      exact .missing absent
    · rintro (⟨gives, -⟩ | -)
      · exact absurd gives (absent _)
      · rfl
  | some row =>
    have used := Spelling.find?_eq_some_iff.1 found
    constructor
    · intro done
      exact .given used.gives ((reads ..).1 done)
    · rintro (⟨⟨_, mem, named, rfl⟩, denotes⟩ | absent)
      · rw [← once.eq h used.mem mem used.names named] at denotes
        exact (reads ..).2 denotes
      · exact absurd used.gives (absent _)

theorem mem_usedKeys_iff {name : String} :
    name ∈ usedKeys given ↔ ∃ s ∈ spellings, ∃ v, s.Used given name v := by
  change name ∈ spellings.filterMap _ ↔ _
  simp only [List.mem_filterMap, Option.map_eq_some_iff, ← Spelling.find?_eq_some_iff,
    Prod.exists, exists_and_right, exists_eq_right]

theorem keyIssue?_eq_none_iff {used : List String} {k : Key} :
    keyIssue? used k = none ↔ ∃ name ∈ used, k = .text name := by
  unfold keyIssue?
  split
  next name => simp
  next other => simp_all

/-- No key is complained about if each of them is the one under which a part is read. Two rows for
one part would both stand under that key. -/
theorem keyIssues_eq_nil_iff : given.keys.filterMap (keyIssue? (usedKeys given)) = [] ↔
    (∀ row ∈ given.rows, ∃ s ∈ spellings, s.Names row.1) ∧ Once given.rows := by
  have silent : given.keys.filterMap (keyIssue? (usedKeys given)) = [] ↔
      ∀ row ∈ given.rows, ∃ s ∈ spellings, ∃ name v, s.Used given name v ∧ row.1 = .text name := by
    simp only [List.filterMap_eq_nil_iff, Table.keys, List.forall_mem_map, keyIssue?_eq_none_iff,
      mem_usedKeys_iff]
    grind
  rw [silent]
  constructor
  · intro used
    refine ⟨fun row mem => ?_,
      given.distinct.imp_of_mem fun {row row'} mem mem' apart s hs named => ?_⟩
    · obtain ⟨s, hs, name, v, used, key⟩ := used row mem
      exact ⟨s, hs, key ▸ used.names⟩
    · obtain ⟨t, ht, name, v, found, key⟩ := used row mem
      obtain ⟨t', ht', name', v', found', key'⟩ := used row' mem'
      obtain rfl := eq_of_names hs ht named.1 (key ▸ found.names)
      obtain rfl := eq_of_names hs ht' named.2 (key' ▸ found'.names)
      rw [← Spelling.find?_eq_some_iff] at found found'
      rw [found, Option.some.injEq, Prod.mk.injEq] at found'
      rw [key, key', found'.1] at apart
      simp at apart
  · rintro ⟨keys, once⟩ row mem
    obtain ⟨s, hs, named⟩ := keys row mem
    cases found : s.find? given with
    | none => exact absurd ⟨row, mem, named, rfl⟩ (Spelling.find?_eq_none_iff.1 found row.2)
    | some used =>
      have used := Spelling.find?_eq_some_iff.1 found
      have same := once.eq hs mem used.mem named used.names
      exact ⟨s, hs, _, _, used, by rw [same]⟩

/-- All complaints about a mapping, in the order of the parts. -/
def issuesOf (members : Members) (given : Bag) : List Issue :=
  (readPart schemaOptionsSpelling (readOptions members) ∅ given).1 ++
    (readPart typeOptionsSpelling (readTypeOptions members) ∅ given).1 ++
    (readPart unknownKeysSpelling readUnknownKeys none given).1 ++
    given.keys.filterMap (keyIssue? (usedKeys given))

theorem ofBag_eq (members : Members) (given : Bag) : ofBag members given =
    if issuesOf members given = [] then
      .ok ⟨(readPart schemaOptionsSpelling (readOptions members) ∅ given).2,
        (readPart typeOptionsSpelling (readTypeOptions members) ∅ given).2,
        (readPart unknownKeysSpelling readUnknownKeys none given).2⟩
    else .error (issuesOf members given) := by
  unfold ofBag issuesOf
  cases readPart schemaOptionsSpelling (readOptions members) ∅ given
  cases readPart typeOptionsSpelling (readTypeOptions members) ∅ given
  cases readPart unknownKeysSpelling readUnknownKeys none given
  dsimp only
  split
  next none => exact (if_pos none).symm
  next some => exact (if_neg some).symm

theorem ofBag_eq_ok_iff {members : Members} {a : Annotation} :
    ofBag members given = .ok a ↔ Denoted (Key.Spells members) given.rows a := by
  rw [ofBag_eq]
  constructor
  · intro done
    split at done
    next none =>
      cases done
      simp only [issuesOf, List.append_eq_nil_iff] at none
      obtain ⟨⟨⟨schemaOptions, typeOptions⟩, unknownKeys⟩, keyIssues⟩ := none
      obtain ⟨keys, once⟩ := keyIssues_eq_nil_iff.1 keyIssues
      exact {
        keys, once
        schemaOptions := (readPart_iff (readOptions_iff members) (by simp [spellings]) once _ _).1
          (Prod.ext schemaOptions rfl)
        typeOptions := (readPart_iff (readTypeOptions_iff members) (by simp [spellings]) once _ _).1
          (Prod.ext typeOptions rfl)
        unknownKeys := (readPart_iff readUnknownKeys_iff (by simp [spellings]) once _ _).1
          (Prod.ext unknownKeys rfl) }
    next => cases done
  · intro denoted
    have once := denoted.once
    have schemaOptions := (readPart_iff (readOptions_iff members) (by simp [spellings]) once
      _ _).2 denoted.schemaOptions
    have typeOptions := (readPart_iff (readTypeOptions_iff members) (by simp [spellings]) once
      _ _).2 denoted.typeOptions
    have unknownKeys := (readPart_iff readUnknownKeys_iff (by simp [spellings]) once
      _ _).2 denoted.unknownKeys
    have keyIssues := keyIssues_eq_nil_iff.2 ⟨denoted.keys, once⟩
    rw [issuesOf, schemaOptions, typeOptions, unknownKeys, keyIssues, if_pos (by simp)]

end Reading

section Respelling

variable {rows rows' : List (Key × Value)} {Spelled : Key → String → Prop} {a : Annotation}

/-- The key with the spelling of a part changed to the spaced one. -/
def respaced (k : Key) : Key :=
  match spellings.find? fun s => k == .text s.compact with
  | some s => .text s.spaced
  | none => k

def respacedRow (row : Key × Value) : Key × Value := (respaced row.1, row.2)

/-- The same rows in some order, if the spellings of the parts are not told apart. -/
def Respelled (rows rows' : List (Key × Value)) : Prop :=
  (rows.map respacedRow).Perm (rows'.map respacedRow)

theorem names_respaced {s : Spelling} (h : s ∈ spellings) (k : Key) :
    s.Names (respaced k) ↔ s.Names k := by
  unfold respaced
  split
  next t found =>
    have mem := List.mem_of_find?_eq_some found
    obtain rfl : k = .text t.compact := by
      simpa only [Key.beq_text_iff] using List.find?_some found
    constructor
    · intro named
      exact eq_of_names h mem named (.inr rfl) ▸ .inl rfl
    · intro named
      exact eq_of_names h mem named (.inl rfl) ▸ .inr rfl
  next => rfl

section Invariance

variable (h : Respelled rows rows')
include h

theorem Respelled.gives_iff {s : Spelling} (hs : s ∈ spellings) (v : Value) :
    s.Gives rows v ↔ s.Gives rows' v := by
  have seen (rows : List (Key × Value)) : s.Gives rows v ↔
      ∃ row ∈ rows.map respacedRow, s.Names row.1 ∧ row.2 = v := by
    simp [Spelling.Gives, respacedRow, names_respaced hs]
  rw [seen rows, seen rows']
  simp only [h.mem_iff]

theorem Respelled.part {s : Spelling} (hs : s ∈ spellings) {α : Type} {item : Value → α → Prop}
    {missing x : α} (part : s.Part rows item missing x) : s.Part rows' item missing x := by
  cases part with
  | given gives denotes => exact .given ((h.gives_iff hs _).1 gives) denotes
  | missing absent => exact .missing fun v gives => absent v ((h.gives_iff hs v).2 gives)

theorem Respelled.named_iff : (∀ row ∈ rows, ∃ s ∈ spellings, s.Names row.1) ↔
    ∀ row ∈ rows', ∃ s ∈ spellings, s.Names row.1 := by
  have seen (rows : List (Key × Value)) : (∀ row ∈ rows, ∃ s ∈ spellings, s.Names row.1) ↔
      ∀ row ∈ rows.map respacedRow, ∃ s ∈ spellings, s.Names row.1 := by
    rw [List.forall_mem_map]
    exact forall₂_congr fun row _ => exists_congr fun s => and_congr_right fun hs =>
      (names_respaced hs row.1).symm
  rw [seen rows, seen rows']
  simp only [h.mem_iff]

theorem Respelled.once_iff : Once rows ↔ Once rows' := by
  have seen (rows : List (Key × Value)) : Once rows ↔ Once (rows.map respacedRow) := by
    rw [Once, Once, List.pairwise_map]
    refine List.Pairwise.iff fun row row' => forall₂_congr fun s hs => not_congr ?_
    exact (and_congr (names_respaced hs row.1) (names_respaced hs row'.1)).symm
  rw [seen rows, seen rows']
  exact List.Perm.pairwise_iff (fun apart s hs named => apart s hs named.symm) h

/-- What rows denote is seen from the values that they give for the parts, not from the order or
the spelling of their keys. -/
theorem Denoted.respell (denoted : Denoted Spelled rows a) : Denoted Spelled rows' a where
  keys := h.named_iff.1 denoted.keys
  once := h.once_iff.1 denoted.once
  schemaOptions := h.part (by simp [spellings]) denoted.schemaOptions
  typeOptions := h.part (by simp [spellings]) denoted.typeOptions
  unknownKeys := h.part (by simp [spellings]) denoted.unknownKeys

end Invariance

end Respelling

section Form

/-- The mapping of an annotation, with all of its parts under their spaced spellings. -/
def form (a : Annotation) : List (Key × Value) :=
  [(.text schemaOptionsSpelling.spaced, .ofOptions a.schemaOptions),
    (.text typeOptionsSpelling.spaced, a.typeOptionsValue),
    (.text unknownKeysSpelling.spaced, (a.unknownKeys.map (.text ·.name)).getD .null)]

theorem denotes_ofOptions {α : Type} {item : Value → α → Prop} {toValue : α → Value}
    (members : Members) (denotes : ∀ x, item (toValue x) x) (t : Table String α) :
    (Value.ofOptions (t.mapValues toValue)).Denotes (Key.Spells members) item t := by
  have rowwise : List.Forall₂
      (fun entry row => Key.Spells members entry.1 row.1 ∧ item entry.2 row.2)
      (Table.textKeys (t.mapValues toValue)).rows t.rows := by
    simp only [Table.textKeys, Table.mapKeys, Table.mapValues, List.map_map,
      List.forall₂_map_left_iff, List.forall₂_same]
    exact fun row _ => ⟨.text row.1, denotes row.2⟩
  have denoted := Value.Denotes.mapping rowwise
  rwa [Table.ofList_rows] at denoted

theorem denotes_schemaOptions (members : Members) (t : Options) :
    (Value.ofOptions t).Denotes (Key.Spells members) Eq t := by
  have same : t.mapValues id = t := Table.ext (List.map_id _)
  have denotes : (Value.ofOptions (t.mapValues id)).Denotes (Key.Spells members) Eq t :=
    denotes_ofOptions members (fun _ => rfl) t
  rwa [same] at denotes

theorem denoted_form (members : Members) (a : Annotation) :
    Denoted (Key.Spells members) a.form a where
  keys := by simp [form, spellings, Spelling.Names]
  once := by
    simp [form, Once, spellings, Spelling.Names, schemaOptionsSpelling, typeOptionsSpelling,
      unknownKeysSpelling]
  schemaOptions := .given ⟨_, .head _, .inr rfl, rfl⟩ (denotes_schemaOptions members _)
  typeOptions := .given ⟨_, .tail _ (.head _), .inr rfl, rfl⟩
    (denotes_ofOptions members (denotes_schemaOptions members) _)
  unknownKeys := by
    refine .given ⟨_, .tail _ (.tail _ (.head _)), .inr rfl, rfl⟩ ?_
    cases a.unknownKeys with
    | none => exact .null
    | some m => exact .mode m

end Form

section Kept

variable {rows : List (Key × Value)} {s : Spelling} {α : Type} {item : Value → α → Prop}
  {missing x y : α}

/-- A part is what any value given for it denotes, if that is one thing. -/
theorem Spelling.Part.eq_of_gives (part : s.Part rows item missing x) (h : s ∈ spellings)
    (once : Once rows) (one : ∀ {v x y}, item v x → item v y → x = y) {v : Value}
    (gives : s.Gives rows v) (denotes : item v y) : x = y := by
  cases part with
  | missing absent => exact absurd gives (absent v)
  | given gives' denotes' =>
    obtain ⟨row, mem, named, rfl⟩ := gives
    obtain ⟨row', mem', named', rfl⟩ := gives'
    rw [once.eq h mem' mem named' named] at denotes'
    exact one denotes' denotes

theorem Spelling.Part.eq_missing (part : s.Part rows item missing x)
    (absent : ∀ v, ¬s.Gives rows v) : x = missing := by
  cases part with
  | missing => rfl
  | given gives => exact absurd gives (absent _)

/-- The parts of the annotation are the given ones, with their keys in order, and empty where none
is given. -/
structure Keeps (rows : List (Key × Value)) (a : Annotation) : Prop where
  schemaOptions : ∀ t : Options, schemaOptionsSpelling.Gives rows (.ofOptions t) →
    a.schemaOptions = t
  noSchemaOptions : (∀ v, ¬schemaOptionsSpelling.Gives rows v) → a.schemaOptions = ∅
  typeOptions : ∀ t : Table String Options,
    typeOptionsSpelling.Gives rows (.ofOptions (t.mapValues .ofOptions)) → a.typeOptions = t
  noTypeOptions : (∀ v, ¬typeOptionsSpelling.Gives rows v) → a.typeOptions = ∅
  unknownKeys : ∀ m : UnknownKeys, unknownKeysSpelling.Gives rows (.text m.name) →
    a.unknownKeys = some m
  noUnknownKeys : (∀ v, ¬unknownKeysSpelling.Gives rows v) ∨
    unknownKeysSpelling.Gives rows .null → a.unknownKeys = none

/-- What is read without complaint is one thing. -/
theorem eq_of_reads {read : List String → Value → List Issue × α}
    (reads : ∀ location v x, read location v = ([], x) ↔ item v x) {v : Value}
    (denotes : item v x) (denotes' : item v y) : x = y := by
  have same := ((reads [] v x).2 denotes).symm.trans ((reads [] v y).2 denotes')
  exact congrArg Prod.snd same

theorem Denoted.keeps {members : Members} {a : Annotation}
    (denoted : Denoted (Key.Spells members) rows a) : Keeps rows a where
  schemaOptions t gives := denoted.schemaOptions.eq_of_gives (by simp [spellings]) denoted.once
    (eq_of_reads (readOptions_iff members)) gives (denotes_schemaOptions members t)
  noSchemaOptions := denoted.schemaOptions.eq_missing
  typeOptions t gives := denoted.typeOptions.eq_of_gives (by simp [spellings]) denoted.once
    (eq_of_reads (readTypeOptions_iff members)) gives
    (denotes_ofOptions members (denotes_schemaOptions members) t)
  noTypeOptions := denoted.typeOptions.eq_missing
  unknownKeys m gives := denoted.unknownKeys.eq_of_gives (by simp [spellings]) denoted.once
    (eq_of_reads readUnknownKeys_iff) gives (.mode m)
  noUnknownKeys none := by
    rcases none with absent | gives
    · exact denoted.unknownKeys.eq_missing absent
    · exact denoted.unknownKeys.eq_of_gives (by simp [spellings]) denoted.once
        (eq_of_reads readUnknownKeys_iff) gives .null

end Kept

end Annotation

open Annotation

/-- Options that denote an annotation: one as such, null, or a mapping that denotes it. -/
inductive SchemaOptions.Denotes (Spelled : Members → Key → String → Prop) :
    SchemaOptions → Annotation → Prop
  | typed (a : Annotation) : Denotes Spelled (.typed a) a
  | null (members : Members) : Denotes Spelled (.untyped .null members) ∅
  | mapping {entries members a}
    (denoted : Annotation.Denoted (Spelled members) (Table.ofList entries).rows a) :
    Denotes Spelled (.untyped (.mapping entries) members) a

/-- What is read is what the options denote, and other options are not read. -/
theorem SchemaOptions.read_eq_ok_iff {o : SchemaOptions} {a : Annotation} :
    o.read = .ok a ↔ o.Denotes Key.Spells a := by
  constructor
  · intro done
    cases o with
    | typed b =>
      cases done
      exact .typed a
    | untyped v members =>
      simp only [read] at done
      unfold Annotation.ofValue at done
      split at done
      · cases done
        exact .null members
      · exact .mapping (ofBag_eq_ok_iff.1 done)
      · cases done
  · rintro (_ | _ | denoted)
    · rfl
    · rfl
    · exact ofBag_eq_ok_iff.2 denoted

end MapperSchema
