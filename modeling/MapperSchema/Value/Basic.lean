import MapperSchema.Table
import MapperSchema.Value.Decimal

/-! Option values. Atoms and tuples of keys can stand as keys of a mapping; keys are compared as
numbers where they are numbers, so `true`, `1` and `1.0` are one key. -/
namespace MapperSchema

/-- Values without parts. A float is held by its shortest decimal text. Each occurrence of a
function or of "not a number" has a tag of its own and equals only itself. -/
inductive Atom where
  | null
  | bool (b : Bool)
  | int (n : Int)
  | float (text : String)
  | nan (tag : Nat)
  | text (s : String)
  | bytes (data : List UInt8)
  | function (name : String) (tag : Nat)
  | unset
  deriving DecidableEq, Repr

namespace Atom

/-- The whole number that an atom equals, if any. -/
def whole? : Atom → Option Int
  | .bool b => some (if b then 1 else 0)
  | .int n => some n
  | .float t => Decimal.wholeOfText? t
  | _ => none

/-- One spelling for all atoms that are equal. -/
def canonical (a : Atom) : Atom :=
  match a.whole? with
  | some n => .int n
  | none => a

def same (a b : Atom) : Bool := a.canonical == b.canonical

/-- Whether the atom counts as true in a condition. -/
def truth : Atom → Bool
  | .null => false
  | .bool b => b
  | .int n => n != 0
  | .float t => Decimal.wholeOfText? t != some 0
  | .nan _ => true
  | .text s => s != ""
  | .bytes data => !data.isEmpty
  | .function _ _ => true
  | .unset => false

@[simp] theorem same_self (a : Atom) : a.same a := by simp [same]

theorem same_symm {a b : Atom} (h : a.same b) : b.same a := by simp_all [same]

theorem same_trans {a b c : Atom} (h : a.same b) (h' : b.same c) : a.same c := by
  simp_all [same]

end Atom

/-- Values that may serve as keys and as members of sets. -/
inductive Key where
  | atom (a : Atom)
  | tuple (items : List Key)
  deriving Repr

namespace Key

@[match_pattern] abbrev text (s : String) : Key := .atom (.text s)

mutual
def same : Key → Key → Bool
  | .atom a, .atom b => a.same b
  | .tuple xs, .tuple ys => sameAll xs ys
  | _, _ => false

def sameAll : List Key → List Key → Bool
  | [], [] => true
  | x :: xs, y :: ys => x.same y && sameAll xs ys
  | _, _ => false
end

mutual
theorem same_self : ∀ k : Key, k.same k
  | .atom a => by simp [same]
  | .tuple xs => by rw [same]; exact sameAll_self xs

theorem sameAll_self : ∀ ks : List Key, sameAll ks ks
  | [] => by simp [sameAll]
  | k :: ks => by simp [sameAll, same_self k, sameAll_self ks]
end

mutual
theorem same_symm : ∀ {a b : Key}, a.same b → b.same a
  | .atom _, .atom _, h => by rw [same] at h ⊢; exact Atom.same_symm h
  | .tuple _, .tuple _, h => by rw [same] at h ⊢; exact sameAll_symm h
  | .atom _, .tuple _, h => by simp [same] at h
  | .tuple _, .atom _, h => by simp [same] at h

theorem sameAll_symm : ∀ {xs ys : List Key}, sameAll xs ys → sameAll ys xs
  | [], [], h => h
  | _ :: _, _ :: _, h => by
    simp only [sameAll, Bool.and_eq_true] at h ⊢
    exact ⟨same_symm h.1, sameAll_symm h.2⟩
  | [], _ :: _, h => by simp [sameAll] at h
  | _ :: _, [], h => by simp [sameAll] at h
end

mutual
theorem same_trans : ∀ {a b c : Key}, a.same b → b.same c → a.same c
  | .atom _, .atom _, .atom _, h, h' => by rw [same] at h h' ⊢; exact Atom.same_trans h h'
  | .tuple _, .tuple _, .tuple _, h, h' => by rw [same] at h h' ⊢; exact sameAll_trans h h'
  | .atom _, .tuple _, _, h, _ => by simp [same] at h
  | .tuple _, .atom _, _, h, _ => by simp [same] at h
  | .atom _, .atom _, .tuple _, _, h => by simp [same] at h
  | .tuple _, .tuple _, .atom _, _, h => by simp [same] at h

theorem sameAll_trans : ∀ {xs ys zs : List Key}, sameAll xs ys → sameAll ys zs → sameAll xs zs
  | [], [], [], _, _ => by simp [sameAll]
  | _ :: _, _ :: _, _ :: _, h, h' => by
    simp only [sameAll, Bool.and_eq_true] at h h' ⊢
    exact ⟨same_trans h.1 h'.1, sameAll_trans h.2 h'.2⟩
  | [], _ :: _, _, h, _ => by simp [sameAll] at h
  | _ :: _, [], _, h, _ => by simp [sameAll] at h
  | [], [], _ :: _, _, h => by simp [sameAll] at h
  | _ :: _, _ :: _, [], _, h => by simp [sameAll] at h
end

instance : BEq Key := ⟨same⟩

instance : EquivBEq Key where
  rfl := same_self _
  symm := same_symm
  trans := same_trans

@[simp] theorem text_beq_text (s t : String) : (text s == text t) = (s == t) := by
  change Atom.same (.text s) (.text t) = (s == t)
  rw [Bool.eq_iff_iff]
  simp [Atom.same, Atom.canonical, Atom.whole?]

example : (Key.atom (.bool true) == Key.atom (.float "1.0")) = true := by decide
example : (Key.atom (.int 0) == Key.atom .null) = false := by decide
example : (Key.atom (.function "f" 0) == Key.atom (.function "f" 1)) = false := by decide
example : (Key.tuple [.atom (.int 1)] == Key.tuple [.atom (.bool true)]) = true := by decide

end Key

/-- A `producer` makes a fresh copy of its value each time it is asked. -/
inductive Value where
  | atom (a : Atom)
  | list (items : List Value)
  | tuple (items : List Value)
  | set (members : List Key)
  | mapping (entries : List (Key × Value))
  | producer (value : Value)
  deriving Repr

namespace Value

@[match_pattern] abbrev null : Value := .atom .null
@[match_pattern] abbrev bool (b : Bool) : Value := .atom (.bool b)
@[match_pattern] abbrev int (n : Int) : Value := .atom (.int n)
@[match_pattern] abbrev text (s : String) : Value := .atom (.text s)
@[match_pattern] abbrev unset : Value := .atom .unset

instance : Inhabited Value := ⟨null⟩

def isNull : Value → Bool
  | null => true
  | _ => false

/-- Whether the value counts as true in a condition: a container does if it holds something. -/
def truth : Value → Bool
  | .atom a => a.truth
  | .list items => !items.isEmpty
  | .tuple items => !items.isEmpty
  | .set members => !members.isEmpty
  | .mapping entries => !entries.isEmpty
  | .producer _ => true

mutual
/-- The value as a key; lists, sets, mappings and producers cannot be one. -/
def toKey? : Value → Option Key
  | .atom a => some (.atom a)
  | .tuple items => (toKeys? items).map .tuple
  | _ => none

def toKeys? : List Value → Option (List Key)
  | [] => some []
  | v :: vs => v.toKey?.bind fun k => (toKeys? vs).map (k :: ·)
end

end Value

mutual
def Key.toValue : Key → Value
  | .atom a => .atom a
  | .tuple items => .tuple (Key.toValues items)

def Key.toValues : List Key → List Value
  | [] => []
  | k :: ks => k.toValue :: Key.toValues ks
end

mutual
@[simp] theorem Key.toKey?_toValue : ∀ k : Key, k.toValue.toKey? = some k
  | .atom a => by simp [Key.toValue, Value.toKey?]
  | .tuple items => by simp [Key.toValue, Value.toKey?, Key.toKeys?_toValues items]

theorem Key.toKeys?_toValues : ∀ ks : List Key, Value.toKeys? (Key.toValues ks) = some ks
  | [] => by simp [Key.toValues, Value.toKeys?]
  | k :: ks => by
    simp [Key.toValues, Value.toKeys?, Key.toKey?_toValue k, Key.toKeys?_toValues ks]
end

/-- Field options, in the order in which they were given. -/
abbrev Bag := Table Key Value

/-- Options whose keys are all text. -/
abbrev Options := Table String Value

namespace Table

/-- Text keys among general ones. -/
def textKeys (t : Table String Value) : Bag := t.mapKeys .text Key.text_beq_text

def toValue (t : Bag) : Value := .mapping t.rows

end Table

namespace Value

def ofOptions (t : Options) : Value := t.textKeys.toValue

/-- The rows of a mapping as a table; a value that counts as false stands for no rows. -/
def bag? : Value → Option Bag
  | .mapping entries => some (Table.ofList entries)
  | v => if v.truth then none else some ∅

end Value

end MapperSchema
