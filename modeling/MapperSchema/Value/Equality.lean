import MapperSchema.Value.Basic

/-! Equality of option values: numbers by what they denote, lists and tuples item by item,
mappings and sets without regard to order. -/
namespace MapperSchema

mutual
def Value.equal : Value → Value → Bool
  | .atom a, .atom b => a.same b
  | .list xs, .list ys => Value.equalItems xs ys
  | .tuple xs, .tuple ys => Value.equalItems xs ys
  | .set xs, .set ys => xs.length == ys.length && xs.all fun x => ys.any (x == ·)
  | .mapping xs, .mapping ys => xs.length == ys.length && Value.equalEntries xs ys
  | _, _ => false

def Value.equalItems : List Value → List Value → Bool
  | [], [] => true
  | x :: xs, y :: ys => x.equal y && Value.equalItems xs ys
  | _, _ => false

/-- Every entry of the first mapping is found, under an equal key, in the second. -/
def Value.equalEntries : List (Key × Value) → List (Key × Value) → Bool
  | [], _ => true
  | (k, v) :: xs, ys =>
    (match ys.find? (·.1 == k) with
      | some (_, w) => v.equal w
      | none => false) && Value.equalEntries xs ys
end

/-- Equal mappings: the same keys with equal values, in any order. -/
def Bag.equal (a b : Bag) : Bool := a.toValue.equal b.toValue

namespace Value

example : equal (.list [int 1, .atom (.float "2.0")]) (.list [bool true, int 2]) := by decide
example : equal (.list [int 1]) (.tuple [int 1]) = false := by decide
example : equal (.mapping [(.text "a", int 1), (.text "b", null)])
    (.mapping [(.text "b", null), (.text "a", int 1)]) := by decide

end Value

end MapperSchema
