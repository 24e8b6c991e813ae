/-! Which whole number a binary float denotes, read off its shortest decimal text. The text
gives the float only up to rounding, so large numbers are rounded back to 53 binary digits. -/
namespace MapperSchema

/-- The number `± mantissa * 10 ^ exponent`. -/
structure Decimal where
  negative : Bool
  mantissa : Nat
  exponent : Int
  deriving DecidableEq, Repr

namespace Decimal

def natOfDigits (digits : List Char) : Nat :=
  digits.foldl (fun n c => 10 * n + (c.toNat - '0'.toNat)) 0

def exponentOfDigits? (digits : List Char) : Option Nat :=
  if !digits.isEmpty && digits.all Char.isDigit then some (natOfDigits digits) else none

def exponent? : List Char → Option Int
  | [] => some 0
  | 'e' :: '-' :: digits => (exponentOfDigits? digits).map fun n => -(n : Int)
  | 'e' :: '+' :: digits => (exponentOfDigits? digits).map fun n => (n : Int)
  | 'e' :: digits => (exponentOfDigits? digits).map fun n => (n : Int)
  | _ => none

/-- Digits after the point, and what follows them. -/
def fraction : List Char → List Char × List Char
  | '.' :: rest => (rest.takeWhile Char.isDigit, rest.dropWhile Char.isDigit)
  | rest => ([], rest)

def parseUnsigned? (negative : Bool) (text : List Char) : Option Decimal :=
  let whole := text.takeWhile Char.isDigit
  let (part, rest) := fraction (text.dropWhile Char.isDigit)
  if whole.isEmpty then none
  else (exponent? rest).map fun e => ⟨negative, natOfDigits (whole ++ part), e - part.length⟩

def parse? (text : String) : Option Decimal :=
  match text.toList with
  | '-' :: rest => parseUnsigned? true rest
  | rest => parseUnsigned? false rest

/-- The nearest number of at most 53 binary digits, a tie going to the even one. -/
def round53 (n : Nat) : Nat :=
  let unit := 1 <<< (n.log2 + 1 - 53)
  let up := n % unit * 2 > unit || (n % unit * 2 == unit && n / unit % 2 == 1)
  (n / unit + if up then 1 else 0) * unit

def magnitude? (d : Decimal) : Option Nat :=
  let scale := Nat.pow 10 d.exponent.natAbs
  if 0 ≤ d.exponent then some (d.mantissa * scale)
  else if d.mantissa % scale = 0 then some (d.mantissa / scale)
  else none

def whole? (d : Decimal) : Option Int :=
  d.magnitude?.map fun n => if d.negative then -(round53 n : Int) else round53 n

/-- The whole number a float's text stands for, if it is one. -/
def wholeOfText? (text : String) : Option Int := (parse? text).bind whole?

example : wholeOfText? "-0.0" = some 0 := by decide
example : wholeOfText? "2.5" = none := by decide
example : wholeOfText? "2.5e+1" = some 25 := by decide
example : wholeOfText? "inf" = none := by decide
example : wholeOfText? "1e+23" = some 99999999999999991611392 := by decide

end Decimal

end MapperSchema
