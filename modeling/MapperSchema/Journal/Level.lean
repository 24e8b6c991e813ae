/-! Severities of events, and the level names by which they are filtered. -/
namespace MapperSchema

inductive Severity where
  | debug | info | error
  deriving DecidableEq, Repr

namespace Severity

def number : Severity → Nat
  | .debug => 10
  | .info => 20
  | .error => 40

def name : Severity → String
  | .debug => "debug"
  | .info => "info"
  | .error => "error"

end Severity

namespace Level

/-- Upper case of the letters that can occur in a level name. The dotless i and the long s have
the plain capitals as their upper case; no other character outside ASCII has. -/
def upperChar (c : Char) : Char :=
  if c = 'ı' then 'I' else if c = 'ſ' then 'S' else c.toUpper

def numberOfUpper? : String → Option Nat
  | "NOTSET" => some 0
  | "DEBUG" => some 10
  | "INFO" => some 20
  | "WARN" => some 30
  | "WARNING" => some 30
  | "ERROR" => some 40
  | "CRITICAL" => some 50
  | "FATAL" => some 50
  | _ => none

def upper (name : String) : String := String.ofList (name.toList.map upperChar)

/-- The number of a level name, in any letter case. -/
def number? (name : String) : Option Nat := numberOfUpper? (upper name)

/-- Names in capitals that are defined beside the levels, and are no level. The ligatures of s and t
have the two capitals as their upper case. -/
def others : List String := ["BASIC_FORMAT", "_STYLES", "_ﬅYLES", "_ﬆYLES"]

def isOther (name : String) : Bool := others.contains (upper name)

example : number? "warning" = some 30 := by decide
example : number? "Verbose" = none := by decide

end Level

end MapperSchema
