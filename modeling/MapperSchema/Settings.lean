import MapperSchema.Value.Reading

/-! Settings of the compiler. A keyword wins over an environment variable, and both are found in
any letter case; what neither gives has a default. -/
namespace MapperSchema

inductive Mode where
  | development | testing | production
  deriving DecidableEq, Repr

namespace Mode

def names : List String := ["development", "testing", "production"]

def name : Mode → String
  | .development => "development"
  | .testing => "testing"
  | .production => "production"

def ofName? : String → Option Mode
  | "development" => some .development
  | "testing" => some .testing
  | "production" => some .production
  | _ => none

@[simp] theorem ofName?_name (m : Mode) : ofName? m.name = some m := by cases m <;> rfl

end Mode

structure Settings where
  environment : Mode := .development
  logLevel : String := "WARNING"
  jsonLogs : Bool := false
  strictRequired : Bool := false
  deriving DecidableEq, Repr

namespace Settings

def isProduction (s : Settings) : Bool := s.environment = .production

/-- Lower case of the letters from A to Z, the only ones in a recognised name or text. -/
def lower (s : String) : String := String.ofList (s.toList.map Char.toLower)

def fieldNames : List String := ["environment", "log_level", "json_logs", "strict_required"]

def variablePrefix : String := "docschema_"

/-- The last variable whose name is the setting's, letter case aside. -/
def fromEnvironment? (env : List (String × String)) (setting : String) : Option String :=
  ((Table.ofList env).rows.reverse.find? fun row => lower row.1 == variablePrefix ++ setting).map
    (·.2)

/-- The first keyword whose name is the setting's, letter case aside. -/
def fromKeywords? (keywords : Options) (setting : String) : Option Value :=
  (keywords.rows.find? fun row => lower row.1 == setting).map (·.2)

/-- Where a setting's value comes from. -/
def source? (env : List (String × String)) (keywords : Options) (setting : String) :
    Option Value :=
  (fromKeywords? keywords setting).or ((fromEnvironment? env setting).map .text)

def readMode : Value → Except Complaint Mode
  | .text s =>
    match Mode.ofName? s with
    | some m => .ok m
    | none => .error (.notOneOf Mode.names)
  | _ => .error (.notOneOf Mode.names)

def trueTexts : List String := ["1", "on", "t", "true", "y", "yes"]
def falseTexts : List String := ["0", "off", "f", "false", "n", "no"]

def flagOfText? (s : String) : Option Bool :=
  if trueTexts.contains (lower s) then some true
  else if falseTexts.contains (lower s) then some false
  else none

/-- Integers of 64 bits are below this, and not below its opposite. -/
def wordBound : Int := 9223372036854775808

/-- Zero and one are flags. Other whole numbers from `least` to the greatest of 64 bits cannot be
read as flags; beyond these a number is not taken for one at all. -/
def flagOfWhole (least n : Int) : Except Complaint Bool :=
  if n = 0 then .ok false
  else if n = 1 then .ok true
  else .error (if least ≤ n ∧ n < wordBound then .unreadableBoolean else .notBoolean)

/-- Integers are taken from the least of 64 bits on, floats from the one after it. -/
def readFlag : Value → Except Complaint Bool
  | .bool b => .ok b
  | .int n => flagOfWhole (-wordBound) n
  | .text s => ((flagOfText? s).map .ok).getD (.error .unreadableBoolean)
  | .atom (.bytes data) =>
    (((decodeText? data).bind flagOfText?).map .ok).getD (.error .unreadableBoolean)
  | .atom (.float t) =>
    ((Decimal.wholeOfText? t).map (flagOfWhole (1 - wordBound))).getD (.error .notBoolean)
  | _ => .error .notBoolean

/-- Reads one setting, or takes its default. -/
def readSetting {α : Type} (read : Value → Except Complaint α) (missing : α) (name : String)
    (source : Option Value) : List Issue × α :=
  match source with
  | none => ([], missing)
  | some v =>
    match read v with
    | .ok a => ([], a)
    | .error c => ([⟨[name], c⟩], missing)

/-- All complaints, in the order of the settings, unknown keywords last. -/
def resolve (env : List (String × String)) (keywords : Options) :
    Except (List Issue) Settings :=
  let source := source? env keywords
  let (modeIssues, environment) :=
    readSetting readMode .development "environment" (source "environment")
  let (levelIssues, logLevel) :=
    readSetting Value.readText "WARNING" "log_level" (source "log_level")
  let (jsonIssues, jsonLogs) := readSetting readFlag false "json_logs" (source "json_logs")
  let (strictIssues, strictRequired) :=
    readSetting readFlag false "strict_required" (source "strict_required")
  let unknown := keywords.keys.filterMap fun k =>
    if fieldNames.contains (lower k) then none else some (Issue.mk [k] .unexpected)
  match modeIssues ++ levelIssues ++ jsonIssues ++ strictIssues ++ unknown with
  | [] => .ok ⟨environment, logLevel, jsonLogs, strictRequired⟩
  | issues => .error issues

example : flagOfText? "YES" = some true := by decide
example : flagOfText? " yes" = none := by decide
example : fromKeywords? (.ofList [("JSON_logs", .int 1), ("json_logs", .int 0)]) "json_logs" =
    some (.int 1) := rfl

end Settings

end MapperSchema
