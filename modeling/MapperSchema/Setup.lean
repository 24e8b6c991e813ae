import MapperSchema.Session
import MapperSchema.Settings

/-! Setting the journal up: the threshold by level name, and the renderer of what it keeps. -/
namespace MapperSchema

inductive Renderer where
  | json | console | keyValue
  deriving DecidableEq, Repr

def Renderer.name : Renderer → String
  | .json => "JSONRenderer"
  | .console => "ConsoleRenderer"
  | .keyValue => "KeyValueRenderer"

namespace Console

/-- Characters for which a text is quoted; a quoted text stands on one line. -/
def separators : List Char := [' ', '\t', '\r', '\n', '=', '\x22', '\x27']

/-- Characters that end a line and do not make a text be quoted. -/
def lineEnds : List Char :=
  ['\x0b', '\x0c', '\x1c', '\x1d', '\x1e', '\u0085', '\u2028', '\u2029']

/-- The lines that an attribute adds: only bare text does, one for each of its line ends. -/
def extraLines : Attribute → Nat
  | .value (.text s) =>
    if s.toList.any separators.contains then 0 else s.toList.countP lineEnds.contains
  | _ => 0

def lines (e : Entry) : Nat := e.record.rows.foldl (fun n row => n + extraLines row.2) 1

example : extraLines (.value (.text "a\x0b\x0c")) = 2 := by decide
example : extraLines (.value (.text "a\n\x0b")) = 0 := by decide

end Console

/-- The lines that an entry takes on the output. Keys and values go to a host's own. -/
def Renderer.lines : Renderer → Entry → Nat
  | .json, _ => 1
  | .console, e => Console.lines e
  | .keyValue, _ => 0

structure Setup where
  threshold : Nat
  renderer : Renderer
  deriving DecidableEq, Repr

/-- How events leave the process. Those below the level of the logger may be left out. -/
structure Output where
  renderer : Renderer
  filtered : Bool
  deriving DecidableEq, Repr

/-- What setting up changes: the root logger's handler and level, the level of the package's logger,
where zero is none, and the output, which there is once it has been configured. -/
structure Logging where
  handled : Bool := false
  rootLevel : Nat := 30
  level : Nat := 0
  output? : Option Output := none
  deriving DecidableEq, Repr

/-- Nothing has the name of a level, or something that is no level. -/
inductive LevelFault where
  | undefined | notLevel
  deriving DecidableEq, Repr

namespace Logging

/-- A logger without a level has the root's. -/
def effectiveLevel (l : Logging) : Nat := if l.level = 0 then l.rootLevel else l.level

def setup? (l : Logging) : Option Setup :=
  l.output?.map fun o => ⟨if o.filtered then l.effectiveLevel else 0, o.renderer⟩

/-- Gives the root logger a handler and this level, unless it has a handler. -/
def withHandler (level : Nat) (l : Logging) : Logging :=
  if l.handled then l else { l with handled := true, rootLevel := level }

/-- Configures by the name of a level. The handler is there before the level itself is looked at, so
that it stays where the name is that of something else. -/
def configure (environment levelName : String) (jsonLogs : Bool) :
    EStateM LevelFault Logging Unit := do
  match Level.number? levelName with
  | some n =>
    modify (withHandler n)
    let renderer := if jsonLogs || environment == Mode.production.name then .json else .console
    modify fun l => { l with level := n, output? := some ⟨renderer, true⟩ }
  | none =>
    if Level.isOther levelName then
      modify fun l => { l with handled := true }
      throw .notLevel
    throw .undefined

/-- Configures by settings what is not configured yet, and tells whether this was done. -/
def setUp (s : Settings) : EStateM LevelFault Logging Bool := do
  if (← get).output?.isSome then return false
  configure s.environment.name s.logLevel (s.jsonLogs || s.isProduction)
  return true

/-- A host has configured the output: every event, as keys and values. -/
def hosted : Logging := { output? := some ⟨.keyValue, false⟩ }

end Logging

namespace Setup

/-- Nothing is set up if no level has the name. -/
def configure? (environment levelName : String) (jsonLogs : Bool) : Option Setup :=
  match Logging.configure environment levelName jsonLogs {} with
  | .ok _ l => l.setup?
  | .error _ _ => none

/-- Sets up by settings, unless a host has; also tells whether this was done. -/
def ofSettings? (s : Settings) (hostConfigured : Bool) : Option (Bool × Setup) :=
  match Logging.setUp s (if hostConfigured then .hosted else {}) with
  | .ok installed l => l.setup?.map (installed, ·)
  | .error _ _ => none

/-- Runs with a new journal under this setup and the context variables of the session. Gives what
the run gave and the journal that it left; the session gets its old journal back. -/
def observe {ρ : Type} (setup : Setup) (run : Session → ρ × Session) (s : Session) :
    ρ × Journal × Session :=
  let journal := { threshold := setup.threshold, context := s.journal.context }
  let (r, s') := run { s with journal := journal }
  (r, s'.journal, { s' with journal := s.journal })

end Setup

end MapperSchema
