import CollectionShell.Text.Basic

/-!
# Log records

A record is a message at a level. Levels have a name and a number, and a higher number is
more severe.
-/

namespace CollectionShell.Log

/-- The level of a record. -/
inductive Level
  | trace
  | debug
  | info
  | success
  | warning
  | error
  | critical
  deriving DecidableEq, Repr

namespace Level

/-- Every level, the least severe first. -/
def all : List Level := [.trace, .debug, .info, .success, .warning, .error, .critical]

/-- The name of a level. -/
def name : Level → String
  | .trace => "TRACE"
  | .debug => "DEBUG"
  | .info => "INFO"
  | .success => "SUCCESS"
  | .warning => "WARNING"
  | .error => "ERROR"
  | .critical => "CRITICAL"

/-- The number of a level. -/
def severity : Level → Nat
  | .trace => 5
  | .debug => 10
  | .info => 20
  | .success => 25
  | .warning => 30
  | .error => 40
  | .critical => 50

/-- The level with a name, if there is one. -/
def ofName? (t : Text) : Option Level := all.find? fun l => l.name.toList == t

theorem ofName?_name (l : Level) : ofName? l.name.toList = some l := by
  cases l <;> decide

/-- A level is found by its name only. -/
theorem ofName?_eq_some {t : Text} {l : Level} : ofName? t = some l ↔ t = l.name.toList := by
  refine ⟨fun h => ?_, fun h => h ▸ ofName?_name l⟩
  have := List.find?_some h
  exact (eq_of_beq this).symm

end Level

/-- A message at a level. -/
structure Record where
  /-- How severe it is. -/
  level : Level
  /-- What it says. -/
  message : String
  deriving DecidableEq, Repr

end CollectionShell.Log
