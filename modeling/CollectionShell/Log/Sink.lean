import CollectionShell.Log.Record
import CollectionShell.Text.Quoted
import CollectionShell.Text.Uppercase

/-!
# Where the log goes

A sink takes the records that are at least as severe as its level, and has a profile. The
log remembers the profile and the level that it was last configured for, and configuring it
for the same again does nothing. Otherwise its sinks are taken away before the new one is
put up, so a level that does not exist leaves none.
-/

namespace CollectionShell

/-- Takes records of a level and above. -/
structure Log.Sink where
  /-- How the records are shown. -/
  profile : Text
  /-- The least severe level that it takes. -/
  level : Log.Level
  deriving DecidableEq, Repr

/-- A log. -/
structure Log where
  /-- The sinks that are up. -/
  sinks : List Log.Sink
  /-- The profile and level of the last configuration that succeeded. -/
  configured : Option (Text × Log.Level)
  deriving DecidableEq, Repr

namespace Log

/-- A log that nothing has configured : it is silent. -/
def silent : Log := ⟨[], none⟩

/-- The name of a level that does not exist. -/
structure LevelError where
  /-- The name, in upper case. -/
  name : Text
  deriving DecidableEq, Repr

/-- The wording of a level error. -/
def LevelError.message (e : LevelError) : String :=
  "Level " ++ String.ofList (Text.quoted e.name) ++ " does not exist"

/-- What configuring a log did. -/
inductive Change
  /-- The log was configured so already. -/
  | kept
  /-- The sinks were replaced by one. -/
  | rebuilt
  /-- The level does not exist. -/
  | refused (e : LevelError)
  deriving DecidableEq, Repr

/-- The level and the profile of a configuration that names none. -/
def defaultLevel : Text := Text.ofString "WARNING"

/-- The profile of a configuration that names none. -/
def defaultProfile : Text := Text.ofString "default"

/-- Configures a log for a profile and a level, given by its name in either case. -/
def configure (log : Log) (level profile : Text) : Change × Log :=
  let name := Text.upper level
  match Level.ofName? name with
  | none => (.refused ⟨name⟩, { log with sinks := [] })
  | some l =>
    if log.configured = some (profile, l) then (.kept, log)
    else (.rebuilt, ⟨[⟨profile, l⟩], some (profile, l)⟩)

/-- A sink takes a record. -/
def Sink.takes (s : Sink) (r : Record) : Bool := s.level.severity ≤ r.level.severity

/-- The records that reach the sinks of a log. -/
def delivered (log : Log) (rs : List Record) : List Record :=
  rs.flatMap fun r => (log.sinks.filter (·.takes r)).map fun _ => r

end Log

end CollectionShell
