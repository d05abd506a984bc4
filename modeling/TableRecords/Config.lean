import TableRecords.Error
import TableRecords.Toml.Document

/-!
# Configuration

Settings of a session and of the embedded adapters. Each can be left out and then has a default.
Settings of other names are let be.
-/

namespace TableRecords

/-- The settings that were made. -/
structure Config where
  defaultIdColumn : Option String := none
  readPoolSize : Option Nat := none
  busyTimeoutMs : Option Nat := none
  logLevel : Option String := none
  deriving DecidableEq, Repr, Inhabited

namespace Config

/-- A setting that is a text. -/
def textSetting (ms : Toml.Members) (name : String) : Option (Option String) :=
  match ms.find? name with
  | none => some none
  | some (.text s) => some (some s)
  | some _ => none

/-- A setting that is a number without sign. -/
def countSetting (ms : Toml.Members) (name : String) : Option (Option Nat) :=
  match ms.find? name with
  | none => some none
  | some (.integer n) => if 0 ≤ n then some (some n.toNat) else none
  | some _ => none

/-- Reads the settings of a TOML document. -/
def read? (text : String) : Option Config := do
  let ms ← Toml.parse text
  return {
    defaultIdColumn := ← textSetting ms "default_id_column"
    readPoolSize := ← countSetting ms "read_pool_size"
    busyTimeoutMs := ← countSetting ms "busy_timeout_ms"
    logLevel := ← textSetting ms "log_level" }

/-- The settings of a TOML document. -/
def ofToml (text : String) : Except Error Config :=
  match read? text with
  | some config => .ok config
  | none => .error (.config "the document is no valid configuration")

/-- The key column of records that tag none. -/
def idColumn (c : Config) : String := c.defaultIdColumn.getD "id"

/-- How many connections of a pool only read; zero counts as not set. -/
def readers (c : Config) : Nat :=
  match c.readPoolSize with
  | none | some 0 => 2
  | some n => n

/-- How long a statement waits for a lock, in milliseconds. -/
def lockTimeout (c : Config) : Nat := c.busyTimeoutMs.getD 5000

/-- Which events are logged. -/
def logFilter (c : Config) : String := c.logLevel.getD "info"

end Config
end TableRecords
