import TableRecords.Value

/-!
# Errors

Every failure is a value that tells its cause. `CoerceError` is a field that cannot take or give
a value, `AdapterError` a failed database call, and `Error` any failure of the library. `message`
words them and `code` names the class that callers may rely on.
-/

namespace TableRecords

/-- A path from a record to one of its fields, outermost index first. -/
abbrev Path := List Nat

/-- Why a field and a value do not fit. -/
inductive CoerceError where
  | mismatch (expected found : String)
  | outOfRange (expected : String) (value : Int)
  | json
  | unknownVariant (expected value : String)
  | unknownField (path : Path)
  deriving DecidableEq

namespace CoerceError

/-- A value of the wrong kind. -/
def ofKind (expected : String) (found : Value) : CoerceError := .mismatch expected found.kind

/-- The wording. Which part of a JSON text is at fault is not told. -/
def message : CoerceError → String
  | mismatch expected found => s!"cannot convert {found} into {expected}"
  | outOfRange expected value => s!"{value} is out of range for {expected}"
  | json => "invalid JSON: <detail>"
  | unknownVariant expected value => s!"unknown variant {Text.quoted value} for {expected}"
  | unknownField path => s!"no mapped field at path {Text.bracketed (path.map toString)}"

end CoerceError

/-- The classes of failed database calls. -/
inductive AdapterErrorKind where
  /-- Another connection holds the lock. -/
  | busy
  /-- The call was cancelled. -/
  | interrupted
  /-- A unique, not-null, foreign-key or check constraint does not hold. -/
  | constraint
  /-- The adapter was used after it was closed. -/
  | closed
  | other
  deriving DecidableEq, Repr

namespace AdapterErrorKind

/-- The words that open the message. -/
def label : AdapterErrorKind → String
  | busy => "busy"
  | interrupted => "interrupted"
  | constraint => "constraint violation"
  | closed => "adapter closed"
  | other => "adapter error"

/-- The stable code. -/
def code : AdapterErrorKind → String
  | busy => "DB_BUSY"
  | interrupted => "INTERRUPTED"
  | constraint => "CONSTRAINT_VIOLATION"
  | closed => "ADAPTER_CLOSED"
  | other => "ADAPTER_ERROR"

end AdapterErrorKind

/-- A failed database call: the SQL text and the number of arguments tell which one. -/
structure AdapterError where
  kind : AdapterErrorKind
  sql : String
  argCount : Nat
  detail : String
  deriving DecidableEq

namespace AdapterError

/-- A call on an adapter that was closed. -/
def closed (sql : String) (argCount : Nat) : AdapterError :=
  ⟨.closed, sql, argCount, "adapter is closed"⟩

/-- The wording. Argument values never appear in it. -/
def message (e : AdapterError) : String :=
  s!"{e.kind.label}: {e.detail} (sql: {Text.quoted e.sql}, args: {e.argCount})"

end AdapterError

/-- A failure of the library. -/
inductive Error where
  | invalidMapping (typeName reason : String)
  | noColumns (table : String)
  | missingPrimaryKey (table column : String)
  | scanTypeMismatch (column field : String) (source : CoerceError)
  | notFound (context : String)
  | adapter (e : AdapterError)
  | invalidArgument (detail : String)
  | config (detail : String)
  deriving DecidableEq

namespace Error

/-- The wording. -/
def message : Error → String
  | invalidMapping typeName reason => s!"invalid mapping for {typeName}: {reason}"
  | noColumns table => s!"no columns to insert into {table}"
  | missingPrimaryKey table column => s!"missing primary key {column} for {table}"
  | scanTypeMismatch column field source =>
    s!"cannot scan column {column} into field {field}: {source.message}"
  | notFound context => s!"record not found: {context}"
  | adapter e => e.message
  | invalidArgument detail => s!"invalid argument: {detail}"
  | config detail => s!"config error: {detail}"

/-- The stable code. -/
def code : Error → String
  | invalidMapping .. => "INVALID_MAPPING"
  | noColumns .. => "NO_COLUMNS"
  | missingPrimaryKey .. => "MISSING_PRIMARY_KEY"
  | scanTypeMismatch .. => "SCAN_TYPE_MISMATCH"
  | notFound .. => "NOT_FOUND"
  | adapter e => e.kind.code
  | invalidArgument .. => "INVALID_ARGUMENT"
  | config .. => "CONFIG_ERROR"

/-- Whether a single row was asked for and none was there. -/
def isNotFound : Error → Bool
  | notFound _ => true
  | _ => false

end Error
end TableRecords
