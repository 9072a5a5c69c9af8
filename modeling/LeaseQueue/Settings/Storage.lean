/-
Where the tasks are stored:

* `StorageSettings`: host, port, user, password, database and pool size;
* `StorageSettings.ofLookup`: the settings that variables give, where a malformed
  port counts before a missing variable;
* `StorageSettings.url`: the connection URL, with user, password and database in
  percent-encoding;
* `StorageSettings.listing`: the settings for a reader, without the password.
-/
import LeaseQueue.Error
import LeaseQueue.Text.Percent

namespace LeaseQueue

/-- Where the tasks are stored, and how many connections may be open at a time. -/
structure StorageSettings where
  host : String
  port : Nat
  user : String
  password : String
  database : String
  maxConnections : Nat
  deriving DecidableEq

namespace StorageSettings

/-- The port of a database unless another one is chosen. -/
def standardPort : Nat := 5432

/-- The size of a pool unless another one is chosen. -/
def standardConnections : Nat := 10

/-- Settings with the standard port and pool. -/
def ofParts (host user password database : String) : StorageSettings :=
  ⟨host, standardPort, user, password, database, standardConnections⟩

def withPort (settings : StorageSettings) (port : Nat) : StorageSettings :=
  { settings with port }

def withMaxConnections (settings : StorageSettings) (n : Nat) : StorageSettings :=
  { settings with maxConnections := n }

/-- A pool that is at least this large. -/
def withMinConnections (settings : StorageSettings) (required : Nat) : StorageSettings :=
  { settings with maxConnections := max settings.maxConnections required }

/-! ### Variables -/

/-- The variables that hold the settings. -/
def hostVariable : String := "LEASEHOLD_POSTGRES_HOST"
def portVariable : String := "LEASEHOLD_POSTGRES_PORT"
def userVariable : String := "LEASEHOLD_POSTGRES_USER"
def passwordVariable : String := "LEASEHOLD_POSTGRES_PASSWORD"
def databaseVariable : String := "LEASEHOLD_POSTGRES_DBNAME"

/-- The port of a text. -/
def readPort (text : String) : Except Text.IntegerError Nat :=
  Text.readNatural Text.maxNat16 text.toList

/-- The value of a variable; an empty one is missing. -/
def value? (lookup : String → Option String) (name : String) : Option String :=
  (lookup name).filter fun value => value ≠ ""

/-- The value of a variable that has to be there. -/
def required (lookup : String → Option String) (name : String) : Except ConfigError String :=
  match value? lookup name with
  | some value => .ok value
  | none => .error (.missingVariable name)

/-- The port that a variable gives, or the standard one. -/
def portOfLookup (lookup : String → Option String) : Except ConfigError Nat :=
  match value? lookup portVariable with
  | none => .ok standardPort
  | some value =>
    match readPort value with
    | .ok port => .ok port
    | .error why => .error (.malformedVariable portVariable value why.message)

/-- The settings that variables give. Everything but the port is required. -/
def ofLookup (lookup : String → Option String) : Except ConfigError StorageSettings := do
  let port ← portOfLookup lookup
  let host ← required lookup hostVariable
  let user ← required lookup userVariable
  let password ← required lookup passwordVariable
  let database ← required lookup databaseVariable
  pure ((ofParts host user password database).withPort port)

/-! ### Text -/

/-- The URL of a connection. -/
def url (settings : StorageSettings) : String :=
  "postgres://" ++ Text.Percent.encode settings.user ++ ":"
    ++ Text.Percent.encode settings.password ++ "@" ++ settings.host ++ ":"
    ++ toString settings.port ++ "/" ++ Text.Percent.encode settings.database
    ++ "?sslmode=disable"

/-- The settings for a reader. The password stays hidden. -/
def listing (settings : StorageSettings) : String :=
  s!"StorageConfig \x7b host: {Text.quote settings.host}, port: {settings.port}, " ++
    s!"user: {Text.quote settings.user}, password: \"<redacted>\", " ++
    s!"dbname: {Text.quote settings.database}, " ++
    s!"max_connections: {settings.maxConnections} \x7d"

end StorageSettings
end LeaseQueue
