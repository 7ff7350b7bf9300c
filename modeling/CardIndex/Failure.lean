namespace CardIndex

/-- Why a file operation fails. -/
inductive IoError
  | notFound
  | alreadyExists
  | notADirectory
  | isADirectory
  | invalidText
  | other (message : String)
deriving DecidableEq

def IoError.message : IoError → String
  | notFound => "No such file or directory (os error 2)"
  | alreadyExists => "File exists (os error 17)"
  | notADirectory => "Not a directory (os error 20)"
  | isADirectory => "Is a directory (os error 21)"
  | invalidText => "stream did not contain valid UTF-8"
  | other message => message

/-- What is wrong with the settings. -/
inductive SettingsFault
  | unreadable (path : String) (e : IoError)
  | noTable
  | backendLeftOut
  | unknownBackend (name : String) (known : List String)
deriving DecidableEq

def SettingsFault.message : SettingsFault → String
  | unreadable path e => "Failed to read config file '" ++ path ++ "': " ++ e.message
  | noTable => "CATALOG_TABLE is not set"
  | backendLeftOut => "the libsql backend needs the `db` feature"
  | unknownBackend name known =>
    "unknown store backend '" ++ name ++ "' (supported: " ++ ", ".intercalate known ++ ")"

/-- Why a run stops. -/
inductive Failure
  | http
  | json
  | toml
  | io (e : IoError)
  | settings (fault : SettingsFault)
  | missingInput (path : String)
  | malformedInput (path : String) (missingArray : Option String)
  | store (message : String)
  | unprocessed (chunk count : Nat)
  | delayOverflow
deriving DecidableEq

/-- What a failure is reported as, up to where a library says in its own words what is wrong. -/
def Failure.message : Failure → String
  | http => "HTTP request failed"
  | json => "JSON deserialization failed"
  | toml => "TOML deserialization failed"
  | io e => "I/O error: " ++ e.message
  | settings fault => "Configuration error: " ++ fault.message
  | missingInput path => "Input file not found: " ++ path
  | malformedInput path none => "Malformed input: " ++ path
  | malformedInput path (some member) => "Malformed input: " ++ path ++ ": missing `" ++ member ++ "` array"
  | store message => "Catalog store error: " ++ message
  | unprocessed chunk count =>
    "Chunk " ++ toString chunk ++ " still has " ++ toString count ++ " unprocessed items after retries"
  | delayOverflow => "overflow when multiplying duration by scalar"

/-- Failures on which a library has words of its own. -/
def Failure.isExplained : Failure → Bool
  | http => true
  | json => true
  | toml => true
  | malformedInput _ none => true
  | _ => false

/-- The message with the words of the library, where it has any. -/
def Failure.fullMessage (words : String) (f : Failure) : String :=
  if f.isExplained then f.message ++ ": " ++ words else f.message

end CardIndex
