/-!
# Log records

Runs report what they meet in records of three levels. A record is kept by a reader whose threshold
is not above its level.
-/

namespace ProtocolPages

/-- The importance of a log record. -/
inductive Level where
  /-- Details for someone who looks into a run. -/
  | debug
  /-- What a run found and wrote. -/
  | info
  /-- What a reader of the documents should know about. -/
  | warning
  deriving DecidableEq, Repr

/-- The name of a level. -/
def Level.name : Level → String
  | debug => "DEBUG"
  | info => "INFO"
  | warning => "WARNING"

/-- The rank of a level among the others. -/
def Level.rank : Level → Nat
  | debug => 0
  | info => 1
  | warning => 2

/-- A log record. -/
structure LogRecord where
  /-- The importance of the record. -/
  level : Level
  /-- The text of the record. -/
  message : String
  deriving DecidableEq, Repr

/-- The records of a run, oldest first. -/
abbrev Log := List LogRecord

/-- The line that shows a record. -/
def LogRecord.line (r : LogRecord) : String :=
  "[" ++ r.level.name ++ "] " ++ r.message ++ "\n"

/-- The lines of the records that reach the threshold. -/
def Log.lines (threshold : Level) (log : Log) : String :=
  String.join ((log.filter (threshold.rank ≤ ·.level.rank)).map LogRecord.line)

/-- The name of the channel on which a component logs: every channel lies below the one of the
tool. -/
def channelName (component : String) : String :=
  if component = "ddldoc" || component.startsWith "ddldoc." then component
  else "ddldoc." ++ component

end ProtocolPages
