/-!
# Log lines

Each line has one of five levels. A level in force hides the lines below it.
-/

namespace GameSidecar

/-- The levels of log lines, in ascending order. -/
inductive Level
  | debug
  | info
  | warning
  | error
  | critical
  deriving Repr, DecidableEq, Inhabited

namespace Level

/-- The levels in ascending order. -/
def all : List Level :=
  [.debug, .info, .warning, .error, .critical]

/-- The name of a level. -/
def name : Level → String
  | .debug => "DEBUG"
  | .info => "INFO"
  | .warning => "WARNING"
  | .error => "ERROR"
  | .critical => "CRITICAL"

/-- The place of a level in the order. -/
def rank : Level → Nat
  | .debug => 0
  | .info => 1
  | .warning => 2
  | .error => 3
  | .critical => 4

/-- The level of a name, which is in capitals. -/
def ofName? (text : String) : Option Level :=
  all.find? fun level => level.name == text

/-- A level is told apart by its name. -/
theorem ofName?_name (level : Level) : ofName? level.name = some level := by
  cases level <;> decide

end Level

/-- A line of the log. -/
structure Line where
  level : Level
  text : String
  deriving Repr, DecidableEq

namespace Line

def debug (text : String) : Line := ⟨.debug, text⟩

def info (text : String) : Line := ⟨.info, text⟩

def warning (text : String) : Line := ⟨.warning, text⟩

def error (text : String) : Line := ⟨.error, text⟩

def critical (text : String) : Line := ⟨.critical, text⟩

/-- The lines that a level in force leaves. -/
def visible (inForce : Level) (lines : List Line) : List Line :=
  lines.filter fun line => inForce.rank ≤ line.level.rank

end Line

end GameSidecar
