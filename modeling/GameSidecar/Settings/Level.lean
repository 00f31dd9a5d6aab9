import GameSidecar.Log
import GameSidecar.Text.Blank
import GameSidecar.Text.Capital
import GameSidecar.Text.Quoted

/-!
# The level of log lines as a setting

A level may be given in letters of either case, with blank characters around it, and by two other
names. An empty text stands for the usual level.
-/

namespace GameSidecar.Level

/-- The level that is in force where none is given. -/
def usual : Level :=
  .info

/-- Other names of levels. -/
def synonyms : List (String × Level) :=
  [("WARN", .warning), ("FATAL", .critical)]

/-- The level that a text names after trimming and in capitals. -/
def named? (text : List Char) : Option Level :=
  let name := String.ofList (Text.capitals (Text.trim Text.isBlank text))
  (synonyms.lookup name).or (ofName? name)

/-- What is said about a text that names no level. -/
def objection (text : String) : String :=
  s!"log_level must be one of DEBUG, INFO, WARNING, ERROR, CRITICAL, got {Text.quoted text}"

/-- The level that a text stands for, or what is said about it. -/
def ofSetting (text : String) : Except String Level :=
  if text.isEmpty then .ok usual
  else
    match named? text.toList with
    | some level => .ok level
    | none => .error (objection text)

end GameSidecar.Level
