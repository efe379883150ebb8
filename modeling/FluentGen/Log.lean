import FluentGen.Failure
import FluentGen.Number.Integer
import FluentGen.Text.Case

/-!
Log records and how they are written.
-/

namespace FluentGen

/-- A log record: the higher the level, the graver. -/
structure LogRecord where
  level : Nat
  text : String
  deriving DecidableEq, Repr

namespace Log

/-- Details of what is done. -/
def debug : Nat := 10

/-- What has been done. -/
def info : Nat := 20

/-- What is probably not meant. -/
def warning : Nat := 30

/-- What went wrong. -/
def error : Nat := 40

/-- What makes it impossible to go on. -/
def critical : Nat := 50

/-- The names of the levels that have one. -/
def levelNames : List (Nat × String) :=
  [(0, "NOTSET"), (debug, "DEBUG"), (info, "INFO"), (warning, "WARNING"), (error, "ERROR"),
    (critical, "CRITICAL")]

/-- The name of a level. -/
def levelName (level : Nat) : String :=
  (levelNames.lookup level).getD ("Level " ++ Number.integerText level)

/-- The levels by name, with the older names of two of them. -/
def namedLevels : List (String × Nat) :=
  levelNames.map (fun l => (l.2, l.1)) ++ [("FATAL", critical), ("WARN", warning)]

/-- The level with a name, of either case. -/
def levelNamed (name : String) : Except Failure Nat :=
  let name := Text.upper name
  match namedLevels.lookup name with
  | some level => .ok level
  | none => .error (.unknownLevel ("Level " ++ name))

/-- Ends all colors. -/
def resetColor : String := "\x1b[0m"

/-- The colors of the levels that have one. -/
def levelColors : List (Nat × String) :=
  [(debug, "\x1b[36m"), (info, "\x1b[32m"), (warning, "\x1b[33m"), (error, "\x1b[31m"),
    (critical, "\x1b[31m\x1b[1m")]

/-- A text in a color, which ends behind it unless it shall go on. -/
def colored (color text : String) (reset : Bool := true) : String :=
  color ++ text ++ if reset then resetColor else ""

/-- How a log is set up: what it leaves out and whether it is colored. -/
structure Setup where
  threshold : Nat := info
  useColor : Bool := true
  deriving DecidableEq, Repr

/-- The line of a record. -/
def render (useColor : Bool) (record : LogRecord) : String :=
  let line := levelName record.level ++ " " ++ record.text
  match levelColors.lookup record.level with
  | some color => if useColor then colored color line else line
  | none => line

/-- Whether a record gets into a log: it has a level above zero and reaches the threshold. -/
def accepts (setup : Setup) (record : LogRecord) : Bool :=
  0 < record.level && setup.threshold ≤ record.level

/-- The text that a log gets, one line for each record that gets into it. -/
def transcript (setup : Setup) (records : List LogRecord) : String :=
  String.join <| (records.filter (accepts setup)).map fun r => render setup.useColor r ++ "\n"

end Log

end FluentGen
