/-!
# Log lines

What happens on the way is noted at four levels; the command line shows those at or above the level
that it was asked for.
-/

namespace Smpl

/-- How important a log line is, least first. -/
inductive LogLevel where
  | debug
  | verbose
  | info
  | warning
  deriving DecidableEq, Repr

/-- The rank of a level. -/
def LogLevel.rank : LogLevel → Nat
  | .debug => 0
  | .verbose => 1
  | .info => 2
  | .warning => 3

/-- The letter that marks a level. -/
def LogLevel.mark : LogLevel → String
  | .debug => "D"
  | .verbose => "V"
  | .info => "I"
  | .warning => "W"

/-- A log line. -/
structure LogLine where
  level : LogLevel
  text : String
  deriving DecidableEq, Repr

/-- A log line as it is shown. -/
def LogLine.render (line : LogLine) : String := "[" ++ line.level.mark ++ "]> " ++ line.text

/-- The lines at or above a level. -/
def shownAt (level : LogLevel) (lines : List LogLine) : List LogLine :=
  lines.filter fun line => level.rank ≤ line.level.rank

end Smpl
