/-!
Text in colours, for a terminal: a colour sequence selects a way of painting, and another one ends it.
-/

namespace RepoSurvey

/-- A way of painting. -/
inductive Ink where
  | boldBlue | boldYellow | cyan | green | red | yellow
  deriving Repr, DecidableEq

namespace Ink

/-- The numbers that select a way of painting on a terminal. -/
def code : Ink → String
  | boldBlue => "1;34"
  | boldYellow => "1;33"
  | cyan => "36"
  | green => "32"
  | red => "31"
  | yellow => "33"

/-- The escape character, with which colour sequences begin. -/
def escapeChar : Char := '\x1b'

/-- A text between the sequences that begin and end a way of painting. -/
def around (ink : Ink) (text : String) : String :=
  s!"{escapeChar}[{ink.code}m{text}{escapeChar}[0m"

end Ink

/-- A text, painted if colours are on. -/
def paint (ink : Ink) (text : String) (colors : Bool) : String :=
  if colors then ink.around text else text

/-- A heading, painted if colours are on. -/
def heading (text : String) (colors : Bool) : String :=
  if colors then Ink.boldBlue.around text else text

end RepoSurvey
