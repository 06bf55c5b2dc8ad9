import ContextFree.Log.Record

/-!
Lines of a terminal whose level is coloured. A code begins a colour and another one ends it; colours are
ended at the end of a line, too. The codes are written wherever colours are asked for: what the variables
`NO_COLOR` and `FORCE_COLOR` wish for is not heeded.
-/
namespace ContextFree.Log

def resetCode : String := "\x1b[0m"

def colourCode (level : Int) : String :=
  if level = debug then "\x1b[36m"
  else if level = info then "\x1b[32m"
  else if level = warning then "\x1b[33m"
  else if level = error then "\x1b[31m"
  else if level = critical then "\x1b[1;31m"
  else ""

def colouredLine (r : Record) : String :=
  let line := colourCode r.level ++ "[" ++ levelName r.level ++ "]" ++ resetCode ++ " " ++ r.logger
    ++ " - " ++ r.message
  if line.endsWith resetCode then line else line ++ resetCode

end ContextFree.Log
