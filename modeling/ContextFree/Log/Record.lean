/-!
Log records and their levels. Five levels have names; a level may be asked for by name, in either case, or
by number. The level zero stands for the level of whatever stands above, which is the warning level.
-/
namespace ContextFree.Log

structure Record where
  logger : String
  level : Int
  message : String
  deriving DecidableEq

def debug : Int := 10

def info : Int := 20

def warning : Int := 30

def error : Int := 40

def critical : Int := 50

def levelName (level : Int) : String :=
  if level = critical then "CRITICAL"
  else if level = error then "ERROR"
  else if level = warning then "WARNING"
  else if level = info then "INFO"
  else if level = debug then "DEBUG"
  else if level = 0 then "NOTSET"
  else "Level " ++ toString level

/-- The capital of a letter, as far as a level name can hold it: besides the ASCII letters there are two
whose capitals are ASCII. -/
def capital (c : Char) : Char :=
  if c = 'ı' then 'I' else if c = 'ſ' then 'S' else c.toUpper

/-- The level of a name; a name that is none is taken for the warning level. -/
def levelOfName (name : String) : Int :=
  let capitals := name.map capital
  if capitals = "CRITICAL" ∨ capitals = "FATAL" then critical
  else if capitals = "ERROR" then error
  else if capitals = "INFO" then info
  else if capitals = "DEBUG" then debug
  else if capitals = "NOTSET" then 0
  else warning

end ContextFree.Log
