import ContextFree.Log.Hierarchy
import ContextFree.Log.Record
import ContextFree.Json.Value

/-!
Where log records go. Once set up, the logger of this library and those below it write to a console and,
if asked to, to a file. A record is written if its level is positive and reaches the level of the logger.
On the console a record is a plain line or, where colours are asked for, whatever line stands for it in
colour: how that is drawn is up to the terminal, and a parameter here.
-/
namespace ContextFree.Log

/-- The level that a setting stands for: the level of a name, or a number. -/
def levelOf? : Json → Option Int
  | .string name => some (levelOfName name)
  | .int n => some n
  | .bool b => some (if b then 1 else 0)
  | _ => none

/-- The least level that is asked for, the line that shows a record, and whether there is a file. -/
structure Console where
  level : Int
  line : Record → String
  toFile : Bool

def plainLine (r : Record) : String :=
  "[" ++ levelName r.level ++ "] " ++ r.logger ++ " - " ++ r.message

namespace Console

/-- The console of a level, its lines coloured ones or plain ones. -/
def setUp (colouredLine : Record → String) (level : Int) (useColour toFile : Bool) : Console :=
  ⟨level, if useColour then colouredLine else plainLine, toFile⟩

/-- The least level that is written; level zero leaves it to the warning level. -/
def threshold (c : Console) : Int := if c.level = 0 then warning else c.level

/-- Whether a record is written, `inUse` being the loggers that have been used before. -/
def admits (c : Console) (inUse : List String) (r : Record) : Bool :=
  isOurs inUse r.logger && 0 < r.level && c.threshold ≤ r.level && c.level ≤ r.level

/-- The records that are written, in order. -/
def admitted (c : Console) (inUse : List String) : List Record → List Record
  | [] => []
  | r :: rest =>
    let later := c.admitted (r.logger :: inUse) rest
    if c.admits inUse r then r :: later else later

/-- What records that are written add to the console. -/
def shown (c : Console) (records : List Record) : String :=
  String.join (records.map fun r => c.line r ++ "\n")

/-- What records that are written add to the file, the time of each left out. -/
def filed (c : Console) (records : List Record) : String :=
  if c.toFile then String.join (records.map fun r => plainLine r ++ "\n") else ""

/-- The number of places that records are written to. -/
def outlets (c : Console) : Nat := if c.toFile then 2 else 1

end Console

end ContextFree.Log
