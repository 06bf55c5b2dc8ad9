import ContextFree.CommandLine.Run
import ContextFree.Log.Colour

/-!
The program: the command line over the files of the machine. What the arguments name is looked up before
the run, which then needs nothing else.
-/
namespace ContextFree.Main

open CommandLine

/-- The directory that holds every directory that has been found: a name below it. -/
def marker : List String := [""]

/-- What is found at `names` under `start`: a file, or a directory by its marker. -/
def found (start : String) (absolute names : List String) :
    IO (List (List String × List UInt8)) := do
  try
    let place ← IO.FS.realPath (start ++ "/" ++ "/".intercalate names)
    if ← place.isDir then return [(absolute ++ marker, [])]
    let bytes ← IO.FS.readBinFile place
    return [(absolute, bytes.toList)]
  catch _ => return []

/-- The names that a path leads to, double dots followed. -/
def settled (here : List String) (names : List String) : List String :=
  names.foldl (fun here name => if name = ".." then here.dropLast else here ++ [name]) here

/-- Everything on the way of a path. -/
def foundOnWay (here : List String) (path : FilePath) : IO (List (List String × List UInt8)) := do
  let start := if path.root = "" then here else []
  let mut all := []
  for n in List.range path.names.length do
    let names := path.names.take (n + 1)
    all := all ++ (← found ("/" ++ "/".intercalate start) (settled start names) names)
  return all

/-- A user and the home directory, from a line of the table of users. -/
def home? (line : String) : Option (String × FilePath) :=
  match line.splitOn ":" with
  | [user, _, _, _, _, home, _] => some (user, .ofString home)
  | _ => none

/-- The home directories of the machine, one's own first. -/
def findHomes : IO (List (String × FilePath)) := do
  let own := (← IO.getEnv "HOME").map fun home => ("", FilePath.ofString home)
  let users ← try IO.FS.lines "/etc/passwd" catch _ => pure #[]
  return own.toList ++ users.toList.filterMap home?

/-- The part of the machine's files that the arguments name. -/
def findFiles (arguments : List String) : IO FileTree := do
  let here := (FilePath.ofString (← IO.currentDir).toString).names
  let homes ← findHomes
  let paths := match Options.ofArguments arguments with
    | .ok options =>
      let config := match options.config with
        | .value path => ((FileTree.atHome ⟨[], here, homes⟩ (.ofString path)).toOption).toList
        | _ => []
      config ++ options.files.map FilePath.ofString
    | .error _ => []
  let mut files := []
  for path in paths do
    files := files ++ (← foundOnWay here path)
  return ⟨files, here, homes⟩

def helpText : String :=
  "usage: cnf-normalizer [options] files...\n" ++
    String.join (optionNames.map fun o => "  " ++ o.2.shown ++ "\n")

def interruptionMessage : Interruption → String
  | .usage error => usageLine error
  | .help => helpText
  | .badLogLevel => "the log level is neither a name nor a number"
  | .startWithoutValue => "the option for the start symbol has no value"
  | .sampleWithoutValue => "the option for the length of words has no value"
  | .tooManyDigits count => (Json.Refusal.tooManyDigits count).message
  | .reading error => error.message
  | .words error => error.message

end ContextFree.Main

open ContextFree CommandLine in
def main (arguments : List String) : IO UInt32 := do
  match run Log.colouredLine arguments (← ContextFree.Main.findFiles arguments) with
  | .ok outcome =>
    IO.print outcome.output
    IO.eprint outcome.errors
    return outcome.exit.toUInt32
  | .error .help =>
    IO.print ContextFree.Main.helpText
    return 0
  | .error (.usage error) =>
    IO.eprintln (usageLine error)
    return 2
  | .error interruption =>
    IO.eprintln (ContextFree.Main.interruptionMessage interruption)
    return 1
