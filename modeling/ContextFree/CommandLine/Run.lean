import ContextFree.Analysis.Linear
import ContextFree.CommandLine.Options
import ContextFree.Grammar.TextFormat
import ContextFree.Log.Console
import ContextFree.Log.Narration
import ContextFree.Settings

/-!
A run of the command line over a tree of files. Each file is a grammar; what is shown of it goes to the
output, records and error lines go to the error output. A file that cannot be read or converted is
reported and the next one is taken up.

Left out are arguments that are no text of Unicode characters, which a system may hand over as bytes, and a
limit on the depth of nested settings. Either could end a run in ways that `Interruption` does not list.
-/
namespace ContextFree.CommandLine

open Log

/-- What a run shows: the whole output and error output, and the exit code. -/
structure Outcome where
  exit : Nat
  output : String
  errors : String
  deriving DecidableEq

/-- How a run can end without an outcome. -/
inductive Interruption where
  | usage (error : UsageError)
  | help
  | badLogLevel
  /-- The start symbol is asked for and the option for it has no value. -/
  | startWithoutValue
  /-- Words are asked for and the option for their length has no value. -/
  | sampleWithoutValue
  | tooManyDigits (count : Nat)
  | reading (error : ReadError)
  | words (error : WordsError)
  deriving DecidableEq

/-- A line of the error output: a record, or a text that is always shown. -/
inductive ErrorLine where
  | record (record : Record)
  | text (text : String)
  deriving DecidableEq

/-- What has been shown so far. -/
structure Display where
  output : String
  errors : List ErrorLine
  deriving DecidableEq

namespace Display

def nothing : Display := ⟨"", []⟩

def append (a b : Display) : Display := ⟨a.output ++ b.output, a.errors ++ b.errors⟩

instance : Append Display := ⟨append⟩

def ofOutput (text : String) : Display := ⟨text, []⟩

def ofRecords (records : List Record) : Display := ⟨"", records.map .record⟩

end Display

def rule (c : Char) : String := String.ofList (List.replicate 80 c)

/-- A grammar under a title. -/
def shownGrammar (title : String) (g : Grammar) : String :=
  rule '=' ++ "\n" ++ title ++ "\n" ++ rule '-' ++ "\n" ++ g.render ++ "\n\n"

/-- The words of a grammar, shorter ones first, one in a line. -/
def shownWords (g : Grammar) (bound : Nat) (words : List Word) : String :=
  let between := if g.terminals.all (·.length == 1) then "" else " "
  let line (w : Word) : String :=
    "  " ++ (if w = [] then Grammar.epsilon else between.intercalate w) ++ "\n"
  "Strings of length <= " ++ toString bound ++ " (" ++ toString words.length ++ "):\n"
    ++ String.join ((words.mergeSort shorterFirst).map line) ++ "\n"

/-- The settings of a run, the command line's own taken in. -/
structure Plan where
  options : Options
  verbose : Bool
  policy : Policy

/-- The words up to the sample length, under a heading. -/
def sample (heading : String) (g : Grammar) (bound : Nat) : Except Interruption Display :=
  match g.wordsUpTo bound with
  | .error e => .error (.words e)
  | .ok words =>
    .ok (.ofOutput (heading ++ "\n") ++ .ofRecords [Log.ofWords words bound]
      ++ .ofOutput (shownWords g bound words))

/-- What is shown of a conversion. -/
def shownConversion (plan : Plan) (c : Conversion) : Display :=
  let steps := if plan.verbose then c.steps.map fun s => shownGrammar s.1 s.2 else []
  .ofRecords (Log.ofConversion plan.policy c) ++
    .ofOutput (String.join steps ++ shownGrammar "Grammar in CNF" c.result)

/-- What is shown of a grammar from the file `path`, and the error that stops it. -/
def runGrammar (plan : Plan) (path : FilePath) (g : Grammar) :
    Except Interruption (Display × Option GrammarError) := do
  let beforehand :=
    if plan.verbose then
      shownGrammar ("Original grammar (" ++ path.name ++ ", start: " ++ g.start ++ ")") g
    else ""
  let kind :=
    if plan.options.classify then "Classification: " ++ g.type.label ++ "\n\n" else ""
  let before : Display := .ofRecords [Log.ofParsed g] ++ .ofOutput (beforehand ++ kind)
  match g.convert plan.policy with
  | .error e => return (before, some e)
  | .ok c =>
    let shown := before ++ shownConversion plan c
    match plan.options.sample with
    | .absent => return (shown, none)
    | .withoutValue => throw .sampleWithoutValue
    | .value bound =>
      let ofSource ← sample "Original grammar" g bound
      let ofResult ← sample "CNF grammar" c.result bound
      return (shown ++ ofSource ++ ofResult, none)

def commandLineLogger : String := "cnf_normalizer.cli"

/-- The two lines about a file that failed. -/
def reported (path : FilePath) (recorded message : String) : Display :=
  ⟨"", [.record ⟨commandLineLogger, Log.error, recorded⟩,
    .text ("ERROR: " ++ path.toString ++ ": " ++ message ++ "\n")]⟩

def reportedError (path : FilePath) (e : GrammarError) : Display :=
  reported path (path.toString ++ ": " ++ e.kind ++ ": " ++ e.message) e.message

/-- The grammar of a text under the start that the options give. No symbol is empty, so where the option
has no value, a grammar with the empty start is refused at the place where the missing start is missed:
after every fault that is looked for before. -/
def parsed (options : Options) (text : String) : Except Interruption (Except GrammarError Grammar) :=
  match options.start with
  | .absent => .ok (Grammar.parse text none)
  | .value start => .ok (Grammar.parse text (some start))
  | .withoutValue =>
    match Grammar.parse text (some "") with
    | .error (.malformed (.undeclaredStart _)) => .error .startWithoutValue
    | other => .ok other

/-- What is shown of one file, and whether it went well. -/
def runFile (plan : Plan) (files : FileTree) (path : FilePath) :
    Except Interruption (Display × Bool) :=
  match files.text path with
  | .error .nullInPath => .error (.reading .nullInPath)
  | .error e =>
    .ok (reported path ("Cannot read " ++ path.toString ++ ": " ++ e.message) e.message, false)
  | .ok text => do
    match ← parsed plan.options text with
    | .error e => return (reportedError path e, false)
    | .ok g =>
      match ← runGrammar plan path g with
      | (shown, none) => return (shown, true)
      | (shown, some e) => return (shown ++ reportedError path e, false)

/-- All files one after the other. -/
def runFiles (plan : Plan) (files : FileTree) : List String → Except Interruption (Display × Bool)
  | [] => .ok (.nothing, true)
  | name :: rest => do
    let (shown, well) ← runFile plan files (.ofString name)
    let (others, othersWell) ← runFiles plan files rest
    return (shown ++ others, well && othersWell)

/-- The settings that the options name, or the default ones. -/
def loadSettings (options : Options) (files : FileTree) : Except SettingsError Settings :=
  match options.config with
  | .absent | .withoutValue | .value "" => .ok .default
  | .value path => Settings.load files (.ofString path)

def ErrorLine.written (console : Console) : ErrorLine → String
  | record r => console.shown (console.admitted [] [r])
  | text t => t

/-- The log level: the option's, unless it is empty, or the settings'. -/
def chosenLevel (options : Options) (settings : Settings) : Json :=
  match options.logLevel with
  | .absent | .withoutValue | .value "" => settings.logLevel
  | .value name => .string name

def runWith (colouredLine : Record → String) (options : Options) (settings : Settings)
    (files : FileTree) : Except Interruption Outcome := do
  let plan : Plan :=
    { options := options
      verbose := settings.verbose.truthy && !options.noSteps
      policy := { settings.policy with
        keepStartEpsilon := settings.policy.keepStartEpsilon || options.keepStartEpsilon } }
  match levelOf? (chosenLevel options settings) with
  | none => throw .badLogLevel
  | some level =>
    let console := Console.setUp colouredLine level (!options.noColour) false
    let (shown, well) ← runFiles plan files options.files
    return ⟨if well then 0 else 1, shown.output,
      String.join (shown.errors.map (·.written console))⟩

/-- The line about arguments that cannot be read. -/
def usageLine (e : UsageError) : String := "cnf-normalizer: error: " ++ e.message

/-- A run with these arguments over these files, on a terminal that shows coloured lines in its own way. -/
def run (colouredLine : Record → String) (arguments : List String) (files : FileTree) :
    Except Interruption Outcome :=
  match Options.ofArguments arguments with
  | .error .help => .error .help
  | .error (.usage e) => .error (.usage e)
  | .ok options =>
    match loadSettings options files with
    | .error (.noText e) => .error (.reading e)
    | .error (.tooManyDigits count) => .error (.tooManyDigits count)
    | .error e => .ok ⟨2, "", "ERROR: " ++ e.message ++ "\n"⟩
    | .ok settings => runWith colouredLine options settings files

end ContextFree.CommandLine
