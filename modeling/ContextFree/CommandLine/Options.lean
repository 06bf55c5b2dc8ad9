import ContextFree.Number.Integer
import ContextFree.Text.Quoted

/-!
The arguments of the command line. Each argument is first told apart by its look alone: an option in full,
an option by the beginning of its name, something that looks like an option and is none, or a plain
argument. Everything after the first double dash is plain. Then options take their values from right
behind them, and the first run of plain arguments that is met becomes the files.
-/
namespace ContextFree.CommandLine

open Text

inductive Opt where
  | help
  | noSteps
  | keepStartEpsilon
  | start
  | classify
  | sample
  | config
  | logLevel
  | noColour
  deriving DecidableEq

def Opt.takesValue : Opt → Bool
  | .start | .sample | .config | .logLevel => true
  | _ => false

/-- The names of the options, in the order in which they are listed where several fit. -/
def optionNames : List (String × Opt) :=
  [("--help", .help), ("--no-steps", .noSteps), ("--keep-start-epsilon", .keepStartEpsilon),
    ("--start", .start), ("--classify", .classify), ("--sample", .sample), ("--config", .config),
    ("--log-level", .logLevel), ("--no-color", .noColour)]

/-- An option as messages show it: its name, and before it the letter that help has. -/
def Opt.shown (o : Opt) : String :=
  "/".intercalate
    ((if o = .help then ["-h"] else []) ++ (optionNames.filter (·.2 = o)).map Prod.fst)

inductive UsageError where
  | ambiguous (written : String) (candidates : List String)
  | missingValue (option : Opt)
  | needlessValue (option : Opt) (value : String)
  | notAnInteger (option : Opt) (value : String)
  | negative (option : Opt) (value : Int)
  | noFiles
  | unrecognized (arguments : List String)
  deriving DecidableEq

def UsageError.message : UsageError → String
  | ambiguous written candidates =>
    "ambiguous option: " ++ written ++ " could match " ++ ", ".intercalate candidates
  | missingValue option => "argument " ++ option.shown ++ ": expected one argument"
  | needlessValue option value =>
    "argument " ++ option.shown ++ ": ignored explicit argument " ++ quoted value
  | notAnInteger option value =>
    "argument " ++ option.shown ++ ": invalid int value: " ++ quoted value
  | negative option value =>
    "argument " ++ option.shown ++ ": must be >= 0, got " ++ toString value
  | noFiles => "the following arguments are required: files"
  | unrecognized arguments => "unrecognized arguments: " ++ " ".intercalate arguments

/-- An argument by its look. -/
inductive Argument where
  | plain (text : String)
  /-- An option, and the value that an equals sign attached to it. -/
  | option (option : Opt) (value : Option String)
  /-- The letter that asks for help, and what is written right behind it. -/
  | helpLetter (attached : List Char)
  | unknown (text : String)
  /-- The first double dash. -/
  | divider
  deriving DecidableEq

def Argument.text? : Argument → Option String
  | plain text => some text
  | divider => some "--"
  | _ => none

/-- An argument cut at its first equals sign. -/
def cutAtEquals (text : String) : String × Option String :=
  match text.toList.dropWhile (· ≠ '=') with
  | [] => (text, none)
  | _ :: value => (String.ofList (text.toList.takeWhile (· ≠ '=')), some (String.ofList value))

/-- The options whose name starts with `text`, or with what stands before its equals sign. -/
def abbreviated (text : String) : List (String × Argument) :=
  let (name, value) := cutAtEquals text
  (optionNames.filter fun o => name.toList.isPrefixOf o.1.toList).map fun o =>
    (o.1, .option o.2 value)

/-- An argument that starts with a dash and is no option: a plain one if it is a number or has a space,
or if the dash is all of it. -/
def Argument.ofNoOption (text : String) : Argument :=
  if text = "-" || isNegativeNumber text || text.contains ' ' then .plain text else .unknown text

/-- What an argument before the first double dash is. A name in full wins over those that it begins. -/
def Argument.ofText (text : String) : Except UsageError Argument :=
  match text.toList with
  | '-' :: 'h' :: attached => .ok (.helpLetter attached)
  | '-' :: '-' :: _ =>
    let (name, value) := cutAtEquals text
    match optionNames.lookup name, abbreviated text with
    | some o, _ => .ok (.option o value)
    | none, [(_, argument)] => .ok argument
    | none, [] => .ok (.ofNoOption text)
    | none, several => .error (.ambiguous text (several.map Prod.fst))
  | '-' :: _ => .ok (.ofNoOption text)
  | _ => .ok (.plain text)

def Argument.ofTexts : List String → Except UsageError (List Argument)
  | [] => .ok []
  | text :: rest =>
    if text = "--" then .ok (.divider :: rest.map .plain)
    else do return (← Argument.ofText text) :: (← ofTexts rest)

/-- What has become of an option that takes a value. A double dash that an equals sign attaches to it is
taken away, which leaves the option without the value. -/
inductive OptionValue (α : Type) where
  | absent
  | withoutValue
  | value (a : α)
  deriving DecidableEq

def OptionValue.ofText (text : String) : OptionValue String :=
  if text = "--" then .withoutValue else .value text

structure Options where
  files : List String
  noSteps : Bool
  keepStartEpsilon : Bool
  start : OptionValue String
  classify : Bool
  sample : OptionValue Nat
  config : OptionValue String
  logLevel : OptionValue String
  noColour : Bool
  deriving DecidableEq

def Options.none : Options := ⟨[], false, false, .absent, false, .absent, .absent, .absent, false⟩

/-- How reading the arguments can end without options. -/
inductive Ending where
  | usage (error : UsageError)
  | help
  deriving DecidableEq

def Options.setFlag (options : Options) : Opt → Except Ending Options
  | .help => .error .help
  | .noSteps => .ok { options with noSteps := true }
  | .keepStartEpsilon => .ok { options with keepStartEpsilon := true }
  | .classify => .ok { options with classify := true }
  | .noColour => .ok { options with noColour := true }
  | .start | .sample | .config | .logLevel => .ok options

/-- The options with the value that stands behind the name of one. -/
def Options.setValue (options : Options) (o : Opt) (value : String) : Except Ending Options :=
  match o with
  | .start => .ok { options with start := .ofText value }
  | .config => .ok { options with config := .ofText value }
  | .logLevel => .ok { options with logLevel := .ofText value }
  | .sample =>
    if value = "--" then .ok { options with sample := .withoutValue }
    else match readInteger? value with
      | .none => .error (.usage (.notAnInteger o value))
      | some n =>
        if n < 0 then .error (.usage (.negative o n))
        else .ok { options with sample := .value n.toNat }
  | .help | .noSteps | .keepStartEpsilon | .classify | .noColour =>
    .error (.usage (.needlessValue o value))

/-- How reading ends at letters that ask for help: the one letter may be repeated, any other is a value,
which help does not take. -/
def helpEnding : List Char → Ending
  | [] => .help
  | 'h' :: more => helpEnding more
  | value => .usage (.needlessValue .help (String.ofList value))

/-- How reading ends at a letter that asks for help and what is attached to it, by an equals sign or
without one. An equals sign that attaches nothing gives help an empty value. -/
def attachedEnding : List Char → Ending
  | ['='] => .usage (.needlessValue .help "")
  | '=' :: value => helpEnding value
  | attached => helpEnding attached

/-- What reading has come to: the options, the arguments that have no place, and whether the files have
been met. -/
structure Reading where
  options : Options
  extras : List String
  filesMet : Bool

/-- A run of plain arguments: the files, if they have not been met and some argument is more than the
divider. -/
def Reading.takeRun (r : Reading) (run : List Argument) : Reading :=
  let files := run.filterMap fun a => match a with
    | .plain text => some text
    | _ => none
  if r.filesMet || files = [] then
    { r with extras := r.extras ++ run.filterMap Argument.text? }
  else { r with options := { r.options with files := files }, filesMet := true }

def Argument.isPlain (a : Argument) : Bool := a.text?.isSome

/-- The arguments read from the left. -/
def Reading.readAll (r : Reading) (arguments : List Argument) : Except Ending Reading :=
  match arguments with
  | [] => .ok r
  | .unknown text :: rest => Reading.readAll { r with extras := r.extras ++ [text] } rest
  | .helpLetter attached :: _ => .error (attachedEnding attached)
  | .option o (some value) :: rest =>
    match r.options.setValue o value with
    | .error e => .error e
    | .ok options => Reading.readAll { r with options := options } rest
  | .option o .none :: rest =>
    if o.takesValue then
      match rest with
      | .plain value :: rest =>
        match r.options.setValue o value with
        | .error e => .error e
        | .ok options => Reading.readAll { r with options := options } rest
      | _ => .error (.usage (.missingValue o))
    else
      match r.options.setFlag o with
      | .error e => .error e
      | .ok options => Reading.readAll { r with options := options } rest
  | first :: rest =>
    let run := first :: rest.takeWhile Argument.isPlain
    Reading.readAll (r.takeRun run) (rest.dropWhile Argument.isPlain)
termination_by arguments.length
decreasing_by
  all_goals simp only [List.length_cons]
  all_goals first
    | omega
    | exact Nat.lt_succ_of_le (List.dropWhile_sublist Argument.isPlain).length_le

/-- The options that the arguments give. Files have to be among them, and every argument needs a place. -/
def Options.ofArguments (arguments : List String) : Except Ending Options :=
  match Argument.ofTexts arguments with
  | .error e => .error (.usage e)
  | .ok classified =>
    match Reading.readAll ⟨.none, [], false⟩ classified with
    | .error e => .error e
    | .ok r =>
      if !r.filesMet then .error (.usage .noFiles)
      else if r.extras ≠ [] then .error (.usage (.unrecognized r.extras))
      else .ok r.options

end ContextFree.CommandLine
