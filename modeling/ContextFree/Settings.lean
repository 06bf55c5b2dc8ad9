import ContextFree.FileTree
import ContextFree.Json.Reader
import ContextFree.Json.Shown
import ContextFree.Json.Writer
import ContextFree.NormalForm.Conversion

/-!
The settings of a run, kept as JSON. The round factor has to be a positive integer; the other settings
take any value and are used by its truth or, for the log level, by its kind. What `save` writes is read
back as the same settings, as long as no integer in them is too long to be read.

Settings may nest values to any depth, in reading and in saving: a limit on the depth, which would be one
more way to fail, is left out. A text in them that escapes half of a pair of units has U+FFFD in that place.
No setting is used differently for it; it shows where the text is shown or saved.
-/
namespace ContextFree

/-- A positive integer; the word for true counts as one. -/
def Json.positive? : Json → Option Int
  | .int n => if 1 ≤ n then some n else none
  | .bool true => some 1
  | _ => none

structure Settings where
  keepStartEpsilon : Json
  factor : Json
  verbose : Json
  logLevel : Json
  factor_positive : factor.positive?.isSome = true

inductive SettingsError where
  | unknownKeys (keys : List String)
  | badFactor (value : Json)
  | unreadable (path : FilePath) (fault : FileFault)
  /-- What is found under the path is no text, or the path is none. -/
  | noText (error : ReadError)
  | notJson (path : FilePath) (error : Json.SyntaxError)
  | tooManyDigits (count : Nat)
  | notAnObject (path : FilePath)

namespace SettingsError

def message : SettingsError → String
  | unknownKeys keys => "Unknown config keys: " ++ ", ".intercalate keys
  | badFactor value => "iteration_factor must be a positive integer, got " ++ value.shown
  | unreadable path fault =>
    "Failed to load config " ++ path.toString ++ ": " ++ (ReadError.file fault path).message
  | noText error => error.message
  | notJson path error => "Failed to load config " ++ path.toString ++ ": " ++ error.message
  | tooManyDigits count => (Json.Refusal.tooManyDigits count).message
  | notAnObject path => "Config " ++ path.toString ++ " must hold a JSON object"

end SettingsError

namespace Settings

def default : Settings where
  keepStartEpsilon := .bool false
  factor := .int 4
  verbose := .bool true
  logLevel := .string "WARNING"
  factor_positive := rfl

def keys : List String := ["keep_start_epsilon", "iteration_factor", "verbose", "log_level"]

/-- The settings with these values, the default for each one that is not given. -/
def ofMembers (members : List (String × Json)) : Except SettingsError Settings :=
  let unknown := (members.map Prod.fst).filter fun k => !keys.contains k
  let value (key : String) (default : Json) : Json := (members.lookup key).getD default
  let factor := value "iteration_factor" default.factor
  if unknown ≠ [] then .error (.unknownKeys (sortedSymbols unknown))
  else if h : factor.positive?.isSome = true then
    .ok {
      keepStartEpsilon := value "keep_start_epsilon" default.keepStartEpsilon
      factor := factor
      verbose := value "verbose" default.verbose
      logLevel := value "log_level" default.logLevel
      factor_positive := h }
  else .error (.badFactor factor)

def toJson (s : Settings) : Json :=
  .object [("keep_start_epsilon", s.keepStartEpsilon), ("iteration_factor", s.factor),
    ("verbose", s.verbose), ("log_level", s.logLevel)]

/-- The text in which settings are kept. -/
def save (s : Settings) : String := s.toJson.indented

/-- The settings that a text holds, which was found under `path`. -/
def ofText (path : FilePath) (text : String) : Except SettingsError Settings :=
  match Json.read text with
  | .error (.malformed e) => .error (.notJson path e)
  | .error (.tooManyDigits count) => .error (.tooManyDigits count)
  | .ok (.object members) => ofMembers members
  | .ok _ => .error (.notAnObject path)

/-- The settings in a file, whose path may start in a home directory. -/
def load (files : FileTree) (path : FilePath) : Except SettingsError Settings :=
  match files.atHome path with
  | .error error => .error (.noText error)
  | .ok path =>
    match files.text path with
    | .error (.file fault path) => .error (.unreadable path fault)
    | .error error => .error (.noText error)
    | .ok text => ofText path text

def sameAs (s t : Settings) : Bool := s.toJson.sameAs t.toJson

def factorValue (s : Settings) : Int := s.factor.positive?.getD 1

def policy (s : Settings) : Policy := ⟨s.keepStartEpsilon.truthy, s.factorValue⟩

end Settings

end ContextFree
