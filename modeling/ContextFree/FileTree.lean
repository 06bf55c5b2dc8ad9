import ContextFree.Text.Blank
import ContextFree.Text.Utf8

/-!
Files in a tree of directories, and how a path is followed from the working directory. A path is cut at
slashes; empty names and single dots say nothing, and a double dot leads to the directory above. A tilde
and a user's name at the head of a path may be taken for the home directory of that user.
-/
namespace ContextFree

open Text

/-- The slashes that make a path start at the root of all files, and the names of the path. -/
structure FilePath where
  root : String
  names : List String
  deriving DecidableEq

namespace FilePath

/-- Two slashes, and not three, are a root of their own. -/
def rootOf (cs : List Char) : String :=
  match (cs.takeWhile (· == '/')).length with
  | 0 => ""
  | 2 => "//"
  | _ => "/"

def ofString (s : String) : FilePath where
  root := rootOf s.toList
  names := ((pieces '/' s.toList).map String.ofList).filter fun n => n ≠ "" ∧ n ≠ "."

def toString (p : FilePath) : String :=
  if p.root = "" ∧ p.names = [] then "." else p.root ++ "/".intercalate p.names

/-- The last name of a path. -/
def name (p : FilePath) : String := p.names.getLast?.getD ""

end FilePath

inductive FileFault where
  | notFound
  | notDirectory
  | isDirectory
  | nameTooLong
  deriving DecidableEq

def FileFault.number : FileFault → Nat
  | notFound => 2
  | notDirectory => 20
  | isDirectory => 21
  | nameTooLong => 36

def FileFault.reason : FileFault → String
  | notFound => "No such file or directory"
  | notDirectory => "Not a directory"
  | isDirectory => "Is a directory"
  | nameTooLong => "File name too long"

/-- Why a file cannot be read as text. -/
inductive ReadError where
  | file (fault : FileFault) (path : FilePath)
  | undecodable (fault : Utf8Fault)
  /-- A path with the character that ends paths. -/
  | nullInPath
  /-- A path that starts in the home directory of a user whom nobody knows. -/
  | unknownHome
  deriving DecidableEq

def ReadError.message : ReadError → String
  | file fault path =>
    "[Errno " ++ toString fault.number ++ "] " ++ fault.reason ++ ": " ++ quoted path.toString
  | undecodable fault => fault.message
  | nullInPath => "embedded null byte"
  | unknownHome => "Could not determine home directory."

/-- Each file by the names on the way from the root to it, the names of the working directory, and the home
directory of each user; the empty name is one's own. -/
structure FileTree where
  files : List (List String × List UInt8)
  workingDirectory : List String
  homes : List (String × FilePath)

namespace FileTree

/-- The file with these names; of several the last one given. -/
def file? (t : FileTree) (names : List String) : Option (List UInt8) := t.files.reverse.lookup names

/-- Whether the names lead to a directory: to the working directory, or to one above it or above a
file. -/
def isDirectory (t : FileTree) (names : List String) : Bool :=
  names.isPrefixOf t.workingDirectory ||
    t.files.any fun f => names.length < f.1.length && names.isPrefixOf f.1

/-- The most bytes of a name in a directory. -/
def maxNameBytes : Nat := 255

/-- The most bytes of a path as it is written. -/
def maxPathBytes : Nat := 4095

/-- The bytes at the end of a path that is followed from the directory `here`. The root is above
itself. -/
def follow (t : FileTree) (here : List String) : List String → Except FileFault (List UInt8)
  | [] => .error .isDirectory
  | name :: rest =>
    if name = ".." then t.follow here.dropLast rest
    else if maxNameBytes < name.utf8ByteSize then .error .nameTooLong
    else
      let there := here ++ [name]
      match t.file? there with
      | some bytes => if rest = [] then .ok bytes else .error .notDirectory
      | none => if t.isDirectory there then t.follow there rest else .error .notFound

def bytes (t : FileTree) (path : FilePath) : Except ReadError (List UInt8) :=
  if path.names.any (·.contains '\x00') then .error .nullInPath
  else if maxPathBytes < path.toString.utf8ByteSize then .error (.file .nameTooLong path)
  else
    (t.follow (if path.root = "" then t.workingDirectory else []) path.names).mapError (.file · path)

/-- The path with its first name, if that is a tilde and a user's name, replaced by the user's home
directory. -/
def atHome (t : FileTree) (path : FilePath) : Except ReadError FilePath :=
  match path.names with
  | first :: rest =>
    match first.toList with
    | '~' :: user =>
      if path.root ≠ "" then .ok path
      else if user.contains '\x00' then .error .nullInPath
      else match t.homes.lookup (String.ofList user) with
        | some home => .ok { home with names := home.names ++ rest }
        | none => .error .unknownHome
    | _ => .ok path
  | [] => .ok path

/-- A file as text, line ends made plain. -/
def text (t : FileTree) (path : FilePath) : Except ReadError String := do
  let bytes ← t.bytes path
  match decode bytes with
  | .ok cs => return String.ofList (plainLineEnds cs)
  | .error fault => throw (.undecodable fault)

end FileTree

end ContextFree
