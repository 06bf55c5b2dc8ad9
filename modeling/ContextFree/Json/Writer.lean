import ContextFree.Json.Value
import ContextFree.Number.Shortest
import ContextFree.Text.Quoted

/-!
JSON text in ASCII. Quotes and backslashes are escaped, and so is every character outside the printable
ASCII ones: by letter where JSON has one, else by its sixteen-bit units. `indented` puts each item on a
line of its own, two spaces deeper than what holds it; `compact` uses no blanks.
-/
namespace ContextFree.Json

open Text

def unitEscape (unit : Nat) : List Char := '\\' :: 'u' :: hexadecimal 4 unit

/-- A character by its sixteen-bit units, of which it has two if it lies beyond the first plane. -/
def escapeUnits (c : Char) : List Char :=
  if c.toNat < 0x10000 then unitEscape c.toNat
  else
    unitEscape (0xD800 + (c.toNat - 0x10000) / 0x400) ++
      unitEscape (0xDC00 + (c.toNat - 0x10000) % 0x400)

def escapeChar (c : Char) : List Char :=
  if c = '"' ∨ c = '\\' then ['\\', c]
  else if 0x20 ≤ c.toNat ∧ c.toNat ≤ 0x7E then [c]
  else if c = '\n' then ['\\', 'n']
  else if c = '\r' then ['\\', 'r']
  else if c = '\t' then ['\\', 't']
  else if c = '\x0c' then ['\\', 'f']
  else if c = '\x08' then ['\\', 'b']
  else escapeUnits c

def writeString (s : String) : List Char := '"' :: (s.toList.flatMap escapeChar ++ ['"'])

def numberWords : NumberWords := ⟨"NaN", "Infinity"⟩

/-- A value that holds no other values. -/
def writeScalar : Json → List Char
  | null => "null".toList
  | bool true => "true".toList
  | bool false => "false".toList
  | int value => (toString value).toList
  | real value => (value.text numberWords).toList
  | string value => writeString value
  | array _ => "[]".toList
  | object _ => "\x7b\x7d".toList

/-- A line end and the blanks that open a line at `depth`. -/
def lineAt (depth : Nat) : List Char := '\n' :: List.replicate (2 * depth) ' '

mutual

def indentedAt (depth : Nat) : Json → List Char
  | array (item :: items) =>
    '[' :: (lineAt (depth + 1) ++ indentedAt (depth + 1) item ++ indentedItems (depth + 1) items
      ++ lineAt depth ++ [']'])
  | object ((name, value) :: members) =>
    '\x7b' :: (lineAt (depth + 1) ++ writeString name ++ ": ".toList ++ indentedAt (depth + 1) value
      ++ indentedMembers (depth + 1) members ++ lineAt depth ++ ['\x7d'])
  | scalar => writeScalar scalar

def indentedItems (depth : Nat) : List Json → List Char
  | [] => []
  | item :: items => ',' :: (lineAt depth ++ indentedAt depth item ++ indentedItems depth items)

def indentedMembers (depth : Nat) : List (String × Json) → List Char
  | [] => []
  | (name, value) :: members =>
    ',' :: (lineAt depth ++ writeString name ++ ": ".toList ++ indentedAt depth value
      ++ indentedMembers depth members)

end

def indented (value : Json) : String := String.ofList (indentedAt 0 value)

mutual

def compactChars : Json → List Char
  | array (item :: items) => '[' :: (compactChars item ++ compactItems items ++ [']'])
  | object ((name, value) :: members) =>
    '\x7b' :: (writeString name ++ ':' :: (compactChars value ++ compactMembers members ++ ['\x7d']))
  | scalar => writeScalar scalar

def compactItems : List Json → List Char
  | [] => []
  | item :: items => ',' :: (compactChars item ++ compactItems items)

def compactMembers : List (String × Json) → List Char
  | [] => []
  | (name, value) :: members =>
    ',' :: (writeString name ++ ':' :: (compactChars value ++ compactMembers members))

end

def compact (value : Json) : String := String.ofList (compactChars value)

end ContextFree.Json
