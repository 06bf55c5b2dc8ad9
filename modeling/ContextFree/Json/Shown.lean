import ContextFree.Json.Value
import ContextFree.Number.Shortest
import ContextFree.Text.Quoted

/-!
JSON values as messages show them: `None`, `True` and `False` for the words, quoted text, and blanks after
commas and colons.
-/
namespace ContextFree.Json

open Text

def shownNumberWords : NumberWords := ⟨"nan", "inf"⟩

mutual

def shown : Json → String
  | null => "None"
  | bool true => "True"
  | bool false => "False"
  | int value => toString value
  | real value => value.text shownNumberWords
  | string value => quoted value
  | array items => bracketed (shownItems items)
  | object members => "\x7b" ++ ", ".intercalate (shownMembers members) ++ "\x7d"

def shownItems : List Json → List String
  | [] => []
  | item :: items => shown item :: shownItems items

def shownMembers : List (String × Json) → List String
  | [] => []
  | (name, value) :: members => (quoted name ++ ": " ++ shown value) :: shownMembers members

end

end ContextFree.Json
