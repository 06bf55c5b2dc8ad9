import ContextFree.Json.Value
import ContextFree.Number.Integer

/-!
JSON text read strictly, the numbers `NaN` and `Infinity` being allowed. Where a member name is repeated
the last value counts. Reading stops at the first fault. A place where something else was expected is kept
as the number of characters that are left, and turned into line and column at the end. An integer that is
too long is a fault as well, whatever follows it.

Values are read however deep they nest; a limit that a call stack may set is left out. A string is made of
characters, so an escape for half of a pair of units reads as U+FFFD and not as that unit, which shows in
the texts of errors that quote the string.
-/
namespace ContextFree.Json

inductive Expectation where
  | value
  | memberName
  | colon
  | comma
  | closingQuote
  | noControlCharacter
  | escape
  | unicodeEscape
  | nothing
  | noByteOrderMark
  deriving DecidableEq

def Expectation.message : Expectation → String
  | value => "Expecting value"
  | memberName => "Expecting property name enclosed in double quotes"
  | colon => "Expecting ':' delimiter"
  | comma => "Expecting ',' delimiter"
  | closingQuote => "Unterminated string starting at"
  | noControlCharacter => "Invalid control character at"
  | escape => "Invalid \\escape"
  | unicodeEscape => "Invalid \\uXXXX escape"
  | nothing => "Extra data"
  | noByteOrderMark => "Unexpected UTF-8 BOM (decode using utf-8-sig)"

/-- Why reading stops. -/
inductive Fault where
  /-- Something else was expected where `left` characters are left. -/
  | unexpected (expected : Expectation) (left : Nat)
  /-- An integer has more digits than an integer may be written with. -/
  | tooManyDigits (count : Nat)
  deriving DecidableEq

/-- Something read from `cs`, and the rest, which is shorter. -/
abbrev Progress (α : Type) (cs : List Char) := α × { rest : List Char // rest.length < cs.length }

def isJsonBlank (c : Char) : Bool := c == ' ' || c == '\t' || c == '\n' || c == '\r'

def skipJsonBlanks (cs : List Char) : List Char := cs.dropWhile isJsonBlank

theorem length_skipJsonBlanks_le (cs : List Char) : (skipJsonBlanks cs).length ≤ cs.length :=
  (List.dropWhile_sublist isJsonBlank).length_le

def hexValue? (c : Char) : Option Nat :=
  if '0' ≤ c ∧ c ≤ '9' then some (c.toNat - '0'.toNat)
  else if 'a' ≤ c ∧ c ≤ 'f' then some (c.toNat - 'a'.toNat + 10)
  else if 'A' ≤ c ∧ c ≤ 'F' then some (c.toNat - 'A'.toNat + 10)
  else none

/-- The value of the four hexadecimal digits at the head of `cs`, if something follows them. -/
def hexFour? (cs : List Char) : Option Nat :=
  if (cs.drop 4).isEmpty then none
  else ((cs.take 4).mapM hexValue?).map fun ds => ds.foldl (fun n d => 16 * n + d) 0

def escapedChar? : Char → Option Char
  | '"' => some '"'
  | '\\' => some '\\'
  | '/' => some '/'
  | 'b' => some '\x08'
  | 'f' => some '\x0c'
  | 'n' => some '\n'
  | 'r' => some '\r'
  | 't' => some '\t'
  | _ => none

/-- The second unit of a pair, if an escape with something after it follows. -/
def secondUnit? (cs : List Char) : Option (Except Fault Nat) :=
  match cs with
  | '\\' :: 'u' :: digits =>
    if (digits.drop 4).isEmpty then none
    else some (match hexFour? digits with
      | some unit => .ok unit
      | none => .error (.unexpected .unicodeEscape (digits.length + 1)))
  | _ => none

theorem length_drop_lt_length_cons {α : Type} (n : Nat) (a : α) (as : List α) :
    (as.drop n).length < (a :: as).length :=
  Nat.lt_succ_of_le (List.drop_sublist n as).length_le

/-- The character that an escape stands for, `cs` being what follows the backslash. A unit that is only
half of a pair has no character and reads as the replacement character. -/
def readEscape (opened : Nat) (cs : List Char) : Except Fault (Progress Char cs) :=
  match cs with
  | [] => .error (.unexpected .closingQuote opened)
  | 'u' :: digits =>
    match hexFour? digits with
    | none => .error (.unexpected .unicodeEscape (digits.length + 1))
    | some unit =>
      let single : Progress Char ('u' :: digits) :=
        (if 0xD800 ≤ unit ∧ unit < 0xE000 then '\uFFFD' else Char.ofNat unit,
          ⟨digits.drop 4, length_drop_lt_length_cons 4 _ digits⟩)
      if 0xD800 ≤ unit ∧ unit < 0xDC00 then
        match secondUnit? (digits.drop 4) with
        | some (.error fault) => .error fault
        | some (.ok second) =>
          if 0xDC00 ≤ second ∧ second < 0xE000 then
            .ok (Char.ofNat (0x10000 + (unit - 0xD800) * 0x400 + (second - 0xDC00)),
              ⟨digits.drop 10, length_drop_lt_length_cons 10 _ digits⟩)
          else .ok single
        | none => .ok single
      else .ok single
  | c :: rest =>
    match escapedChar? c with
    | some e => .ok (e, ⟨rest, by simp⟩)
    | none => .error (.unexpected .escape (rest.length + 2))

/-- The characters of a string up to its closing quote; `opened` characters were left at the opening
one. -/
def readChars (opened : Nat) (cs : List Char) : Except Fault (Progress (List Char) cs) :=
  match cs with
  | [] => .error (.unexpected .closingQuote opened)
  | c :: rest =>
    if c = '"' then .ok ([], ⟨rest, by simp⟩)
    else if c = '\\' then
      match readEscape opened rest with
      | .error fault => .error fault
      | .ok (e, ⟨after, shorter⟩) =>
        match readChars opened after with
        | .error fault => .error fault
        | .ok (es, ⟨final, last⟩) =>
          .ok (e :: es, ⟨final, Nat.lt_succ_of_lt (Nat.lt_trans last shorter)⟩)
    else if c.toNat ≤ 0x1F then .error (.unexpected .noControlCharacter (rest.length + 1))
    else
      match readChars opened rest with
      | .error fault => .error fault
      | .ok (es, ⟨final, last⟩) => .ok (c :: es, ⟨final, Nat.lt_succ_of_lt last⟩)
termination_by cs.length

/-- A string whose opening quote has been read. -/
def readString (cs : List Char) : Except Fault (Progress String cs) :=
  match readChars (cs.length + 1) cs with
  | .error fault => .error fault
  | .ok (chars, rest) => .ok (String.ofList chars, rest)

def isDigit (c : Char) : Bool := '0' ≤ c && c ≤ '9'

def digitsValue (ds : List Char) : Nat := ds.foldl (fun n d => 10 * n + (d.toNat - '0'.toNat)) 0

/-- The digits before point and exponent: a single zero, or a run that starts with another digit. -/
def wholeDigits (cs : List Char) : List Char :=
  match cs with
  | '0' :: _ => ['0']
  | _ => cs.takeWhile isDigit

/-- The digits after a point, if there are any. -/
def fractionDigits (cs : List Char) : List Char :=
  match cs with
  | '.' :: rest => rest.takeWhile isDigit
  | _ => []

/-- The exponent that `cs` starts with and how many characters it takes, if it has a digit. -/
def exponent? (cs : List Char) : Option (Int × Nat) :=
  match cs with
  | c :: rest =>
    if c = 'e' ∨ c = 'E' then
      let signs := rest.take 1 |>.filter fun s => s = '+' ∨ s = '-'
      let digits := (rest.drop signs.length).takeWhile isDigit
      if digits = [] then none
      else some (if signs = ['-'] then -digitsValue digits else digitsValue digits,
        1 + signs.length + digits.length)
    else none
  | [] => none

/-- A number without its sign; `left` characters were left where the sign may stand. -/
def readNumber (negative : Bool) (left : Nat) (cs : List Char) : Except Fault (Progress Json cs) :=
  let whole := wholeDigits cs
  if h : whole = [] ∨ cs = [] then .error (.unexpected .value left)
  else
    let fraction := fractionDigits (cs.drop whole.length)
    let afterFraction := whole.length + (if fraction = [] then 0 else fraction.length + 1)
    let exponent := exponent? (cs.drop afterFraction)
    let used := afterFraction + (exponent.map Prod.snd).getD 0
    have shorter : (cs.drop used).length < cs.length := by
      have hw : 0 < whole.length := by
        rw [List.length_pos_iff]
        exact fun e => h (Or.inl e)
      have hc : 0 < cs.length := by
        rw [List.length_pos_iff]
        exact fun e => h (Or.inr e)
      simp only [List.length_drop]
      omega
    if fraction = [] ∧ exponent = none then
      if maxDigits < whole.length then .error (.tooManyDigits whole.length)
      else
        .ok (.int (if negative then -digitsValue whole else digitsValue whole),
          ⟨cs.drop used, shorter⟩)
    else
      let magnitude := Binary64.ofDecimal (digitsValue (whole ++ fraction))
        ((exponent.map Prod.fst).getD 0 - fraction.length)
      .ok (.real (if negative then magnitude.negate else magnitude), ⟨cs.drop used, shorter⟩)

/-- The values that are written as words. -/
def literals : List (List Char × Json) :=
  [("null".toList, .null), ("true".toList, .bool true), ("false".toList, .bool false),
    ("NaN".toList, .real .nan), ("Infinity".toList, .real .infinity),
    ("-Infinity".toList, .real Binary64.infinity.negate)]

def readLiteral (cs : List Char) : Option (Progress Json cs) :=
  match literals.find? fun l => l.1.isPrefixOf cs with
  | some (word, value) =>
    if h : (cs.drop word.length).length < cs.length then
      some (value, ⟨cs.drop word.length, h⟩)
    else none
  | none => none

/-- A value that holds no other values and is no string. -/
def readScalar (cs : List Char) : Except Fault (Progress Json cs) :=
  match readLiteral cs with
  | some read => .ok read
  | none =>
    match cs with
    | '-' :: rest =>
      match readNumber true (rest.length + 1) rest with
      | .error fault => .error fault
      | .ok (value, ⟨after, shorter⟩) => .ok (value, ⟨after, by simp; omega⟩)
    | unsigned => readNumber false unsigned.length unsigned

mutual

def readValue (cs : List Char) : Except Fault (Progress Json cs) :=
  match cs with
  | '"' :: rest =>
    match readString rest with
    | .error fault => .error fault
    | .ok (s, ⟨after, shorter⟩) => .ok (.string s, ⟨after, by simp; omega⟩)
  | '[' :: rest =>
    have := length_skipJsonBlanks_le rest
    match h : skipJsonBlanks rest with
    | ']' :: after =>
      .ok (.array [], ⟨after, by rw [h] at this; simp at this ⊢; omega⟩)
    | inside =>
      match readItems inside with
      | .error fault => .error fault
      | .ok (items, ⟨after, shorter⟩) =>
        .ok (.array items, ⟨after, by rw [h] at this; simp; omega⟩)
  | '\x7b' :: rest =>
    have := length_skipJsonBlanks_le rest
    match h : skipJsonBlanks rest with
    | '\x7d' :: after =>
      .ok (.object [], ⟨after, by rw [h] at this; simp at this ⊢; omega⟩)
    | inside =>
      match readMembers [] inside with
      | .error fault => .error fault
      | .ok (members, ⟨after, shorter⟩) =>
        .ok (.object members, ⟨after, by rw [h] at this; simp; omega⟩)
  | other => readScalar other
termination_by (cs.length, 0)
decreasing_by all_goals (rw [h] at this; simp only [List.length_cons]; decreasing_tactic)

/-- The items up to the closing bracket, at least one. -/
def readItems (cs : List Char) : Except Fault (Progress (List Json) cs) :=
  match readValue cs with
  | .error fault => .error fault
  | .ok (item, ⟨rest, shorter⟩) =>
    have := length_skipJsonBlanks_le rest
    match h : skipJsonBlanks rest with
    | ']' :: after => .ok ([item], ⟨after, by rw [h] at this; simp at this; omega⟩)
    | ',' :: next =>
      have := length_skipJsonBlanks_le next
      have : (skipJsonBlanks next).length < cs.length := by simp_all; omega
      match readItems (skipJsonBlanks next) with
      | .error fault => .error fault
      | .ok (items, ⟨after, last⟩) =>
        .ok (item :: items, ⟨after, by simp_all; omega⟩)
    | other => .error (.unexpected .comma other.length)
termination_by (cs.length, 1)

/-- The members up to the closing brace, at least one, put after those in `before`. -/
def readMembers (before : List (String × Json)) (cs : List Char) :
    Except Fault (Progress (List (String × Json)) cs) :=
  match cs with
  | '"' :: quotedName =>
    match readString quotedName with
    | .error fault => .error fault
    | .ok (name, ⟨rest, shorter⟩) =>
      have := length_skipJsonBlanks_le rest
      match h : skipJsonBlanks rest with
      | ':' :: next =>
        have := length_skipJsonBlanks_le next
        have : (skipJsonBlanks next).length < quotedName.length := by simp_all; omega
        match readValue (skipJsonBlanks next) with
        | .error fault => .error fault
        | .ok (value, ⟨rest', shorter'⟩) =>
          have := length_skipJsonBlanks_le rest'
          match h' : skipJsonBlanks rest' with
          | '\x7d' :: after =>
            .ok (setMember name value before, ⟨after, by simp_all; omega⟩)
          | ',' :: next' =>
            have := length_skipJsonBlanks_le next'
            have : (skipJsonBlanks next').length < quotedName.length := by simp_all; omega
            match readMembers (setMember name value before) (skipJsonBlanks next') with
            | .error fault => .error fault
            | .ok (members, ⟨after, last⟩) => .ok (members, ⟨after, by simp_all; omega⟩)
          | other => .error (.unexpected .comma other.length)
      | other => .error (.unexpected .colon other.length)
  | other => .error (.unexpected .memberName other.length)
termination_by (cs.length, 1)

end

/-- Where and why a text is no JSON; lines and columns count from one, characters from zero. -/
structure SyntaxError where
  expected : Expectation
  line : Nat
  column : Nat
  position : Nat
  deriving DecidableEq

def SyntaxError.message (e : SyntaxError) : String :=
  e.expected.message ++ ": line " ++ toString e.line ++ " column " ++ toString e.column
    ++ " (char " ++ toString e.position ++ ")"

/-- Why a text is not read. -/
inductive Refusal where
  | malformed (error : SyntaxError)
  | tooManyDigits (count : Nat)
  deriving DecidableEq

def Refusal.message : Refusal → String
  | malformed error => error.message
  | tooManyDigits count =>
    "Exceeds the limit (" ++ toString maxDigits ++ " digits) for integer string conversion: value has "
      ++ toString count ++ " digits; use sys.set_int_max_str_digits() to increase the limit"

/-- A fault in `text`, by its place if it has one. -/
def Fault.locate (text : List Char) : Fault → Refusal
  | unexpected expected left =>
    let position := text.length - left
    let before := text.take position
    .malformed {
      expected := expected
      line := before.count '\n' + 1
      column := (before.reverse.takeWhile (· ≠ '\n')).length + 1
      position := position }
  | tooManyDigits count => .tooManyDigits count

def readAll (text : List Char) : Except Fault Json :=
  if text.head? = some '\uFEFF' then .error (.unexpected .noByteOrderMark text.length)
  else match readValue (skipJsonBlanks text) with
    | .error fault => .error fault
    | .ok (value, ⟨rest, _⟩) =>
      match skipJsonBlanks rest with
      | [] => .ok value
      | extra => .error (.unexpected .nothing extra.length)

/-- The value that the whole of a text describes. -/
def read (text : String) : Except Refusal Json :=
  (readAll text.toList).mapError (·.locate text.toList)

end ContextFree.Json
