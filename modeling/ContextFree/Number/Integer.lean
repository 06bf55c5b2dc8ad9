import ContextFree.Text.Blank

/-!
Integers as people write them: blanks around, a sign, decimal digits of any script, and single low lines
between digits.
-/
namespace ContextFree

/-- The code points of the digits zero; each is followed by its digits one to nine. -/
def zeroDigits : List Nat :=
  [0x30, 0x660, 0x6F0, 0x7C0, 0x966, 0x9E6, 0xA66, 0xAE6, 0xB66, 0xBE6, 0xC66, 0xCE6, 0xD66, 0xDE6,
   0xE50, 0xED0, 0xF20, 0x1040, 0x1090, 0x17E0, 0x1810, 0x1946, 0x19D0, 0x1A80, 0x1A90, 0x1B50,
   0x1BB0, 0x1C40, 0x1C50, 0xA620, 0xA8D0, 0xA900, 0xA9D0, 0xA9F0, 0xAA50, 0xABF0, 0xFF10, 0x104A0,
   0x10D30, 0x11066, 0x110F0, 0x11136, 0x111D0, 0x112F0, 0x11450, 0x114D0, 0x11650, 0x116C0,
   0x11730, 0x118E0, 0x11950, 0x11C50, 0x11D50, 0x11DA0, 0x16A60, 0x16AC0, 0x16B50, 0x1D7CE,
   0x1D7D8, 0x1D7E2, 0x1D7EC, 0x1D7F6, 0x1E140, 0x1E2F0, 0x1E950, 0x1FBF0]

def decimalDigit? (c : Char) : Option Nat :=
  (zeroDigits.find? fun z => z ≤ c.toNat && c.toNat < z + 10).map (c.toNat - ·)

/-- Digits with single low lines between them; `begun` tells whether a digit stands right before. -/
def readDigits? (begun : Bool) : List Char → Option (List Nat)
  | [] => if begun then some [] else none
  | c :: cs =>
    match decimalDigit? c with
    | some d => (readDigits? true cs).map (d :: ·)
    | none => if c = '_' && begun then readDigits? false cs else none

/-- Blanks that an integer may have around it: the separators are none of them in ASCII text. -/
def isIntegerBlank (c : Char) : Bool := Text.isBlank c && !(0x1C ≤ c.toNat && c.toNat ≤ 0x1F)

/-- The most digits that an integer may be written with. -/
def maxDigits : Nat := 4300

def readInteger? (s : String) : Option Int :=
  let stripped := ((s.toList.dropWhile isIntegerBlank).reverse.dropWhile isIntegerBlank).reverse
  let (negative, unsigned) : Bool × List Char := match stripped with
    | '-' :: rest => (true, rest)
    | '+' :: rest => (false, rest)
    | rest => (false, rest)
  match readDigits? false unsigned with
  | some ds =>
    if maxDigits < ds.length then none
    else
      let n : Nat := ds.foldl (fun n d => 10 * n + d) 0
      some (if negative then -n else n)
  | none => none

/-- Text that is a negative number rather than an option: digits after a minus sign, with a point before
the last of them or without one. A line feed may follow. -/
def isNegativeNumber (s : String) : Bool :=
  match s.toList with
  | '-' :: cs =>
    let body := if cs.getLast? = some '\n' then cs.dropLast else cs
    let isDigit (c : Char) : Bool := (decimalDigit? c).isSome
    let rest := body.dropWhile isDigit
    match rest with
    | [] => body ≠ []
    | '.' :: fraction => fraction ≠ [] ∧ fraction.all isDigit
    | _ => false
  | _ => false

end ContextFree
