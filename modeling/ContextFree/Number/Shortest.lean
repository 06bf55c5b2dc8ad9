import ContextFree.Number.Binary64

/-!
The shortest decimal text of a binary number. For one digit, two digits and so on, the two neighbours of
the number on the decimal grid with that many digits are tried. The first grid with a neighbour that
reads back as the number decides; of two such neighbours the nearer is taken, and of two equally near
ones the even one. Text is positional for numbers from 0.0001 up to below 10 ^ 16, and always has a
point or an exponent; an exponent has a sign and at least two digits.
-/
namespace ContextFree

/-- The decimal number `digits * 10 ^ scale`. -/
structure Decimal where
  digits : Nat
  scale : Int
  deriving DecidableEq

namespace Binary64

/-- Quarters of the last binary place: the number is four of its significand's units, and what reads back
as it lies between `lower` and `upper`, the ends included when the significand is even. -/
def lower (x : Binary64) : Nat := 4 * x.significand - (if x.opensBinade then 1 else 2)

def upper (x : Binary64) : Nat := 4 * x.significand + 2

/-- `quarters` of the last place of `x`, as the numerator over `gridUnit x scale`, in units of
`10 ^ scale`. -/
def gridValue (x : Binary64) (scale : Int) (quarters : Nat) : Nat :=
  quarters * Nat.pow 2 (x.exponent - 2).toNat * Nat.pow 10 (-scale).toNat

def gridUnit (x : Binary64) (scale : Int) : Nat :=
  Nat.pow 2 (2 - x.exponent).toNat * Nat.pow 10 scale.toNat

def readsBack (x : Binary64) (d : Decimal) : Bool :=
  let at_ := d.digits * x.gridUnit d.scale
  let low := x.gridValue d.scale x.lower
  let high := x.gridValue d.scale x.upper
  if x.significand % 2 = 0 then low ≤ at_ && at_ ≤ high else low < at_ && at_ < high

/-- The greatest power of ten that is not above a positive number. -/
def leadingPower (x : Binary64) : Int :=
  let holds (e : Int) : Bool := x.gridUnit e ≤ x.gridValue e (4 * x.significand)
  (((List.range 640).map fun n : Nat => (310 : Int) - n).find? holds).getD (-330)

/-- The neighbour of `x` on the grid of `10 ^ scale` that reads back as `x`. -/
def onGrid? (x : Binary64) (scale : Int) : Option Decimal :=
  let value := x.gridValue scale (4 * x.significand)
  let unit := x.gridUnit scale
  let below : Decimal := ⟨value / unit, scale⟩
  let above : Decimal := ⟨value / unit + 1, scale⟩
  match x.readsBack below, x.readsBack above with
  | true, true =>
    let past := value % unit
    if 2 * past < unit then some below
    else if unit < 2 * past then some above
    else if below.digits % 2 = 0 then some below else some above
  | true, false => some below
  | false, true => some above
  | false, false => none

/-- The shortest decimal that reads back as a finite number, its sign aside. -/
def shortest (x : Binary64) : Decimal :=
  if x.isZero then ⟨0, 0⟩
  else ((List.range 17).findSome? fun n : Nat => x.onGrid? (x.leadingPower - n)).getD ⟨0, 0⟩

end Binary64

namespace Decimal

/-- The digits without the zeros at their end, and the power of ten of the first digit. -/
def normal (d : Decimal) : List Char × Int :=
  let ds := Nat.toDigits 10 d.digits
  let kept := (ds.reverse.dropWhile (· == '0')).reverse
  (if kept = [] then ['0'] else kept, if d.digits = 0 then 0 else ds.length - 1 + d.scale)

def positional (ds : List Char) (power : Int) : List Char :=
  if power < 0 then '0' :: '.' :: (List.replicate (-power - 1).toNat '0' ++ ds)
  else
    let whole := power.toNat + 1
    let padded := ds ++ List.replicate (whole - ds.length) '0'
    let rest := padded.drop whole
    padded.take whole ++ '.' :: (if rest = [] then ['0'] else rest)

def withExponent (ds : List Char) (power : Int) : List Char :=
  let digits := Nat.toDigits 10 power.natAbs
  let shown := List.replicate (2 - digits.length) '0' ++ digits
  ds.take 1 ++ (if ds.length = 1 then [] else '.' :: ds.drop 1)
    ++ 'e' :: (if power < 0 then '-' else '+') :: shown

def text (d : Decimal) : List Char :=
  let (ds, power) := d.normal
  if -4 ≤ power ∧ power < 16 then positional ds power else withExponent ds power

end Decimal

/-- The words for what is no finite number. -/
structure NumberWords where
  nan : String
  infinity : String

/-- The shortest text of a number. -/
def Binary64.text (words : NumberWords) (x : Binary64) : String :=
  let magnitude :=
    if x.isInfinite then words.infinity else String.ofList x.shortest.text
  if x.isNaN then words.nan else if x.isNegative then "-" ++ magnitude else magnitude

end ContextFree
