import ContextFree.Grammar.Basic

/-!
Fresh names for non-terminals. Readable letters are handed out first; once they are used up the names are
a stem followed by 0, 1, 2 and so on. A name that is registered when its turn comes is passed over for
good, so a supply never hands out a registered name, nor the same name twice.
-/
namespace ContextFree

structure NameSupply where
  /-- Every name that may not be handed out, in the order of registration. -/
  registered : List Symbol
  /-- The letters whose turn has not come yet. -/
  letters : List Symbol
  stem : String
  /-- The index whose turn comes next. -/
  index : Nat
  allocated : List Symbol
  deriving DecidableEq

namespace NameSupply

/-- Capital letters, and the Greek letters except the one that denotes the empty body. -/
def alphabet : List Symbol :=
  ("ABCDEFGHIJKLMNOPQRSTUVWXYZ" ++ "αβγδζηθικλμνξπρστυφχψω").toList.map String.singleton

def defaultStem : String := "N"

def create (registered letters : List Symbol) (stem : String) : NameSupply where
  registered := distinct registered
  letters := letters
  stem := stem
  index := 0
  allocated := []

def forGrammarWith (g : Grammar) (letters : List Symbol) (stem : String) : NameSupply :=
  create (g.nonterminals ++ g.terminals) letters stem

def forGrammar (g : Grammar) : NameSupply := forGrammarWith g alphabet defaultStem

def indexed (stem : String) (n : Nat) : Symbol := stem ++ toString n

/-- The least index from `n` on whose name is not in `taken`. A taken name is struck off when it has been
passed over, as no later index has it. -/
def freeIndex (stem : String) (taken : List Symbol) (n : Nat) : Nat :=
  if h : indexed stem n ∈ taken then freeIndex stem (taken.erase (indexed stem n)) (n + 1) else n
termination_by taken.length
decreasing_by
  have := List.length_erase_of_mem h
  have := List.length_pos_of_mem h
  omega

def isRegistered (supply : NameSupply) (name : Symbol) : Bool := supply.registered.contains name

/-- The supply with `name` registered. -/
def register (supply : NameSupply) (name : Symbol) : NameSupply :=
  if supply.isRegistered name then supply
  else { supply with registered := supply.registered ++ [name] }

/-- The next name, and the supply after it has been handed out. -/
def allocate (supply : NameSupply) : Symbol × NameSupply :=
  match supply.letters.dropWhile supply.isRegistered with
  | name :: later =>
    (name, { supply with
      registered := supply.registered ++ [name]
      letters := later
      allocated := supply.allocated ++ [name] })
  | [] =>
    let free := freeIndex supply.stem supply.registered supply.index
    let name := indexed supply.stem free
    (name, { supply with
      registered := supply.registered ++ [name]
      letters := []
      index := free + 1
      allocated := supply.allocated ++ [name] })

/-- The next `n` names, in order. -/
def allocateMany : Nat → NameSupply → List Symbol × NameSupply
  | 0, supply => ([], supply)
  | n + 1, supply =>
    let (name, supply) := supply.allocate
    let (names, supply) := allocateMany n supply
    (name :: names, supply)

end NameSupply

end ContextFree
