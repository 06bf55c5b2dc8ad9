import ContextFree.NameSupply
import ContextFree.Grammar.Create

/-!
Bodies brought to two symbols. A longer body is shortened from the left: its first two symbols become a
helper, until two symbols are left. Then each terminal in a body of two symbols becomes a helper. A
helper has a single body, and one body has one helper, however often it is met.
-/
namespace ContextFree

/-- A grammar on the way: the names handed out, the non-terminals and rules so far, and the helpers in
the order in which they were made. -/
structure Reshaping where
  supply : NameSupply
  nonterminals : List Symbol
  rules : Rules
  helpers : List (Body × Symbol)

namespace Reshaping

/-- The helper of `body`, made with a fresh name if there is none yet. -/
def helper (r : Reshaping) (body : Body) : Symbol × Reshaping :=
  match r.helpers.lookup body with
  | some name => (name, r)
  | none =>
    let (name, supply) := r.supply.allocate
    (name, {
      supply := supply
      nonterminals := r.nonterminals ++ [name]
      rules := r.rules.insert name (.ofList [body])
      helpers := r.helpers ++ [(body, name)] })

def binarize (body : Body) (r : Reshaping) : Body × Reshaping :=
  match body with
  | a :: b :: c :: rest =>
    let (name, r) := r.helper [a, b]
    binarize (name :: c :: rest) r
  | short => (short, r)
termination_by body.length

/-- One production taken in, its body shortened. -/
def addProduction (r : Reshaping) (A : Symbol) (body : Body) : Reshaping :=
  let (short, r) := binarize body r
  { r with rules := r.rules.insert A ((r.rules.alternatives A).insert short) }

def liftSymbol (isTerminal : Symbol → Bool) (r : Reshaping) (s : Symbol) : Symbol × Reshaping :=
  if isTerminal s then r.helper [s] else (s, r)

def liftBody (isTerminal : Symbol → Bool) (r : Reshaping) : Body → Body × Reshaping
  | [a, b] =>
    let (a, r) := r.liftSymbol isTerminal a
    let (b, r) := r.liftSymbol isTerminal b
    ([a, b], r)
  | body => (body, r)

def liftBodies (isTerminal : Symbol → Bool) (r : Reshaping) : List Body → List Body × Reshaping
  | [] => ([], r)
  | body :: rest =>
    let (lifted, r) := r.liftBody isTerminal body
    let (others, r) := r.liftBodies isTerminal rest
    (lifted :: others, r)

/-- The terminals lifted out of the bodies of `A`. -/
def liftAlternatives (isTerminal : Symbol → Bool) (r : Reshaping) (A : Symbol) : Reshaping :=
  match r.rules.get? A with
  | none => r
  | some alts =>
    let (bodies, r) := r.liftBodies isTerminal alts.sorted
    { r with rules := r.rules.insert A (.ofList bodies) }

end Reshaping

namespace Grammar

/-- A grammar whose left sides have lost their bodies. -/
def beginReshaping (g : Grammar) (supply : NameSupply) : Reshaping where
  supply := supply
  nonterminals := g.nonterminals
  rules := g.rules.mapAlternatives fun _ => .empty
  helpers := []

def reshaping (g : Grammar) (supply : NameSupply) : Reshaping :=
  let binary := g.productions.foldl (fun r p => r.addProduction p.1 p.2) (g.beginReshaping supply)
  binary.nonterminals.foldl (fun r A => r.liftAlternatives g.isTerminal A) binary

/-- A grammar with the non-terminals and rules of a finished reshaping. -/
def reshapedBy (g : Grammar) (r : Reshaping) : Grammar :=
  g.replace (some r.nonterminals) (some r.rules) none

/-- The reshaped grammar, and the supply that named its helpers. -/
def reshape (g : Grammar) (supply : NameSupply) : Grammar × NameSupply :=
  let r := g.reshaping supply
  (g.reshapedBy r, r.supply)

end Grammar

end ContextFree
