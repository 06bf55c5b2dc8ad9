import ContextFree.Grammar.Basic
import ContextFree.Symbol.Split
import ContextFree.Text.Blank

/-!
Grammars from declared symbols and rules. A body is given as symbols or as text. Text with a blank inside
is split at blanks; other text is split into declared symbols. An alternative that consists of a spelling
of ε is the empty body.
-/
namespace ContextFree

open Text

/-- A body as it is written by hand. -/
inductive GivenBody where
  | text (written : String)
  | symbols (body : Body)
  deriving DecidableEq

def emptySpellings : List String := ["ε", "ϵ", "eps", "epsilon"]

/-- The preferred split of a text, refused where there is none. -/
def splitBody (symbols : List Symbol) (anyCharacter : Bool) (text : String) :
    Except GrammarError Body :=
  match split? symbols anyCharacter text.toList with
  | some body => .ok body
  | none => .error (.malformed (.unsplittable text))

def GivenBody.toBody (declared : List Symbol) : GivenBody → Except GrammarError Body
  | .text written =>
    let stripped := strip written.toList
    if stripped = [] ∨ String.ofList stripped ∈ emptySpellings then .ok []
    else if stripped.any isBlank then .ok ((words stripped).map String.ofList)
    else splitBody declared false (String.ofList stripped)
  | .symbols [s] => .ok (if s ∈ emptySpellings then [] else [s])
  | .symbols body => .ok body

/-- What is wrong with a left side that is not a declared non-terminal. -/
def leftSideError (nonterminals terminals : List Symbol) (lhs : Symbol) : GrammarError :=
  if lhs ∈ terminals then .leftSide (.terminal lhs)
  else match (words lhs.toList).length, split? (nonterminals ++ terminals) false lhs.toList with
    | 0, _ => .malformed (.undeclaredLeftSide lhs)
    | 1, some (_ :: _ :: _) => .leftSide (.severalSymbols lhs)
    | 1, _ => .malformed (.undeclaredLeftSide lhs)
    | _, _ => .leftSide (.severalSymbols lhs)

/-- The rules with the alternatives of `lhs` added. -/
def addAlternatives (nonterminals terminals : List Symbol) (rules : Rules)
    (lhs : Symbol) (given : List GivenBody) : Except GrammarError Rules := do
  if lhs ∉ nonterminals then throw (leftSideError nonterminals terminals lhs)
  let bodies ← given.mapM (·.toBody (nonterminals ++ terminals))
  return rules.insert lhs ((rules.alternatives lhs).union (.ofList bodies))

/-- The grammar with these symbols and rules, if it has no fault. A left side may be given more than once;
its alternatives are put together. -/
def Grammar.create (nonterminals terminals : List Symbol) (given : List (Symbol × List GivenBody))
    (start : Symbol) : Except GrammarError Grammar := do
  let nts := distinct nonterminals
  let ts := distinct terminals
  let rules ← given.foldlM (fun r e => addAlternatives nts ts r e.1 e.2) Rules.empty
  let g : Grammar := ⟨nts, ts, rules, start⟩
  g.validate
  return g

/-- The grammar with some of its parts replaced, nothing checked. -/
def Grammar.replace (g : Grammar) (nonterminals : Option (List Symbol)) (rules : Option Rules)
    (start : Option Symbol) : Grammar where
  nonterminals := (nonterminals.map distinct).getD g.nonterminals
  terminals := g.terminals
  rules := rules.getD g.rules
  start := start.getD g.start

end ContextFree
