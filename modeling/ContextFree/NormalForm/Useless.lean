import ContextFree.Analysis.Reachable
import ContextFree.Analysis.Saturation
import ContextFree.Grammar.Create

/-!
Grammars without the symbols that no word needs: those that the start does not reach, and those that
derive no word. The start always stays, if need be without a body.
-/
namespace ContextFree.Grammar

/-- The declared non-terminals that `keep` refuses. -/
def dropped (g : Grammar) (keep : Symbol → Bool) : List Symbol :=
  g.nonterminals.filter fun A => !keep A

def keepNonterminals (g : Grammar) (keep : Symbol → Bool) (rules : Rules) : Grammar :=
  g.replace (some (g.nonterminals.filter keep)) (some rules) none

def removeUnreachable (g : Grammar) : Grammar :=
  let reached := g.reachable
  g.keepNonterminals reached.contains (g.rules.restrict reached.contains)

/-- Whether a body is made of terminals and symbols of `productive`. -/
def isProductiveBody (g : Grammar) (productive : List Symbol) (body : Body) : Bool :=
  body.all fun s => g.isTerminal s || productive.contains s

/-- What stays when the unproductive symbols go. -/
def staysProductive (g : Grammar) (productive : List Symbol) (A : Symbol) : Bool :=
  productive.contains A || A == g.start

def withoutUnproductive (g : Grammar) (productive : List Symbol) : Grammar :=
  let keep := g.staysProductive productive
  g.keepNonterminals keep
    ((g.rules.restrict keep).mapAlternatives (·.filter (g.isProductiveBody productive)))

def removeUnproductive (g : Grammar) (factor : Int) : Except GrammarError Grammar := do
  return g.withoutUnproductive (← g.productive factor)

end ContextFree.Grammar
