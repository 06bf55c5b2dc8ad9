import ContextFree.NameSupply
import ContextFree.Grammar.Create

/-!
The empty word put back. The start gets an empty body, unless it occurs in some body: then a fresh start
with the old start's bodies and the empty one takes its place.
-/
namespace ContextFree.Grammar

def startOccurs (g : Grammar) : Bool := g.bodySymbols.contains g.start

/-- The bodies of the start, and the empty one. -/
def startBodies (g : Grammar) : Alternatives := (g.alternatives g.start).insert []

def addStartEpsilon (g : Grammar) (supply : NameSupply) : Grammar × NameSupply :=
  if g.startOccurs then
    let (fresh, supply) := supply.allocate
    let rules := (Rules.empty.insert fresh g.startBodies).insertAll g.rules.entries
    (g.replace (some (fresh :: g.nonterminals)) (some rules) (some fresh), supply)
  else ({ g with rules := g.rules.insert g.start g.startBodies }, supply)

end ContextFree.Grammar
