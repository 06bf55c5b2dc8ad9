import ContextFree.Analysis.UnitClosure

/-!
Rules without bodies that are a single non-terminal. A left side takes over the other bodies of all that
it reaches by unit productions.
-/
namespace ContextFree.Grammar

/-- The bodies that are not a single non-terminal, of all that `A` reaches. -/
def properBodies (g : Grammar) (pairs : UnitPairs) (A : Symbol) : Alternatives :=
  .ofList ((pairs.reachedFrom A).flatMap fun B =>
    ((g.alternatives B).filter fun b => !g.isUnit b).toList)

def withoutUnits (g : Grammar) (pairs : UnitPairs) : Grammar :=
  { g with rules :=
      .tabulate (g.nonterminals.filter (g.rules.keys.contains ·)) (g.properBodies pairs) }

def removeUnits (g : Grammar) (factor : Int) : Except GrammarError Grammar := do
  return g.withoutUnits (← g.unitClosure factor)

end ContextFree.Grammar
