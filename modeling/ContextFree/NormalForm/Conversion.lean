import ContextFree.NormalForm.Basic
import ContextFree.NormalForm.Epsilon
import ContextFree.NormalForm.Unit
import ContextFree.NormalForm.Useless
import ContextFree.NormalForm.Reshape
import ContextFree.NormalForm.StartEpsilon
import ContextFree.Text.Quoted

/-!
The conversion to normal form. A grammar that is in normal form already is left as it is. Any other one
loses its empty bodies, its unit bodies, its unreachable and its unproductive symbols, is reshaped, and is
pruned once more, since a body that goes with an unproductive symbol may have been the only one to reach
another symbol. The empty word is put back at the end if it was there and is wanted.
-/
namespace ContextFree

structure Policy where
  keepStartEpsilon : Bool
  /-- How many rounds an analysis may take, as a multiple of the size of the grammar. -/
  factor : Int
  deriving DecidableEq

/-- A grammar pruned of what is unreachable, of what is unproductive, and again of what is unreachable. -/
structure Pruned where
  reached : Grammar
  productive : List Symbol
  fruitful : Grammar
  result : Grammar

def Grammar.prune (g : Grammar) (factor : Int) : Except GrammarError Pruned := do
  let reached := g.removeUnreachable
  let productive ← reached.productive factor
  let fruitful := reached.withoutUnproductive productive
  return ⟨reached, productive, fruitful, fruitful.removeUnreachable⟩

/-- What is computed on the way, in the order of computation. -/
structure Stages where
  source : Grammar
  nullable : List Symbol
  epsilonFree : Grammar
  unitPairs : UnitPairs
  unitFree : Grammar
  reached : Grammar
  productive : List Symbol
  fruitful : Grammar
  reshaping : Reshaping
  shaped : Grammar
  pruned : Pruned

def Grammar.stages (g : Grammar) (factor : Int) : Except GrammarError Stages := do
  let nullable ← g.nullable factor
  let epsilonFree := g.withoutEpsilon nullable
  let unitPairs ← epsilonFree.unitClosure factor
  let unitFree := epsilonFree.withoutUnits unitPairs
  let reached := unitFree.removeUnreachable
  let productive ← reached.productive factor
  let fruitful := reached.withoutUnproductive productive
  let reshaping := fruitful.reshaping (.forGrammar g)
  let shaped := fruitful.reshapedBy reshaping
  return {
    source := g
    nullable := nullable
    epsilonFree := epsilonFree
    unitPairs := unitPairs
    unitFree := unitFree
    reached := reached
    productive := productive
    fruitful := fruitful
    reshaping := reshaping
    shaped := shaped
    pruned := ← shaped.prune factor }

namespace Stages

/-- Whether the empty word was in the language. -/
def startIsNullable (s : Stages) : Bool := s.nullable.contains s.source.start

/-- The grammar with the empty word put back if it was there and `keep` asks for it. -/
def finish (s : Stages) (keep : Bool) : Grammar :=
  if s.startIsNullable && keep then (s.pruned.result.addStartEpsilon s.reshaping.supply).1
  else s.pruned.result

end Stages

/-- The steps that are shown. -/
inductive ShownStep where
  | epsilonFree (nullable : List Symbol)
  | unitFree
  | reached
  | fruitful
  | shaped

def ShownStep.title : ShownStep → String
  | epsilonFree nullable =>
    let names := ", ".intercalate (sortedSymbols nullable)
    "Step 1: ε-productions removed (nullable: " ++ (if names = "" then "∅" else names) ++ ")"
  | unitFree => "Step 2: unit productions removed"
  | reached => "Step 3: unreachable symbols removed"
  | fruitful => "Step 4: unproductive symbols removed"
  | shaped => "Step 5: binarized, terminals lifted"

/-- How a grammar came to normal form. -/
inductive Conversion where
  | unchanged (g : Grammar)
  | staged (stages : Stages) (result : Grammar)

namespace Conversion

def result : Conversion → Grammar
  | unchanged g => g
  | staged _ result => result

/-- The five steps that are shown, each with the grammar it ends in. -/
def steps : Conversion → List (String × Grammar)
  | unchanged _ => []
  | staged s _ =>
    [((ShownStep.epsilonFree s.nullable).title, s.epsilonFree),
      (ShownStep.unitFree.title, s.unitFree),
      (ShownStep.reached.title, s.reached),
      (ShownStep.fruitful.title, s.fruitful),
      (ShownStep.shaped.title, s.shaped)]

end Conversion

namespace Grammar

def convert (g : Grammar) (policy : Policy) : Except GrammarError Conversion := do
  g.validate
  if g.isNormalForm policy.keepStartEpsilon then return .unchanged g
  let stages ← g.stages policy.factor
  let result := stages.finish policy.keepStartEpsilon
  if result.isNormalForm policy.keepStartEpsilon then return .staged stages result
  throw .notInNormalForm

def toNormalForm (g : Grammar) (policy : Policy) : Except GrammarError Grammar := do
  return (← g.convert policy).result

end Grammar

end ContextFree
