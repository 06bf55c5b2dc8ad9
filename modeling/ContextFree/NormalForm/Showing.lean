import ContextFree.NormalForm.Conversion

/-!
The conversion as it goes: one stage after the other, each step shown as soon as it has been made. How it
ends comes with all that was shown until then.
-/
namespace ContextFree

/-- A computation that may fail, and the grammars that it shows on the way, each under its title. -/
abbrev Showing := ExceptT GrammarError (StateM (List (String × Grammar)))

namespace Showing

/-- How a computation ends when `shown` has been shown before, and what has been shown after it. -/
def runFrom {α : Type} (p : Showing α) (shown : List (String × Grammar)) :
    Except GrammarError α × List (String × Grammar) := p.run.run shown

/-- How a computation ends, and what it has shown. -/
def outcome {α : Type} (p : Showing α) : Except GrammarError α × List (String × Grammar) :=
  p.runFrom []

/-- The grammar that a step ends in. -/
def step (s : ShownStep) (g : Grammar) : Showing Grammar := do
  modify (· ++ [(s.title, g)])
  return g

end Showing

namespace Grammar

open Showing

def convertShowing (g : Grammar) (policy : Policy) : Showing Grammar := do
  g.validate
  if g.isNormalForm policy.keepStartEpsilon then return g
  let nulls ← g.nullable policy.factor
  let g₁ ← step (.epsilonFree nulls) (← g.removeEpsilon (some nulls) policy.factor)
  let g₂ ← step .unitFree (← g₁.removeUnits policy.factor)
  let g₃ ← step .reached g₂.removeUnreachable
  let g₄ ← step .fruitful (← g₃.removeUnproductive policy.factor)
  let (shaped, supply) := g₄.reshape (.forGrammar g)
  let g₅ ← step .shaped shaped
  let pruned := (← g₅.removeUnreachable.removeUnproductive policy.factor).removeUnreachable
  let out :=
    if nulls.contains g.start && policy.keepStartEpsilon then (pruned.addStartEpsilon supply).1
    else pruned
  if out.isNormalForm policy.keepStartEpsilon then return out
  throw .notInNormalForm

end Grammar

end ContextFree
