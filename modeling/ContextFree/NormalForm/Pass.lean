import ContextFree.NormalForm.Epsilon
import ContextFree.NormalForm.Unit
import ContextFree.NormalForm.Useless
import ContextFree.NormalForm.Reshape
import ContextFree.NormalForm.StartEpsilon

/-!
The stages of a conversion as passes that can be made in any order. All passes share one supply of names,
and names may be registered in between.
-/
namespace ContextFree

inductive Pass where
  | removeEpsilon (factor : Int)
  | removeUnits (factor : Int)
  | removeUnreachable
  | removeUnproductive (factor : Int)
  | reshape
  | addStartEpsilon
  | register (name : Symbol)

/-- A grammar, and the supply that names its new non-terminals. -/
structure PassState where
  grammar : Grammar
  supply : NameSupply

namespace Pass

def apply : Pass → PassState → Except GrammarError PassState
  | removeEpsilon factor, s => do
    return { s with grammar := ← s.grammar.removeEpsilon none factor }
  | removeUnits factor, s => do
    return { s with grammar := ← s.grammar.removeUnits factor }
  | removeUnreachable, s => return { s with grammar := s.grammar.removeUnreachable }
  | removeUnproductive factor, s => do
    return { s with grammar := ← s.grammar.removeUnproductive factor }
  | reshape, s =>
    let (grammar, supply) := s.grammar.reshape s.supply
    return ⟨grammar, supply⟩
  | addStartEpsilon, s =>
    let (grammar, supply) := s.grammar.addStartEpsilon s.supply
    return ⟨grammar, supply⟩
  | register name, s => return { s with supply := s.supply.register name }

/-- The states that a sequence of passes goes through, the first and the last one included. -/
def run : List Pass → PassState → Except GrammarError (List PassState)
  | [], s => return [s]
  | p :: rest, s => do return s :: (← run rest (← p.apply s))

/-- Whether a pass is allowed at least one round. -/
def HasRounds : Pass → Prop
  | removeEpsilon factor | removeUnits factor | removeUnproductive factor => 1 ≤ factor
  | removeUnreachable | reshape | addStartEpsilon | register _ => True

end Pass

end ContextFree
