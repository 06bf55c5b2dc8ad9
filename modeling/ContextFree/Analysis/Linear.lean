import ContextFree.Grammar.Basic

/-!
Linear grammars. Where every body has at most one non-terminal, and always at its end or always at its
beginning, the language is regular.
-/
namespace ContextFree

/-- The place of a grammar in the Chomsky hierarchy. -/
inductive GrammarType where
  | contextFree
  | regular
  deriving DecidableEq

def GrammarType.number : GrammarType → Nat
  | .contextFree => 2
  | .regular => 3

def GrammarType.label : GrammarType → String
  | .contextFree => "Type-2 (Context-Free Grammar)"
  | .regular => "Type-3 (Regular Grammar)"

namespace Grammar

/-- No non-terminal before the last symbol of a body. -/
def isRightLinear (g : Grammar) : Bool :=
  g.productions.all fun p => p.2.dropLast.all fun s => !g.isNonterminal s

/-- No non-terminal after the first symbol of a body. -/
def isLeftLinear (g : Grammar) : Bool :=
  g.productions.all fun p => p.2.tail.all fun s => !g.isNonterminal s

def type (g : Grammar) : GrammarType :=
  if g.isRightLinear || g.isLeftLinear then .regular else .contextFree

end Grammar

end ContextFree
