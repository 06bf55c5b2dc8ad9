import ContextFree.Grammar.Basic

/-!
Chomsky normal form: every body is one terminal or two non-terminals. The empty body of the start is
allowed on request, as long as the start occurs in no body.
-/
namespace ContextFree.Grammar

def isNormalBody (g : Grammar) : Body → Bool
  | [a] => g.isTerminal a
  | [B, C] => g.isNonterminal B && g.isNonterminal C
  | _ => false

def isNormalForm (g : Grammar) (startEpsilon : Bool) : Bool :=
  g.productions.all fun (A, body) =>
    g.isNormalBody body ||
      (body == [] && startEpsilon && A == g.start && !g.bodySymbols.contains g.start)

end ContextFree.Grammar
