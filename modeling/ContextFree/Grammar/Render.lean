import ContextFree.Grammar.Basic

/-!
Grammars as text, one line per left side. Symbols stand side by side when each declared symbol is a single
character, and are separated by spaces otherwise.
-/
namespace ContextFree.Grammar

def epsilon : String := "ε"

def separator (g : Grammar) : String :=
  if (g.nonterminals ++ g.terminals).all (·.length == 1) then "" else " "

def renderBody (g : Grammar) (body : Body) : String :=
  if body = [] then epsilon else g.separator.intercalate body

/-- The bodies of one left side between bars, ε last; a left side without body has the empty set. -/
def renderAlternatives (g : Grammar) (alts : Alternatives) : String :=
  let shown := alts.sorted.filter (· ≠ []) ++ alts.sorted.filter (· = [])
  if shown = [] then "∅" else " | ".intercalate (shown.map g.renderBody)

/-- The declared left sides in the order of declaration. -/
def render (g : Grammar) : String :=
  "\n".intercalate (g.nonterminals.filterMap fun A =>
    (g.rules.get? A).map fun alts => A ++ " → " ++ g.renderAlternatives alts)

end ContextFree.Grammar
