import ContextFree.Analysis.Saturation

/-!
Rules without empty bodies. Each body is replaced by its variants: every occurrence of a nullable symbol
is kept or left out, and the empty variant is dropped.
-/
namespace ContextFree

/-- A body with any occurrences of `nulls` left out. -/
def variants (nulls : List Symbol) : Body → List Body
  | [] => [[]]
  | s :: rest =>
    let shorter := variants nulls rest
    shorter.map (s :: ·) ++ (if nulls.contains s then shorter else [])

/-- The variants that are not empty. -/
def visibleVariants (nulls : List Symbol) (body : Body) : Alternatives :=
  .ofList ((variants nulls body).filter (· ≠ []))

/-- `short` is `body` with some occurrences of `nulls` left out, each on its own. -/
inductive Omits (nulls : List Symbol) : Body → Body → Prop
  | nil : Omits nulls [] []
  | keep {s : Symbol} {body short : Body} (h : Omits nulls body short) :
      Omits nulls (s :: body) (s :: short)
  | drop {s : Symbol} {body short : Body} (hs : s ∈ nulls) (h : Omits nulls body short) :
      Omits nulls (s :: body) short

namespace Grammar

def withoutEpsilonBodies (nulls : List Symbol) (alts : Alternatives) : Alternatives :=
  .ofList (alts.toList.flatMap fun b => (visibleVariants nulls b).toList)

/-- The declared left sides with the variants of their bodies. -/
def withoutEpsilon (g : Grammar) (nulls : List Symbol) : Grammar :=
  { g with rules :=
      .tabulate (g.nonterminals.filter (g.rules.keys.contains ·)) fun A =>
        withoutEpsilonBodies nulls (g.alternatives A) }

/-- With no set of nullable symbols given, the non-terminals that derive the empty word. -/
def removeEpsilon (g : Grammar) (nulls : Option (List Symbol)) (factor : Int) :
    Except GrammarError Grammar := do
  match nulls with
  | some nulls => return g.withoutEpsilon nulls
  | none => return g.withoutEpsilon (← g.nullable factor)

end Grammar

end ContextFree
