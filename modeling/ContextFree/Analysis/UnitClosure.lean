import ContextFree.Analysis.Saturation

/-!
Which non-terminals reach which by unit productions alone. The closure is a set of pairs that holds each
declared non-terminal with itself.
-/
namespace ContextFree

abbrev UnitPairs := List (Symbol × Symbol)

/-- What `A` reaches. -/
def UnitPairs.reachedFrom (pairs : UnitPairs) (A : Symbol) : List Symbol :=
  (pairs.filter (·.1 = A)).map (·.2)

namespace Grammar

/-- The non-terminals that are bodies of `B`. -/
def unitTargets (g : Grammar) (B : Symbol) : List Symbol :=
  ((g.alternatives B).toList.filter g.isUnit).flatten

def addUnitPairs (A : Symbol) (pairs : UnitPairs) (targets : List Symbol) : UnitPairs :=
  targets.foldl (fun pairs B => if pairs.contains (A, B) then pairs else (A, B) :: pairs) pairs

/-- Every non-terminal takes in the unit bodies of what it has reached so far. -/
def unitRound (g : Grammar) (pairs : UnitPairs) : UnitPairs :=
  g.nonterminals.foldl
    (fun pairs A => addUnitPairs A pairs ((pairs.reachedFrom A).flatMap g.unitTargets)) pairs

def unitClosure (g : Grammar) (factor : Int) : Except GrammarError UnitPairs :=
  g.settle "unit closure" factor g.unitRound ((distinct g.nonterminals).map fun A => (A, A))

end Grammar

/-- A chain of unit productions. -/
inductive UnitChain (g : Grammar) : Symbol → Symbol → Prop
  | refl (A : Symbol) : UnitChain g A A
  | step {A B C : Symbol} (chain : UnitChain g A B) (hC : C ∈ g.nonterminals)
      (hb : [C] ∈ g.alternatives B) : UnitChain g A C

end ContextFree
