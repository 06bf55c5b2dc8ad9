import ContextFree.Grammar.Basic

/-!
Analyses that grow a finite set until a round adds nothing. The rounds allowed are a factor times the
size of the grammar; an analysis that is still growing when they are used up is unsettled.
-/
namespace ContextFree

/-- The rounds that an analysis may take, and the error that it ends with once they are taken. -/
structure Rounds where
  granted : Nat
  exceeded : GrammarError

/-- The set at which `round` stops adding, if one of the first `rounds` rounds finds it. -/
def saturate {α : Type} (round : List α → List α) : Nat → List α → Option (List α)
  | 0, _ => none
  | rounds + 1, known =>
    if (round known).length = known.length then some known
    else saturate round rounds (round known)

namespace Grammar

/-- The number of rounds that a factor allows: none if it is not positive. -/
def roundLimit (g : Grammar) (factor : Int) : Int :=
  factor * (g.nonterminals.length + g.terminals.length + g.productionCount + 1 : Nat)

def rounds (g : Grammar) (stage : String) (factor : Int) : Rounds :=
  ⟨(g.roundLimit factor).toNat, .unsettled stage (g.roundLimit factor)⟩

def settle {α : Type} (g : Grammar) (stage : String) (factor : Int) (round : List α → List α)
    (known : List α) : Except GrammarError (List α) :=
  let rounds := g.rounds stage factor
  match saturate round rounds.granted known with
  | some settled => .ok settled
  | none => .error rounds.exceeded

/-- Whether some body of `A` is made of symbols in `base` and known non-terminals. -/
def isSupported (g : Grammar) (base : Symbol → Bool) (known : List Symbol) (A : Symbol) : Bool :=
  (g.alternatives A).toList.any fun b => b.all fun s => base s || known.contains s

/-- One pass over the non-terminals, each seeing those that were added before it. -/
def supportRound (g : Grammar) (base : Symbol → Bool) (known : List Symbol) : List Symbol :=
  g.nonterminals.foldl
    (fun known A =>
      if known.contains A then known
      else if g.isSupported base known A then A :: known else known)
    known

/-- The non-terminals that derive a string of symbols in `base`. -/
def supported (g : Grammar) (stage : String) (base : Symbol → Bool) (factor : Int) :
    Except GrammarError (List Symbol) :=
  g.settle stage factor (g.supportRound base) []

/-- The non-terminals that derive the empty word. -/
def nullable (g : Grammar) (factor : Int) : Except GrammarError (List Symbol) :=
  g.supported "nullable" (fun _ => false) factor

/-- The non-terminals that derive some word. -/
def productive (g : Grammar) (factor : Int) : Except GrammarError (List Symbol) :=
  g.supported "productive" g.isTerminal factor

end Grammar

end ContextFree
