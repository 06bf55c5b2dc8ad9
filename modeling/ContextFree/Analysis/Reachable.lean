import ContextFree.Grammar.Basic

/-!
The non-terminals that occur in what the start derives, found by following bodies outward from the
start. Each non-terminal is either waiting in the queue, seen, or unseen; following one takes it off the
queue, so their number bounds the search. The start counts as reachable even where it is no
non-terminal.
-/
namespace ContextFree.Grammar

/-- Whether `s` occurs in a body of `A`. -/
def occursUnder (g : Grammar) (A s : Symbol) : Bool := (g.alternatives A).toList.any (·.contains s)

/-- The queue, and all that is reached from it through unseen non-terminals. -/
def reachFrom (g : Grammar) (unseen : List Symbol) (queue : List Symbol) : List Symbol :=
  match queue with
  | [] => []
  | A :: rest =>
    A :: g.reachFrom (unseen.filter fun s => !g.occursUnder A s)
      (rest ++ unseen.filter (g.occursUnder A))
termination_by unseen.length + queue.length
decreasing_by
  have hsplit := unseen.length_eq_countP_add_countP (g.occursUnder A)
  simp only [List.countP_eq_length_filter, Bool.not_eq_true, Bool.decide_eq_false] at hsplit
  simp only [List.length_append, List.length_cons, List.unattach_filter, List.unattach_attach]
  omega

def reachable (g : Grammar) : List Symbol :=
  g.reachFrom ((distinct g.nonterminals).filter (· ≠ g.start)) [g.start]

end ContextFree.Grammar
