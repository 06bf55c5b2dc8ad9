import ContextFree.Grammar.Basic

/-!
What a grammar generates. `Yields g b w` says that the body `b` derives the word `w`: each terminal of
the body stands for itself and each non-terminal for a word of one of its bodies. The language of a
non-terminal and of the grammar are defined by it.
-/
namespace ContextFree

inductive Yields (g : Grammar) : Body → Word → Prop
  | nil : Yields g [] []
  | terminal {a : Symbol} {rest : Body} {w : Word} (ha : a ∈ g.terminals)
      (tail : Yields g rest w) : Yields g (a :: rest) (a :: w)
  | production {A : Symbol} {b rest : Body} {u v : Word} (hA : A ∈ g.nonterminals)
      (hb : b ∈ g.alternatives A) (head : Yields g b u) (tail : Yields g rest v) :
      Yields g (A :: rest) (u ++ v)

/-- The words of one non-terminal. -/
def Grammar.Generates (g : Grammar) (A : Symbol) (w : Word) : Prop := Yields g [A] w

/-- The words of a grammar. -/
def Grammar.Accepts (g : Grammar) (w : Word) : Prop := g.Generates g.start w

theorem Yields.terminal_of_mem {g : Grammar} {b : Body} {w : Word} (h : Yields g b w) :
    ∀ s ∈ w, s ∈ g.terminals := by
  induction h with
  | nil => simp
  | terminal ha _ ih => simpa using ⟨ha, ih⟩
  | production _ _ _ _ ih₁ ih₂ =>
    intro s hs
    exact (List.mem_append.mp hs).elim (ih₁ s) (ih₂ s)

theorem Yields.append {g : Grammar} {b c : Body} {u v : Word} (hb : Yields g b u)
    (hc : Yields g c v) : Yields g (b ++ c) (u ++ v) := by
  induction hb with
  | nil => exact hc
  | terminal ha _ ih => exact .terminal ha ih
  | production hA hb head _ _ ih =>
    rw [List.append_assoc, List.cons_append]
    exact .production hA hb head ih

theorem Yields.split {g : Grammar} {b c : Body} {w : Word} (h : Yields g (b ++ c) w) :
    ∃ u v, w = u ++ v ∧ Yields g b u ∧ Yields g c v := by
  induction b generalizing w with
  | nil => exact ⟨[], w, rfl, .nil, h⟩
  | cons s b ih =>
    cases h with
    | terminal ha tail =>
      obtain ⟨u, v, rfl, hu, hv⟩ := ih tail
      exact ⟨_ :: u, v, rfl, .terminal ha hu, hv⟩
    | production hA hb head tail =>
      obtain ⟨u, v, rfl, hu, hv⟩ := ih tail
      exact ⟨_ ++ u, v, (List.append_assoc ..).symm, .production hA hb head hu, hv⟩

end ContextFree
