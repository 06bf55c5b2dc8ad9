import Mathlib.Data.Set.Basic
import Mathlib.Logic.Relation
import ContextFree.Derivation

/-!
Bodies read under an interpretation that gives each symbol a set of words. The language of a grammar is
the least interpretation that its productions respect (`Yields.interpret`), and everything that is said
about two grammars at once is said through it: `Yields.transfer` for grammars over the same symbols,
`Yields.substitute` where symbols of one stand for bodies of the other. `yields_iff_derives` ties the
language to rewriting a body step by step.
-/
namespace ContextFree

/-- `b` yields `w` when each symbol of it stands for a word that `P` gives it. -/
inductive Reads (P : Symbol → Word → Prop) : Body → Word → Prop
  | nil : Reads P [] []
  | cons {s : Symbol} {rest : Body} {u v : Word} (head : P s u) (tail : Reads P rest v) :
      Reads P (s :: rest) (u ++ v)

variable {P Q : Symbol → Word → Prop} {g h : Grammar} {A s : Symbol} {b c : Body} {w : Word}

@[simp] theorem reads_nil_iff : Reads P [] w ↔ w = [] := by
  constructor
  · intro hr; cases hr; rfl
  · rintro rfl; exact .nil

theorem reads_cons_iff :
    Reads P (s :: b) w ↔ ∃ u v, w = u ++ v ∧ P s u ∧ Reads P b v := by
  constructor
  · intro hr
    cases hr with
    | cons head tail => exact ⟨_, _, rfl, head, tail⟩
  · rintro ⟨u, v, rfl, head, tail⟩
    exact .cons head tail

theorem Reads.imp (hr : Reads P b w) (hPQ : ∀ s ∈ b, ∀ u, P s u → Q s u) : Reads Q b w := by
  induction hr with
  | nil => exact .nil
  | cons head _ ih =>
    have hrest := ih fun s hs => hPQ s (List.mem_cons_of_mem _ hs)
    exact .cons (hPQ _ List.mem_cons_self _ head) hrest

theorem Reads.forall_exists (hr : Reads P b w) : ∀ s ∈ b, ∃ u, P s u := by
  induction hr with
  | nil => simp
  | cons head _ ih =>
    intro s hs
    cases hs with
    | head => exact ⟨_, head⟩
    | tail _ hs => exact ih s hs

theorem generates_terminal (ha : s ∈ g.terminals) : g.Generates s [s] := .terminal ha .nil

theorem generates_of_body (hA : A ∈ g.nonterminals) (hb : b ∈ g.alternatives A)
    (hy : Yields g b w) : g.Generates A w := by
  have := Yields.production hA hb hy .nil
  rwa [List.append_nil] at this

theorem Grammar.Generates.cases (hy : g.Generates A w) :
    (A ∈ g.terminals ∧ w = [A]) ∨
      (A ∈ g.nonterminals ∧ ∃ b ∈ g.alternatives A, Yields g b w) := by
  cases hy with
  | terminal ha tail => cases tail; exact .inl ⟨ha, rfl⟩
  | production hA hb head tail =>
    cases tail
    rw [List.append_nil]
    exact .inr ⟨hA, _, hb, head⟩

/-- A non-terminal generates what its bodies yield. -/
theorem Grammar.Valid.generates_iff (hg : g.Valid) (hA : A ∈ g.nonterminals) :
    g.Generates A w ↔ ∃ b ∈ g.alternatives A, Yields g b w := by
  constructor
  · intro hy
    obtain ⟨ha, _⟩ | ⟨_, hb⟩ := hy.cases
    · exact absurd ha (hg.disjoint A hA)
    · exact hb
  · rintro ⟨b, hb, hy⟩
    exact generates_of_body hA hb hy

theorem yields_iff_reads : Yields g b w ↔ Reads g.Generates b w := by
  constructor
  · intro hy
    induction hy with
    | nil => exact .nil
    | terminal ha _ ih => exact .cons (generates_terminal ha) ih
    | production hA hb head _ _ ih => exact .cons (generates_of_body hA hb head) ih
  · intro hr
    induction hr with
    | nil => exact .nil
    | cons head _ ih => exact Yields.append head ih

/-- The language is below every interpretation that gives each terminal itself and each non-terminal
what its bodies read, so that a property of words is shown production by production. -/
theorem Yields.interpret (ht : ∀ a ∈ g.terminals, P a [a])
    (hp : ∀ A ∈ g.nonterminals, ∀ b ∈ g.alternatives A, ∀ w,
      Yields g b w → Reads P b w → P A w)
    (hy : Yields g b w) : Reads P b w := by
  induction hy with
  | nil => exact .nil
  | terminal ha _ ih => exact .cons (ht _ ha) ih
  | production hA hb head _ ih₁ ih₂ => exact .cons (hp _ hA _ hb _ head ih₁) ih₂

/-- Words carry over from `g` to `h` through symbols that are kept, if every production that is used
leads to kept symbols and `h` does what it does. -/
theorem Yields.transfer (keep : Symbol → Prop)
    (ht : ∀ a ∈ g.terminals, keep a → a ∈ h.terminals)
    (hp : ∀ A ∈ g.nonterminals, keep A → ∀ b ∈ g.alternatives A, ∀ w, Yields g b w →
      (∀ s ∈ b, keep s) ∧ (Yields h b w → h.Generates A w))
    (hy : Yields g b w) (hb : ∀ s ∈ b, keep s) : Yields h b w := by
  have hr : Reads (fun s w => keep s → h.Generates s w) b w := by
    apply hy.interpret
    · intro a ha hk
      exact generates_terminal (ht a ha hk)
    · intro A hA c hc w hy hr hk
      obtain ⟨hkeep, hgen⟩ := hp A hA hk c hc w hy
      have hc : Reads h.Generates c w := hr.imp fun s hs u hu => hu (hkeep s hs)
      exact hgen (yields_iff_reads.mpr hc)
  exact yields_iff_reads.mpr (hr.imp fun s hs u hu => hu (hb s hs))

theorem Yields.mono (ht : ∀ a ∈ g.terminals, a ∈ h.terminals)
    (hp : ∀ A ∈ g.nonterminals, ∀ b ∈ g.alternatives A, ∀ w, Yields h b w → h.Generates A w)
    (hy : Yields g b w) : Yields h b w := by
  apply hy.transfer fun _ => True
  · exact fun a ha _ => ht a ha
  · exact fun A hA _ c hc w _ => ⟨fun _ _ => trivial, hp A hA c hc w⟩
  · exact fun _ _ => trivial

/-- Words carry over from `g` to `h` when each symbol stands for a body of `h`. -/
theorem Yields.substitute (f : Symbol → Body) (ht : ∀ a ∈ g.terminals, Yields h (f a) [a])
    (hp : ∀ A ∈ g.nonterminals, ∀ b ∈ g.alternatives A, ∀ w,
      Yields h (b.flatMap f) w → Yields h (f A) w)
    (hy : Yields g b w) : Yields h (b.flatMap f) w := by
  have glue {c : Body} {w : Word} (hr : Reads (fun s => Yields h (f s)) c w) :
      Yields h (c.flatMap f) w := by
    induction hr with
    | nil => exact .nil
    | cons head _ ih => rw [List.flatMap_cons]; exact head.append ih
  exact glue (hy.interpret ht fun A hA c hc w _ hr => hp A hA c hc w (glue hr))

/-- The converse of substitution, for symbols that have the words of what they stand for. -/
theorem Yields.of_substitute {f : Symbol → Body}
    (hf : ∀ s ∈ b, ∀ u, Yields g (f s) u → g.Generates s u) (hy : Yields g (b.flatMap f) w) :
    Yields g b w := by
  induction b generalizing w with
  | nil => exact hy
  | cons s b ih =>
    obtain ⟨hs, hb⟩ := List.forall_mem_cons.mp hf
    rw [List.flatMap_cons] at hy
    obtain ⟨u, v, rfl, hu, hv⟩ := hy.split
    exact (hs u hu).append (ih hb hv)

/-! ## Rewriting -/

/-- One non-terminal replaced by one of its bodies. -/
inductive RewriteStep (g : Grammar) : Body → Body → Prop
  | mk (before after : Body) {A : Symbol} {b : Body} (hA : A ∈ g.nonterminals)
      (hb : b ∈ g.alternatives A) : RewriteStep g (before ++ A :: after) (before ++ b ++ after)

/-- Any number of rewriting steps. -/
abbrev Derives (g : Grammar) : Body → Body → Prop := Relation.ReflTransGen (RewriteStep g)

theorem Derives.frame (hd : Derives g b c) (before after : Body) :
    Derives g (before ++ b ++ after) (before ++ c ++ after) := by
  induction hd with
  | refl => exact .refl
  | tail _ step ih =>
    apply ih.tail
    cases step with
    | mk u v hA hb =>
      simpa only [List.append_assoc, List.cons_append] using
        RewriteStep.mk (before ++ u) (v ++ after) hA hb

theorem Yields.derives (hy : Yields g b w) : Derives g b w := by
  induction hy with
  | nil => exact .refl
  | @terminal a rest w _ _ ih =>
    simpa only [List.append_nil, List.singleton_append] using ih.frame [a] []
  | @production A b rest u v hA hb _ _ ih₁ ih₂ =>
    have first : Derives g (A :: rest) (b ++ rest) := .single (.mk [] rest hA hb)
    have second : Derives g (b ++ rest) (u ++ rest) := ih₁.frame [] rest
    have third : Derives g (u ++ rest) (u ++ v) := by
      simpa only [List.append_nil] using ih₂.frame u []
    exact (first.trans second).trans third

theorem yields_self (hw : ∀ s ∈ w, s ∈ g.terminals) : Yields g w w := by
  induction w with
  | nil => exact .nil
  | cons a w ih =>
    exact .terminal (hw a List.mem_cons_self) (ih fun s hs => hw s (List.mem_cons_of_mem _ hs))

theorem RewriteStep.yields (step : RewriteStep g b c) (hy : Yields g c w) : Yields g b w := by
  cases step with
  | mk before after hA hb =>
    obtain ⟨uv, w₃, rfl, hy, h₃⟩ := hy.split
    obtain ⟨w₁, w₂, rfl, h₁, h₂⟩ := hy.split
    rw [List.append_assoc]
    exact h₁.append (.production hA hb h₂ h₃)

/-- A body yields exactly the words of terminals into which it can be rewritten. -/
theorem yields_iff_derives :
    Yields g b w ↔ Derives g b w ∧ ∀ s ∈ w, s ∈ g.terminals := by
  constructor
  · exact fun hy => ⟨hy.derives, hy.terminal_of_mem⟩
  · rintro ⟨hd, hw⟩
    induction hd using Relation.ReflTransGen.head_induction_on with
    | refl => exact yields_self hw
    | head step _ ih => exact step.yields ih

/-- The words of terminals into which the start can be rewritten. -/
def Grammar.language (g : Grammar) : Set Word :=
  {w | Derives g [g.start] w ∧ ∀ s ∈ w, s ∈ g.terminals}

theorem Grammar.mem_language_iff : w ∈ g.language ↔ g.Accepts w := yields_iff_derives.symm

/-- The words of terminals into which one symbol can be rewritten. -/
def Grammar.languageOf (g : Grammar) (A : Symbol) : Set Word :=
  {w | Derives g [A] w ∧ ∀ s ∈ w, s ∈ g.terminals}

theorem Grammar.mem_languageOf_iff : w ∈ g.languageOf A ↔ g.Generates A w :=
  yields_iff_derives.symm

namespace Grammar

/-- `S → aSb | ε`, on which general statements are tried. -/
def nested : Grammar where
  nonterminals := ["S"]
  terminals := ["a", "b"]
  rules := .ofList [("S", .ofList [["a", "S", "b"], []])]
  start := "S"

theorem mem_alternatives_nested {A : Symbol} {b : Body} :
    b ∈ nested.alternatives A ↔ A = "S" ∧ (b = ["a", "S", "b"] ∨ b = []) := by
  refine (Rules.mem_alternatives_ofList (by decide)).trans ?_
  simp [and_assoc]

theorem nested_validate : nested.validate = .ok () := by
  apply validate_eq_ok_iff.mpr
  refine ⟨by decide, by decide, by decide, fun A b hb => ?_⟩
  obtain ⟨-, rfl | rfl⟩ := mem_alternatives_nested.mp hb <;> decide

end Grammar

end ContextFree
