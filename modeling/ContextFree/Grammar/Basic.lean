import ContextFree.Grammar.Rules
import ContextFree.Grammar.Error

/-!
Context-free grammars. A grammar may be built with symbols that are declared twice, or not at all;
`fault?` names the first thing that is wrong with it, and a grammar without fault is `Valid`.
-/
namespace ContextFree

structure Grammar where
  nonterminals : List Symbol
  terminals : List Symbol
  rules : Rules
  start : Symbol
  deriving DecidableEq

namespace Grammar

def isTerminal (g : Grammar) (s : Symbol) : Bool := g.terminals.contains s

def isNonterminal (g : Grammar) (s : Symbol) : Bool := g.nonterminals.contains s

def alternatives (g : Grammar) (A : Symbol) : Alternatives := g.rules.alternatives A

/-- Every production, non-terminals in the order of declaration and bodies in increasing order. -/
def productions (g : Grammar) : List (Symbol × Body) :=
  g.nonterminals.flatMap fun A => (g.alternatives A).sorted.map (A, ·)

def productionCount (g : Grammar) : Nat := g.rules.count

/-- The symbols that occur in some body, under declared left sides or others. -/
def bodySymbols (g : Grammar) : List Symbol :=
  distinct (g.rules.entries.flatMap fun e => e.2.toList.flatten)

/-- Whether two grammars have the same symbols in the same order, the same start and the same rules. -/
def sameAs (g h : Grammar) : Bool :=
  g.nonterminals == h.nonterminals && g.terminals == h.terminals && g.start == h.start
    && g.rules.sameAs h.rules

/-- A body that is a single non-terminal. -/
def isUnit (g : Grammar) : Body → Bool
  | [s] => g.isNonterminal s
  | _ => false

def sharedSymbols (g : Grammar) : List Symbol :=
  sortedSymbols (distinct (g.nonterminals.filter g.isTerminal))

def undeclaredIn? (g : Grammar) (body : Body) : Option Symbol :=
  body.find? fun s => !g.isNonterminal s && !g.isTerminal s

/-- What is wrong with one left side and its bodies. A set of bodies has no first one: which of several
faulty bodies is named is a choice, made here for the least. -/
def ruleFault? (g : Grammar) (lhs : Symbol) (alts : Alternatives) : Option Malformed :=
  if g.isNonterminal lhs then
    alts.sorted.findSome? fun b => (g.undeclaredIn? b).map (.undeclaredSymbol lhs b)
  else some (.undeclaredLeftSide lhs)

/-- The first fault: symbols on both sides, then the start, then the rules in their order. -/
def fault? (g : Grammar) : Option Malformed :=
  if g.sharedSymbols ≠ [] then some (.sharedSymbols g.sharedSymbols)
  else if g.isNonterminal g.start then g.rules.entries.findSome? fun e => g.ruleFault? e.1 e.2
  else some (.undeclaredStart g.start)

def validate (g : Grammar) : Except GrammarError Unit :=
  match g.fault? with
  | some cause => .error (.malformed cause)
  | none => .ok ()

/-- No symbol is terminal and non-terminal, the start is a non-terminal, and rules are made of declared
symbols. -/
structure Valid (g : Grammar) : Prop where
  disjoint : ∀ s ∈ g.nonterminals, s ∉ g.terminals
  start_mem : g.start ∈ g.nonterminals
  lhs_mem : ∀ A ∈ g.rules.keys, A ∈ g.nonterminals
  body_mem : ∀ A, ∀ b ∈ g.alternatives A, ∀ s ∈ b, s ∈ g.nonterminals ∨ s ∈ g.terminals

@[simp] theorem isTerminal_iff {g : Grammar} {s : Symbol} :
    g.isTerminal s = true ↔ s ∈ g.terminals := by simp [isTerminal]

@[simp] theorem isNonterminal_iff {g : Grammar} {s : Symbol} :
    g.isNonterminal s = true ↔ s ∈ g.nonterminals := by simp [isNonterminal]

theorem mem_productions {g : Grammar} {A : Symbol} {b : Body} :
    (A, b) ∈ g.productions ↔ A ∈ g.nonterminals ∧ b ∈ g.alternatives A := by
  simp only [productions, List.mem_flatMap, List.mem_map, Prod.mk.injEq]
  constructor
  · rintro ⟨_, hA, _, hb, rfl, rfl⟩
    exact ⟨hA, Alternatives.mem_sorted.mp hb⟩
  · exact fun ⟨hA, hb⟩ => ⟨A, hA, b, Alternatives.mem_sorted.mpr hb, rfl, rfl⟩

theorem Valid.all_productions_iff {g : Grammar} (hg : g.Valid) {p : Symbol × Body → Bool} :
    g.productions.all p = true ↔ ∀ A, ∀ b ∈ g.alternatives A, p (A, b) = true := by
  rw [List.all_eq_true]
  constructor
  · intro hall A b hb
    have hA : A ∈ g.nonterminals := hg.lhs_mem A (Rules.mem_keys_of_mem_alternatives hb)
    exact hall (A, b) (mem_productions.mpr ⟨hA, hb⟩)
  · rintro hall ⟨A, b⟩ hp
    exact hall A b (mem_productions.mp hp).2

theorem mem_bodySymbols {g : Grammar} {s : Symbol} :
    s ∈ g.bodySymbols ↔ ∃ A, ∃ b ∈ g.alternatives A, s ∈ b := by
  simp only [bodySymbols, mem_distinct, List.mem_flatMap, List.mem_flatten]
  constructor
  · rintro ⟨e, he, b, hb, hs⟩
    exact ⟨e.1, b, Rules.mem_alternatives_iff.mpr ⟨e.2, Rules.get?_eq_some_iff.mpr he, hb⟩, hs⟩
  · rintro ⟨A, b, hb, hs⟩
    obtain ⟨alts, halts, hb⟩ := Rules.mem_alternatives_iff.mp hb
    exact ⟨(A, alts), Rules.get?_eq_some_iff.mp halts, b, hb, hs⟩

theorem ruleFault?_eq_none_iff {g : Grammar} {lhs : Symbol} {alts : Alternatives} :
    g.ruleFault? lhs alts = none ↔ lhs ∈ g.nonterminals ∧
      ∀ b ∈ alts, ∀ s ∈ b, s ∈ g.nonterminals ∨ s ∈ g.terminals := by
  unfold ruleFault?
  split
  · rename_i h
    have h := isNonterminal_iff.mp h
    simp [undeclaredIn?, List.findSome?_eq_none_iff, isNonterminal, h,
      Classical.or_iff_not_imp_left]
  · rename_i h
    simp_all

theorem fault?_eq_none_iff {g : Grammar} : g.fault? = none ↔ g.Valid := by
  have shared : g.sharedSymbols = [] ↔ ∀ s ∈ g.nonterminals, s ∉ g.terminals := by
    rw [List.eq_nil_iff_forall_not_mem]
    simp [sharedSymbols, sortedSymbols]
  unfold fault?
  by_cases hs : g.sharedSymbols = []
  · rw [if_neg (by simp [hs])]
    split
    · rename_i hstart
      simp only [List.findSome?_eq_none_iff, ruleFault?_eq_none_iff]
      constructor
      · intro h
        refine ⟨shared.mp hs, isNonterminal_iff.mp hstart, ?_, ?_⟩
        · intro A hA
          obtain ⟨e, he, rfl⟩ := List.mem_map.mp hA
          exact (h e he).1
        · intro A b hb
          obtain ⟨alts, ha, hb⟩ := Rules.mem_alternatives_iff.mp hb
          exact (h _ (Rules.get?_eq_some_iff.mp ha)).2 b hb
      · rintro h ⟨A, alts⟩ he
        refine ⟨h.lhs_mem A (List.mem_map.mpr ⟨_, he, rfl⟩), fun b hb => h.body_mem A b ?_⟩
        exact Rules.mem_alternatives_iff.mpr ⟨alts, Rules.get?_eq_some_iff.mpr he, hb⟩
    · rename_i hstart
      simp only [reduceCtorEq, false_iff]
      exact fun h => hstart (isNonterminal_iff.mpr h.start_mem)
  · rw [if_pos hs]
    simp only [reduceCtorEq, false_iff]
    exact fun h => hs (shared.mpr h.disjoint)

theorem validate_eq_ok_iff {g : Grammar} : g.validate = .ok () ↔ g.Valid := by
  rw [← fault?_eq_none_iff, validate]
  cases g.fault? <;> simp

theorem validate_eq_error {g : Grammar} {e : GrammarError} (h : g.validate = .error e) :
    ∃ cause, e = .malformed cause := by
  unfold validate at h
  split at h
  · cases h
    exact ⟨_, rfl⟩
  · cases h

end Grammar

end ContextFree
