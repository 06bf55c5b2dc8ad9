import ContextFree.Proofs.Idempotence
import ContextFree.Proofs.Steps

/-!
A stage by itself, on a grammar that no other stage has prepared. Without empty bodies every non-terminal
keeps its words but the empty one (`removeEpsilon_exact`). Without unit bodies it keeps them all, and what
reaches each other by unit productions ends with the same bodies (`removeUnits_exact`). Reshaping keeps the
words of the non-terminals that were there before, and what it makes is in normal form exactly where no
body was empty or a unit: those are too short for it (`reshape_exact`). Putting the empty word back adds that
word to the language and nothing to any other non-terminal (`addStartEpsilon_exact`).
-/
namespace ContextFree

variable {g : Grammar} {A B : Symbol} {factor : Int} {nulls : List Symbol} {pairs : UnitPairs}
  {supply : NameSupply}

namespace Grammar

/-! ## Empty bodies -/

theorem languageOf_withoutEpsilon (hn : g.nullable factor = .ok nulls) (A : Symbol) :
    (g.withoutEpsilon nulls).languageOf A = g.languageOf A \ {[]} := by
  ext w
  simp only [Set.mem_sdiff, Set.mem_singleton_iff, mem_languageOf_iff]
  exact generates_withoutEpsilon_iff hn

/-- **Dropping empty bodies is exact.** Symbols, start and left sides stay, and every symbol loses the
empty word and no other. -/
theorem removeEpsilon_exact (hg : g.validate = .ok ()) (hf : 1 ≤ factor) :
    ∃ out, g.removeEpsilon none factor = .ok out ∧
      out.EpsilonFree ∧
      out.nonterminals = g.nonterminals ∧ out.terminals = g.terminals ∧ out.start = g.start ∧
      (∀ A, A ∈ out.rules.keys ↔ A ∈ g.rules.keys) ∧
      ∀ A, out.languageOf A = g.languageOf A \ {[]} := by
  obtain ⟨nulls, hnulls⟩ := g.nullable_isOk hf
  have hkeys (A : Symbol) : A ∈ (g.withoutEpsilon nulls).rules.keys ↔ A ∈ g.rules.keys :=
    mem_keys_tabulate_declared (validate_eq_ok_iff.mp hg) _
  exact ⟨g.withoutEpsilon nulls, removeEpsilon_eq_ok hnulls, nil_notMem_withoutEpsilon, rfl, rfl,
    rfl, hkeys, languageOf_withoutEpsilon hnulls⟩

theorem removeEpsilon_exact_nested : ∃ out, nested.removeEpsilon none 1 = .ok out ∧
    out.EpsilonFree ∧
    out.nonterminals = ["S"] ∧ out.terminals = ["a", "b"] ∧ out.start = "S" ∧
    (∀ A, A ∈ out.rules.keys ↔ A ∈ nested.rules.keys) ∧
    ∀ A, out.languageOf A = nested.languageOf A \ {[]} :=
  removeEpsilon_exact nested_validate (by decide)

/-! ## Unit bodies -/

theorem languageOf_withoutUnits (hg : g.Valid) (hu : g.unitClosure factor = .ok pairs)
    (A : Symbol) : (g.withoutUnits pairs).languageOf A = g.languageOf A := by
  ext w
  simp only [mem_languageOf_iff]
  exact yields_withoutUnits_iff hg hu

/-- **Dropping unit bodies is exact.** The closure is the relation of unit chains, no body is a unit, and
every symbol keeps its words. Non-terminals on a common cycle of unit productions end with the same bodies,
and a grammar without empty bodies gets none. -/
theorem removeUnits_exact (hg : g.validate = .ok ()) (hf : 1 ≤ factor) :
    ∃ pairs out, g.unitClosure factor = .ok pairs ∧ g.removeUnits factor = .ok out ∧
      (∀ A ∈ g.nonterminals, ∀ B, B ∈ pairs.reachedFrom A ↔ UnitChain g A B) ∧
      out.nonterminals = g.nonterminals ∧ out.terminals = g.terminals ∧ out.start = g.start ∧
      out.UnitFree ∧
      (∀ A, out.languageOf A = g.languageOf A) ∧
      (∀ A ∈ g.nonterminals, ∀ B ∈ g.nonterminals, UnitChain g A B → UnitChain g B A →
        ∀ b, b ∈ out.alternatives A ↔ b ∈ out.alternatives B) ∧
      (g.EpsilonFree → out.EpsilonFree) := by
  have hvalid : g.Valid := validate_eq_ok_iff.mp hg
  obtain ⟨pairs, hpairs⟩ := g.unitClosure_isOk hf
  refine ⟨pairs, g.withoutUnits pairs, hpairs, removeUnits_eq_ok hpairs, ?closure, rfl, rfl, rfl,
    ?unitFree, languageOf_withoutUnits hvalid hpairs, ?cycles, ?epsilonFree⟩
  case closure =>
    intro A hA B
    rw [UnitPairs.mem_reachedFrom, mem_unitClosure_iff hpairs, and_iff_right hA]
  case unitFree =>
    intro A b hb
    exact Bool.eq_false_iff.mpr (not_isUnit_of_mem_withoutUnits hpairs hb)
  case cycles =>
    intro A hA B hB hAB hBA b
    exact ⟨alternatives_withoutUnits_subset hpairs hB hBA,
      alternatives_withoutUnits_subset hpairs hA hAB⟩
  case epsilonFree => exact fun hempty => nil_notMem_withoutUnits hempty hpairs

/-- `S → T | ε` and `T → S | a`, a cycle of unit productions. -/
def looped : Grammar where
  nonterminals := ["S", "T"]
  terminals := ["a"]
  rules := .ofList [("S", .ofList [["T"], []]), ("T", .ofList [["S"], ["a"]])]
  start := "S"

theorem mem_alternatives_looped {b : Body} : b ∈ looped.alternatives A ↔
    A = "S" ∧ (b = ["T"] ∨ b = []) ∨ A = "T" ∧ (b = ["S"] ∨ b = ["a"]) := by
  refine (Rules.mem_alternatives_ofList (by decide)).trans ?_
  simp [or_and_right, exists_or, and_assoc]

theorem looped_validate : looped.validate = .ok () := by
  apply validate_eq_ok_iff.mpr
  refine ⟨by decide, by decide, by decide, fun A b hb => ?_⟩
  obtain ⟨-, rfl | rfl⟩ | ⟨-, rfl | rfl⟩ := mem_alternatives_looped.mp hb <;> decide

theorem removeUnits_exact_looped : ∃ pairs out,
    looped.unitClosure 1 = .ok pairs ∧ looped.removeUnits 1 = .ok out ∧
    "T" ∈ pairs.reachedFrom "S" ∧ "S" ∈ pairs.reachedFrom "T" ∧
    out.UnitFree ∧
    out.languageOf "S" = looped.languageOf "S" ∧
    ∀ b, b ∈ out.alternatives "S" ↔ b ∈ out.alternatives "T" := by
  have hST : UnitChain looped "S" "T" :=
    .step (.refl "S") (by decide) (mem_alternatives_looped.mpr (by simp))
  have hTS : UnitChain looped "T" "S" :=
    .step (.refl "T") (by decide) (mem_alternatives_looped.mpr (by simp))
  have hS : "S" ∈ looped.nonterminals := by decide
  have hT : "T" ∈ looped.nonterminals := by decide
  have hf : (1 : Int) ≤ 1 := Int.le_refl 1
  obtain ⟨pairs, out, hpairs, hout, hclosure, -, -, -, hunit, hwords, hcycles, -⟩ :=
    removeUnits_exact looped_validate hf
  exact ⟨pairs, out, hpairs, hout, (hclosure "S" hS "T").mpr hST, (hclosure "T" hT "S").mpr hTS,
    hunit, hwords "S", hcycles "S" hS "T" hT hST hTS⟩

/-! ## Reshaping -/

theorem languageOf_reshapedBy (hg : g.Valid) (hs : supply.Covers g) (hA : A ∈ g.nonterminals) :
    (g.reshapedBy (g.reshaping supply)).languageOf A = g.languageOf A := by
  ext w
  simp only [mem_languageOf_iff]
  exact Reshaping.yields_reshapedBy_iff (Reshaping.reshaping_spec hg hs).1 (by simpa using .inl hA)

/-- Reshaping leads to normal form from grammars without empty and unit bodies, and from no others. -/
theorem isNormalForm_reshapedBy_iff (hg : g.Valid) (hs : supply.Covers g) :
    (g.reshapedBy (g.reshaping supply)).isNormalForm false = true ↔
      g.EpsilonFree ∧ g.UnitFree := by
  obtain ⟨hfaithful, hlifted⟩ := Reshaping.reshaping_spec hg hs
  rw [isNormalForm_false_iff (hfaithful.valid hg)]
  constructor
  · intro hnormal
    have hproper := hfaithful.proper_of_normal hg hnormal
    exact ⟨hproper.epsilonFree, hproper.unitFree hg⟩
  · rintro ⟨hempty, hunit⟩
    have hproper : g.Proper :=
      proper_of_bodies hg hempty fun A b hb => Bool.eq_false_iff.mp (hunit A b hb)
    exact hfaithful.normal hlifted hproper

/-- **Reshaping is exact.** With any supply that covers the grammar, or one made for it, the result is a
valid grammar in which every non-terminal of the first one has its words. No body has more than two symbols,
two symbols are non-terminals, and the result is in normal form exactly if no body was empty or a unit. -/
theorem reshape_exact (hg : g.validate = .ok ()) {given : Option NameSupply}
    (hs : ∀ supply ∈ given, supply.Covers g) :
    ∃ out later, g.reshape (given.getD (.forGrammar g)) = (out, later) ∧
      out.validate = .ok () ∧ out.terminals = g.terminals ∧ out.start = g.start ∧
      (∀ A ∈ g.nonterminals, A ∈ out.nonterminals ∧ out.languageOf A = g.languageOf A) ∧
      (∀ A, ∀ b ∈ out.alternatives A,
        b.length ≤ 2 ∧ (b.length = 2 → ∀ s ∈ b, s ∈ out.nonterminals)) ∧
      (out.isNormalForm false = true ↔ g.EpsilonFree ∧ g.UnitFree) := by
  have hvalid : g.Valid := validate_eq_ok_iff.mp hg
  have hcovers : (given.getD (.forGrammar g)).Covers g := by
    cases given with
    | none => exact NameSupply.forGrammarWith_covers g _ _
    | some supply => exact hs supply rfl
  generalize given.getD (.forGrammar g) = supply at hcovers
  obtain ⟨hfaithful, hlifted⟩ := Reshaping.reshaping_spec hvalid hcovers
  have hout : (g.reshapedBy (g.reshaping supply)).Valid := hfaithful.valid hvalid
  refine ⟨g.reshapedBy (g.reshaping supply), (g.reshaping supply).supply, rfl,
    validate_eq_ok_iff.mpr hout, rfl, rfl, ?words, ?shape,
    isNormalForm_reshapedBy_iff hvalid hcovers⟩
  case words =>
    intro A hA
    exact ⟨(Reshaping.mem_nonterminals_reshapedBy hfaithful.toNamed).mpr (.inl hA),
      languageOf_reshapedBy hvalid hcovers hA⟩
  case shape =>
    intro A b hb
    constructor
    · obtain htwo | ⟨hshort, -⟩ := hfaithful.settled A b hb <;> omega
    · exact hfaithful.mem_nonterminals_of_mem_pair (hlifted A) hb

theorem reshape_exact_nested : ∃ out later,
    nested.reshape (.forGrammarWith nested ["S", "Z"] "a") = (out, later) ∧
    out.validate = .ok () ∧ out.terminals = ["a", "b"] ∧ out.start = "S" ∧
    "S" ∈ out.nonterminals ∧ out.languageOf "S" = nested.languageOf "S" ∧
    (∀ A, ∀ b ∈ out.alternatives A,
      b.length ≤ 2 ∧ (b.length = 2 → ∀ s ∈ b, s ∈ out.nonterminals)) ∧
    ¬ out.isNormalForm false = true := by
  have hs : ∀ supply ∈ some (NameSupply.forGrammarWith nested ["S", "Z"] "a"),
      supply.Covers nested := by
    rintro _ ⟨⟩
    exact NameSupply.forGrammarWith_covers nested _ _
  have hS : "S" ∈ nested.nonterminals := by decide
  obtain ⟨out, later, heq, hout, hterminals, hstart, hwords, hshape, hnormal⟩ :=
    reshape_exact nested_validate hs
  refine ⟨out, later, heq, hout, hterminals, hstart, (hwords "S" hS).1, (hwords "S" hS).2, hshape,
    fun hn => ?_⟩
  exact (hnormal.mp hn).1 "S" (mem_alternatives_nested.mpr (by simp))

/-! ## The empty word put back -/

/-- **Putting the empty word back is exact.** The language gains the empty word and no other, every old
non-terminal that is not the start now keeps its words, and the start occurs in no body. A grammar in normal
form stays in it but for the empty body of the start, and what was reached is reached. -/
theorem addStartEpsilon_exact (hg : g.validate = .ok ()) (hs : supply.Covers g) :
    ∃ out later, g.addStartEpsilon supply = (out, later) ∧
      out.validate = .ok () ∧ out.terminals = g.terminals ∧
      out.language = g.language ∪ {[]} ∧
      (∀ A ∈ g.nonterminals, A ≠ out.start → out.languageOf A = g.languageOf A) ∧
      (∀ A, ∀ b ∈ out.alternatives A, out.start ∉ b) ∧
      (g.isNormalForm false = true → out.isNormalForm true = true) ∧
      ((∀ A ∈ g.nonterminals, g.Reaches A) → ∀ A ∈ out.nonterminals, out.Reaches A) := by
  have hvalid : g.Valid := validate_eq_ok_iff.mp hg
  have hout := addStartEpsilon_spec hvalid hs
  refine ⟨(g.addStartEpsilon supply).1, (g.addStartEpsilon supply).2, rfl,
    validate_eq_ok_iff.mpr (hout.valid hvalid), hout.terminals, ?language, ?words,
    fun _ _ => hout.start_notMem_body, ?normal,
    hout.reaches_all hvalid (addStartEpsilon_start g supply)⟩
  case language =>
    ext w
    simp only [Set.mem_union, Set.mem_singleton_iff, mem_language_iff]
    exact hout.accepts_iff hvalid
  case words =>
    intro A _ hA
    ext w
    simp only [mem_languageOf_iff]
    exact hout.yields_iff (by simpa using Ne.symm hA)
  case normal =>
    intro hn
    exact hout.isNormalForm hvalid ((isNormalForm_false_iff hvalid).mp hn)

/-- `S → SS | a`, in normal form, with a start that occurs in its own body. -/
def doubling : Grammar where
  nonterminals := ["S"]
  terminals := ["a"]
  rules := .ofList [("S", .ofList [["S", "S"], ["a"]])]
  start := "S"

theorem mem_alternatives_doubling {b : Body} :
    b ∈ doubling.alternatives A ↔ A = "S" ∧ (b = ["S", "S"] ∨ b = ["a"]) := by
  refine (Rules.mem_alternatives_ofList (by decide)).trans ?_
  simp [and_assoc]

theorem doubling_validate : doubling.validate = .ok () := by
  apply validate_eq_ok_iff.mpr
  refine ⟨by decide, by decide, by decide, fun A b hb => ?_⟩
  obtain ⟨-, rfl | rfl⟩ := mem_alternatives_doubling.mp hb <;> decide

theorem doubling_isNormalForm : doubling.isNormalForm false = true := by
  apply (isNormalForm_false_iff (validate_eq_ok_iff.mp doubling_validate)).mpr
  intro A b hb
  obtain ⟨-, rfl | rfl⟩ := mem_alternatives_doubling.mp hb
  · exact .pair (by decide) (by decide)
  · exact .terminal (by decide)

theorem addStartEpsilon_exact_doubling : ∃ out later,
    doubling.addStartEpsilon (.forGrammarWith doubling ["S", "T"] "N") = (out, later) ∧
    out.validate = .ok () ∧ out.terminals = ["a"] ∧
    out.language = doubling.language ∪ {[]} ∧
    ("S" ≠ out.start → out.languageOf "S" = doubling.languageOf "S") ∧
    (∀ A, ∀ b ∈ out.alternatives A, out.start ∉ b) ∧
    out.isNormalForm true = true ∧
    ∀ A ∈ out.nonterminals, out.Reaches A := by
  have hreached : ∀ A ∈ doubling.nonterminals, doubling.Reaches A := by
    intro A hA
    rw [List.mem_singleton.mp hA]
    exact .start
  obtain ⟨out, later, heq, hout, hterminals, hlanguage, hwords, hstart, hnormal, hreaches⟩ :=
    addStartEpsilon_exact doubling_validate (NameSupply.forGrammarWith_covers doubling ["S", "T"] "N")
  exact ⟨out, later, heq, hout, hterminals, hlanguage, hwords "S" (by decide), hstart,
    hnormal doubling_isNormalForm, hreaches hreached⟩

end Grammar

end ContextFree
