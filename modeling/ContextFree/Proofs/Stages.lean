import ContextFree.Proofs.Useless
import ContextFree.Proofs.NormalForm
import ContextFree.NormalForm.Conversion

/-!
The stages of a conversion put together. Each one but the first keeps the language (`Keeps`), and the first
takes the empty word out of it; the shape is that of `ContextFree.Proofs.NormalForm`. What comes out of the
last one is in normal form and has the words of the grammar except the empty one (`StagedFrom.accepts_result`),
which the end puts back where it was and is wanted (`StagedFrom.accepts_finish`).
-/
namespace ContextFree

variable {g h k : Grammar} {A : Symbol} {b : Body} {w : Word} {factor : Int}
  {pairs : UnitPairs} {productive : List Symbol} {r : Reshaping} {supply : NameSupply}

namespace Grammar

/-- `h` is valid, has the terminals of `g`, and its words. -/
structure Keeps (g h : Grammar) : Prop where
  valid : h.Valid
  terminals : h.terminals = g.terminals
  accepts : ∀ w, h.Accepts w ↔ g.Accepts w

theorem Keeps.trans (hg : g.Keeps h) (hh : h.Keeps k) : g.Keeps k where
  valid := hh.valid
  terminals := hh.terminals.trans hg.terminals
  accepts w := (hh.accepts w).trans (hg.accepts w)

theorem keeps_withoutUnits (hg : g.Valid) (hu : g.unitClosure factor = .ok pairs) :
    g.Keeps (g.withoutUnits pairs) where
  valid := hg.withoutUnits hu
  terminals := rfl
  accepts _ := yields_withoutUnits_iff hg hu

theorem keeps_removeUnreachable (hg : g.Valid) : g.Keeps g.removeUnreachable where
  valid := hg.removeUnreachable
  terminals := rfl
  accepts _ := yields_removeUnreachable_iff (by simpa using .inr .start) hg

theorem keeps_withoutUnproductive (hg : g.Valid) (hp : g.productive factor = .ok productive) :
    g.Keeps (g.withoutUnproductive productive) where
  valid := hg.withoutUnproductive hp
  terminals := rfl
  accepts _ := yields_withoutUnproductive_iff hg hp

theorem keeps_reshapedBy (hg : g.Valid) (hs : supply.Covers g) :
    g.Keeps (g.reshapedBy (g.reshaping supply)) where
  valid := (Reshaping.reshaping_spec hg hs).1.valid hg
  terminals := rfl
  accepts _ := Reshaping.yields_reshapedBy_iff (Reshaping.reshaping_spec hg hs).1
    (by simpa using .inl hg.start_mem)

/-! ## Symbols that are left -/

theorem nonterminals_removeUnreachable_subset (hA : A ∈ g.removeUnreachable.nonterminals) :
    A ∈ g.nonterminals := (mem_nonterminals_removeUnreachable.mp hA).1

theorem nonterminals_withoutUnproductive_subset
    (hA : A ∈ (g.withoutUnproductive productive).nonterminals) : A ∈ g.nonterminals :=
  (mem_nonterminals_withoutUnproductive.mp hA).1

end Grammar

/-! ## Pruning -/

/-- What pruning computes. -/
structure PrunedFrom (g : Grammar) (factor : Int) (p : Pruned) : Prop where
  reached : p.reached = g.removeUnreachable
  productive : p.reached.productive factor = .ok p.productive
  fruitful : p.fruitful = p.reached.withoutUnproductive p.productive
  result : p.result = p.fruitful.removeUnreachable

theorem prune_isOk (g : Grammar) (hf : 1 ≤ factor) :
    ∃ p, g.prune factor = .ok p ∧ PrunedFrom g factor p := by
  obtain ⟨productive, hp⟩ := g.removeUnreachable.productive_isOk hf
  have hprune : g.prune factor = .ok
      ⟨g.removeUnreachable, productive, g.removeUnreachable.withoutUnproductive productive,
        (g.removeUnreachable.withoutUnproductive productive).removeUnreachable⟩ := by
    simp only [Grammar.prune, hp]
    rfl
  exact ⟨_, hprune, rfl, hp, rfl, rfl⟩

namespace PrunedFrom

variable {p : Pruned}

theorem keeps (hp : PrunedFrom g factor p) (hg : g.Valid) : g.Keeps p.result := by
  have hreached : g.Keeps p.reached := by
    rw [hp.reached]
    exact Grammar.keeps_removeUnreachable hg
  have hfruitful : p.reached.Keeps p.fruitful := by
    rw [hp.fruitful]
    exact Grammar.keeps_withoutUnproductive hreached.valid hp.productive
  have hresult : p.fruitful.Keeps p.result := by
    rw [hp.result]
    exact Grammar.keeps_removeUnreachable hfruitful.valid
  exact (hreached.trans hfruitful).trans hresult

theorem alternatives_subset (hp : PrunedFrom g factor p) (hb : b ∈ p.result.alternatives A) :
    b ∈ g.alternatives A := by
  rw [hp.result] at hb
  have hb := (Grammar.mem_alternatives_removeUnreachable.mp hb).2
  rw [hp.fruitful] at hb
  have hb := (Grammar.mem_alternatives_withoutUnproductive.mp hb).2.1
  rw [hp.reached] at hb
  exact (Grammar.mem_alternatives_removeUnreachable.mp hb).2

theorem nonterminals_subset (hp : PrunedFrom g factor p) (hA : A ∈ p.result.nonterminals) :
    A ∈ g.nonterminals := by
  rw [hp.result] at hA
  have hA := Grammar.nonterminals_removeUnreachable_subset hA
  rw [hp.fruitful] at hA
  have hA := Grammar.nonterminals_withoutUnproductive_subset hA
  rw [hp.reached] at hA
  exact Grammar.nonterminals_removeUnreachable_subset hA

end PrunedFrom

/-! ## All stages -/

/-- What the stages compute, each from the one before. -/
structure StagedFrom (g : Grammar) (factor : Int) (s : Stages) : Prop where
  source : s.source = g
  nullable : g.nullable factor = .ok s.nullable
  epsilonFree : s.epsilonFree = g.withoutEpsilon s.nullable
  unitPairs : s.epsilonFree.unitClosure factor = .ok s.unitPairs
  unitFree : s.unitFree = s.epsilonFree.withoutUnits s.unitPairs
  reached : s.reached = s.unitFree.removeUnreachable
  productive : s.reached.productive factor = .ok s.productive
  fruitful : s.fruitful = s.reached.withoutUnproductive s.productive
  reshaping : s.reshaping = s.fruitful.reshaping (.forGrammar g)
  shaped : s.shaped = s.fruitful.reshapedBy s.reshaping
  pruned : PrunedFrom s.shaped factor s.pruned

theorem stages_isOk (g : Grammar) (hf : 1 ≤ factor) :
    ∃ s, g.stages factor = .ok s ∧ StagedFrom g factor s := by
  obtain ⟨nulls, hnulls⟩ := g.nullable_isOk hf
  obtain ⟨pairs, hpairs⟩ := (g.withoutEpsilon nulls).unitClosure_isOk hf
  obtain ⟨productive, hproductive⟩ :=
    ((g.withoutEpsilon nulls).withoutUnits pairs).removeUnreachable.productive_isOk hf
  let fruitful :=
    ((g.withoutEpsilon nulls).withoutUnits pairs).removeUnreachable.withoutUnproductive productive
  let reshaping := fruitful.reshaping (.forGrammar g)
  obtain ⟨pruned, hprune, hpruned⟩ := prune_isOk (fruitful.reshapedBy reshaping) hf
  have hstages : g.stages factor = .ok
      ⟨g, nulls, g.withoutEpsilon nulls, pairs, (g.withoutEpsilon nulls).withoutUnits pairs,
        ((g.withoutEpsilon nulls).withoutUnits pairs).removeUnreachable, productive, fruitful,
        reshaping, fruitful.reshapedBy reshaping, pruned⟩ := by
    simp only [fruitful, reshaping] at hprune
    simp only [Grammar.stages, hnulls, hpairs, hproductive, hprune, bind, Except.bind]
    rfl
  exact ⟨_, hstages, rfl, hnulls, rfl, hpairs, rfl, rfl, hproductive, rfl, rfl, rfl, hpruned⟩

namespace StagedFrom

variable {s : Stages}

theorem mem_nullable (hs : StagedFrom g factor s) : A ∈ s.nullable ↔ g.Generates A [] :=
  Grammar.mem_nullable_iff hs.nullable

theorem valid_epsilonFree (hs : StagedFrom g factor s) (hg : g.Valid) : s.epsilonFree.Valid := by
  rw [hs.epsilonFree]
  exact hg.withoutEpsilon s.nullable

theorem accepts_epsilonFree (hs : StagedFrom g factor s) :
    s.epsilonFree.Accepts w ↔ g.Accepts w ∧ w ≠ [] := by
  rw [hs.epsilonFree]
  exact Grammar.generates_withoutEpsilon_iff hs.nullable

theorem keeps_unitFree (hs : StagedFrom g factor s) (hg : g.Valid) :
    s.epsilonFree.Keeps s.unitFree := by
  rw [hs.unitFree]
  exact Grammar.keeps_withoutUnits (hs.valid_epsilonFree hg) hs.unitPairs

theorem keeps_reached (hs : StagedFrom g factor s) (hg : g.Valid) :
    s.epsilonFree.Keeps s.reached := by
  have hunits := hs.keeps_unitFree hg
  rw [hs.reached]
  exact hunits.trans (Grammar.keeps_removeUnreachable hunits.valid)

theorem keeps_fruitful (hs : StagedFrom g factor s) (hg : g.Valid) :
    s.epsilonFree.Keeps s.fruitful := by
  have hreached := hs.keeps_reached hg
  rw [hs.fruitful]
  exact hreached.trans (Grammar.keeps_withoutUnproductive hreached.valid hs.productive)

/-! ### Names -/

theorem nonterminals_fruitful_subset (hs : StagedFrom g factor s)
    (hA : A ∈ s.fruitful.nonterminals) : A ∈ g.nonterminals := by
  rw [hs.fruitful] at hA
  have hA := Grammar.nonterminals_withoutUnproductive_subset hA
  rw [hs.reached] at hA
  have hA := Grammar.nonterminals_removeUnreachable_subset hA
  rw [hs.unitFree, hs.epsilonFree] at hA
  exact hA

theorem covers_fruitful (hs : StagedFrom g factor s) (hg : g.Valid) :
    (NameSupply.forGrammar g).Covers s.fruitful := by
  have hterminals : s.fruitful.terminals = g.terminals := by
    rw [(hs.keeps_fruitful hg).terminals, hs.epsilonFree]
    rfl
  exact (NameSupply.forGrammarWith_covers g _ _).of_subset
    (fun _ hA => hs.nonterminals_fruitful_subset hA) hterminals

/-! ### The reshaped grammar -/

theorem reshaping_spec (hs : StagedFrom g factor s) (hg : g.Valid) :
    Reshaping.Faithful s.fruitful s.fruitful.productions s.reshaping ∧
      ∀ A, s.reshaping.Lifted s.fruitful A := by
  rw [hs.reshaping]
  exact Reshaping.reshaping_spec (hs.keeps_fruitful hg).valid (hs.covers_fruitful hg)

theorem keeps_shaped (hs : StagedFrom g factor s) (hg : g.Valid) :
    s.epsilonFree.Keeps s.shaped := by
  have hfruitful := hs.keeps_fruitful hg
  rw [hs.shaped, hs.reshaping]
  exact hfruitful.trans (Grammar.keeps_reshapedBy hfruitful.valid (hs.covers_fruitful hg))

theorem keeps_result (hs : StagedFrom g factor s) (hg : g.Valid) :
    s.epsilonFree.Keeps s.pruned.result := by
  have hshaped := hs.keeps_shaped hg
  exact hshaped.trans (hs.pruned.keeps hshaped.valid)

theorem covers_result (hs : StagedFrom g factor s) (hg : g.Valid) :
    s.reshaping.supply.Covers s.pruned.result := by
  have hcovers : s.reshaping.supply.Covers s.shaped := by
    rw [hs.shaped]
    exact (hs.reshaping_spec hg).1.covers
  exact hcovers.of_subset (fun _ hA => hs.pruned.nonterminals_subset hA)
    (hs.pruned.keeps (hs.keeps_shaped hg).valid).terminals

/-! ### Shape -/

theorem proper_unitFree (hs : StagedFrom g factor s) (hg : g.Valid) : s.unitFree.Proper := by
  rw [hs.unitFree]
  refine Grammar.proper_withoutUnits (hs.valid_epsilonFree hg) (fun A => ?_) hs.unitPairs
  rw [hs.epsilonFree]
  exact Grammar.nil_notMem_withoutEpsilon A

theorem proper_reached (hs : StagedFrom g factor s) (hg : g.Valid) : s.reached.Proper := by
  rw [hs.reached]
  exact (hs.proper_unitFree hg).of_subset rfl fun A b hb =>
    (Grammar.mem_alternatives_removeUnreachable.mp hb).2

theorem proper_fruitful (hs : StagedFrom g factor s) (hg : g.Valid) : s.fruitful.Proper := by
  rw [hs.fruitful]
  exact (hs.proper_reached hg).of_subset rfl fun A b hb =>
    (Grammar.mem_alternatives_withoutUnproductive.mp hb).2.1

theorem normal_shaped (hs : StagedFrom g factor s) (hg : g.Valid) : s.shaped.Normal := by
  obtain ⟨hfaithful, hlifted⟩ := hs.reshaping_spec hg
  rw [hs.shaped]
  exact hfaithful.normal hlifted (hs.proper_fruitful hg)

theorem normal_result (hs : StagedFrom g factor s) (hg : g.Valid) : s.pruned.result.Normal := by
  have hshaped := (hs.keeps_shaped hg).valid
  have hkeeps := hs.pruned.keeps hshaped
  exact (hs.normal_shaped hg).of_subset hshaped hkeeps.valid hkeeps.terminals fun A b hb =>
    hs.pruned.alternatives_subset hb

/-! ### The end -/

theorem accepts_result (hs : StagedFrom g factor s) (hg : g.Valid) :
    s.pruned.result.Accepts w ↔ g.Accepts w ∧ w ≠ [] :=
  ((hs.keeps_result hg).accepts w).trans hs.accepts_epsilonFree

theorem startIsNullable_iff (hs : StagedFrom g factor s) :
    s.startIsNullable = true ↔ g.Accepts [] := by
  rw [Stages.startIsNullable, List.contains_iff_mem, hs.source, hs.mem_nullable]
  rfl

/-- At the end the grammar is as it was before, or its start has taken the empty body on. -/
theorem finish_cases (hs : StagedFrom g factor s) (hg : g.Valid) (keep : Bool) :
    (¬ (g.Accepts [] ∧ keep = true) ∧ s.finish keep = s.pruned.result) ∨
      ((g.Accepts [] ∧ keep = true) ∧ WithStartEpsilon s.pruned.result (s.finish keep)) := by
  have hcond : (s.startIsNullable && keep) = true ↔ g.Accepts [] ∧ keep = true := by
    rw [Bool.and_eq_true, hs.startIsNullable_iff]
  unfold Stages.finish
  split
  · rename_i hyes
    have hvalid := (hs.keeps_result hg).valid
    exact .inr ⟨hcond.mp hyes, Grammar.addStartEpsilon_spec hvalid (hs.covers_result hg)⟩
  · rename_i hno
    exact .inl ⟨fun hyes => hno (hcond.mpr hyes), rfl⟩

theorem valid_finish (hs : StagedFrom g factor s) (hg : g.Valid) (keep : Bool) :
    (s.finish keep).Valid := by
  have hvalid := (hs.keeps_result hg).valid
  obtain ⟨-, heq⟩ | ⟨-, hstart⟩ := hs.finish_cases hg keep
  · exact heq ▸ hvalid
  · exact hstart.valid hvalid

theorem terminals_finish (hs : StagedFrom g factor s) (hg : g.Valid) (keep : Bool) :
    (s.finish keep).terminals = g.terminals := by
  have hresult : s.pruned.result.terminals = g.terminals := by
    rw [(hs.keeps_result hg).terminals, hs.epsilonFree]
    rfl
  obtain ⟨-, heq⟩ | ⟨-, hstart⟩ := hs.finish_cases hg keep
  · rw [heq, hresult]
  · rw [hstart.terminals, hresult]

theorem isNormalForm_finish (hs : StagedFrom g factor s) (hg : g.Valid) (keep : Bool) :
    (s.finish keep).isNormalForm keep = true := by
  have hvalid := (hs.keeps_result hg).valid
  have hnormal := hs.normal_result hg
  obtain ⟨-, heq⟩ | ⟨⟨-, rfl⟩, hstart⟩ := hs.finish_cases hg keep
  · rw [heq]
    exact hnormal.isNormalForm hvalid keep
  · exact hstart.isNormalForm hvalid hnormal

/-- The language is kept, but for the empty word where it is not wanted. -/
theorem accepts_finish (hs : StagedFrom g factor s) (hg : g.Valid) (keep : Bool) :
    (s.finish keep).Accepts w ↔ g.Accepts w ∧ (w = [] → keep = true) := by
  have hresult := hs.accepts_result (w := w) hg
  obtain ⟨hno, heq⟩ | ⟨⟨hempty, rfl⟩, hstart⟩ := hs.finish_cases hg keep
  · rw [heq, hresult]
    refine and_congr_right fun hw => ⟨fun hne he => absurd he hne, ?_⟩
    rintro hkeep rfl
    exact hno ⟨hw, hkeep rfl⟩
  · rw [hstart.accepts_iff (hs.keeps_result hg).valid, hresult]
    constructor
    · rintro (⟨hw, -⟩ | rfl)
      · exact ⟨hw, fun _ => rfl⟩
      · exact ⟨hempty, fun _ => rfl⟩
    · rintro ⟨hw, -⟩
      by_cases he : w = []
      · exact .inr he
      · exact .inl ⟨hw, he⟩

end StagedFrom

end ContextFree
