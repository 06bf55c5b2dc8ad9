import ContextFree.Proofs.Create
import ContextFree.Proofs.Conversion

/-!
Conversions of grammars that differ at most in the order in which left sides and bodies are listed go
through the same grammars under the same titles (`StagedFrom.same`), the names of the helpers included:
two reshapings ask for the same helpers in the same order, since each goes by sorted productions and
then by the order of the non-terminals (`Grammar.Same.reshaping`). A conversion can therefore not tell in
which order, or how often, the rules of its grammar were given (`convertShowing_deterministic`).
-/
namespace ContextFree

variable {g h : Grammar} {A : Symbol} {b : Body} {factor : Int} {policy : Policy}
  {supply : NameSupply}

/-! ## Reshaping in step -/

namespace Reshaping

variable {r s : Reshaping}

/-- Two states that differ at most in the order of their rules. -/
structure Same (r s : Reshaping) : Prop where
  supply : r.supply = s.supply
  nonterminals : r.nonterminals = s.nonterminals
  rules : r.rules.Same s.rules
  helpers : r.helpers = s.helpers

theorem Same.setRules (h : r.Same s) {alts alts' : Alternatives} (A : Symbol)
    (halts : ∀ c, c ∈ alts ↔ c ∈ alts') :
    Same { r with rules := r.rules.insert A alts } { s with rules := s.rules.insert A alts' } :=
  ⟨h.supply, h.nonterminals, h.rules.insert A halts, h.helpers⟩

theorem Same.helper (h : r.Same s) (body : Body) :
    (r.helper body).1 = (s.helper body).1 ∧ (r.helper body).2.Same (s.helper body).2 := by
  unfold Reshaping.helper
  rw [h.helpers, h.supply]
  cases s.helpers.lookup body with
  | some name => exact ⟨rfl, h⟩
  | none =>
    exact ⟨rfl, rfl, congrArg (· ++ _) h.nonterminals, h.rules.insert _ fun _ => Iff.rfl, rfl⟩

theorem Same.binarize (h : r.Same s) (body : Body) :
    (Reshaping.binarize body r).1 = (Reshaping.binarize body s).1 ∧
      (Reshaping.binarize body r).2.Same (Reshaping.binarize body s).2 := by
  fun_induction Reshaping.binarize body r generalizing s with
  | case1 r a b c rest name r' heq ih =>
    obtain ⟨hname, hsame⟩ := h.helper [a, b]
    rw [Reshaping.binarize]
    cases hs : s.helper [a, b] with
    | mk name' s' =>
      rw [heq, hs] at hname hsame
      obtain rfl : name = name' := hname
      exact ih hsame
  | case2 r body hshort =>
    unfold Reshaping.binarize
    split
    · exact absurd rfl (hshort _ _ _ _)
    · exact ⟨rfl, h⟩

theorem Same.addProduction (h : r.Same s) (A : Symbol) (body : Body) :
    (r.addProduction A body).Same (s.addProduction A body) := by
  obtain ⟨hshort, hsame⟩ := h.binarize body
  apply hsame.setRules A
  intro c
  rw [Alternatives.mem_insert, Alternatives.mem_insert, hshort, hsame.rules.bodies]

theorem Same.liftSymbol (h : r.Same s) (isTerminal : Symbol → Bool) (t : Symbol) :
    (r.liftSymbol isTerminal t).1 = (s.liftSymbol isTerminal t).1 ∧
      (r.liftSymbol isTerminal t).2.Same (s.liftSymbol isTerminal t).2 := by
  unfold Reshaping.liftSymbol
  split
  · exact h.helper [t]
  · exact ⟨rfl, h⟩

theorem Same.liftBody (h : r.Same s) (isTerminal : Symbol → Bool) (body : Body) :
    (r.liftBody isTerminal body).1 = (s.liftBody isTerminal body).1 ∧
      (r.liftBody isTerminal body).2.Same (s.liftBody isTerminal body).2 := by
  unfold Reshaping.liftBody
  split
  · rename_i a b
    obtain ⟨ha, hsame⟩ := h.liftSymbol isTerminal a
    obtain ⟨hb, hsame⟩ := hsame.liftSymbol isTerminal b
    exact ⟨by simp only [ha, hb], hsame⟩
  · exact ⟨rfl, h⟩

theorem Same.liftBodies (h : r.Same s) (isTerminal : Symbol → Bool) (bodies : List Body) :
    (r.liftBodies isTerminal bodies).1 = (s.liftBodies isTerminal bodies).1 ∧
      (r.liftBodies isTerminal bodies).2.Same (s.liftBodies isTerminal bodies).2 := by
  induction bodies generalizing r s with
  | nil => exact ⟨rfl, h⟩
  | cons body rest ih =>
    obtain ⟨hbody, hsame⟩ := h.liftBody isTerminal body
    obtain ⟨hrest, hsame⟩ := ih hsame
    exact ⟨by simp only [Reshaping.liftBodies, hbody, hrest], hsame⟩

theorem Same.liftAlternatives (h : r.Same s) (isTerminal : Symbol → Bool) (A : Symbol) :
    (r.liftAlternatives isTerminal A).Same (s.liftAlternatives isTerminal A) := by
  unfold Reshaping.liftAlternatives
  have hkeys := h.rules.keys A
  have hbodies := h.rules.bodies A
  rw [Rules.mem_keys_iff, Rules.mem_keys_iff] at hkeys
  simp only [Rules.mem_alternatives_iff] at hbodies
  cases hr : r.rules.get? A with
  | none =>
    rw [hr] at hkeys
    have hs : s.rules.get? A = none := by simpa using hkeys
    rw [hs]
    exact h
  | some alts =>
    rw [hr] at hkeys
    obtain ⟨alts', hs⟩ := Option.isSome_iff_exists.mp (hkeys.mp rfl)
    simp only [hr, hs, Option.some.injEq, exists_eq_left'] at hbodies
    obtain ⟨hlifted, hsame⟩ := h.liftBodies isTerminal alts'.sorted
    rw [hs]
    dsimp only
    rw [Alternatives.sorted_congr hbodies]
    apply hsame.setRules A
    intro c
    rw [hlifted]

/-- Steps that keep two states the same keep them the same when they are repeated. -/
theorem Same.foldl {α : Type} {step step' : Reshaping → α → Reshaping} (h : r.Same s)
    (hstep : ∀ r s a, Same r s → (step r a).Same (step' s a)) (as : List α) :
    (as.foldl step r).Same (as.foldl step' s) := by
  induction as generalizing r s with
  | nil => exact h
  | cons a as ih => exact ih (hstep r s a h)

end Reshaping

namespace Grammar

theorem Same.reshaping (hs : g.Same h) (supply : NameSupply) :
    (g.reshaping supply).Same (h.reshaping supply) := by
  have hbegin : (g.beginReshaping supply).Same (h.beginReshaping supply) := by
    refine ⟨rfl, hs.nonterminals, ?_, rfl⟩
    constructor
    · intro A
      simp only [beginReshaping, Rules.mem_keys_mapAlternatives, hs.rules.keys]
    · intro A b
      simp only [beginReshaping, Rules.mem_alternatives_mapAlternatives, hs.rules.keys]
  have hbinary := hbegin.foldl (fun _ _ p hrs => hrs.addProduction p.1 p.2) g.productions
  have hlifted := hbinary.foldl (fun _ _ A hrs => hrs.liftAlternatives g.isTerminal A)
    (g.productions.foldl (fun r p => r.addProduction p.1 p.2)
      (g.beginReshaping supply)).nonterminals
  dsimp only [Grammar.reshaping]
  rw [← hs.productions, ← hs.isTerminal, ← hbinary.nonterminals]
  exact hlifted

theorem Same.reshapedBy (hs : g.Same h) {r r' : Reshaping} (hr : r.Same r') :
    (g.reshapedBy r).Same (h.reshapedBy r') where
  nonterminals := congrArg distinct hr.nonterminals
  terminals := hs.terminals
  start := hs.start
  rules := hr.rules

end Grammar

/-- Under the same start, what the empty word is put back into is the same. -/
theorem WithStartEpsilon.same {g' h' : Grammar} (hg : WithStartEpsilon g g')
    (hh : WithStartEpsilon h h') (hs : g.Same h) (hn : g'.nonterminals = h'.nonterminals)
    (hstart : g'.start = h'.start) : g'.Same h' where
  nonterminals := hn
  terminals := by rw [hg.terminals, hh.terminals, hs.terminals]
  start := hstart
  rules := by
    constructor
    · intro A
      rw [hg.keys, hh.keys, hstart, hs.rules.keys]
    · intro A b
      change b ∈ g'.alternatives A ↔ b ∈ h'.alternatives A
      by_cases hA : A = g'.start
      · rw [hA, hg.startBodies, hstart, hh.startBodies, hs.start, hs.mem_alternatives]
      · rw [hg.others A hA, hh.others A (hstart ▸ hA), hs.mem_alternatives]

namespace Grammar

theorem Same.addStartEpsilon (hs : g.Same h) (hg : g.Valid) (hsupply : supply.Covers g) :
    (g.addStartEpsilon supply).1.Same (h.addStartEpsilon supply).1 := by
  have hcovers : supply.Covers h :=
    ⟨hs.nonterminals ▸ hsupply.1, hs.terminals ▸ hsupply.2⟩
  apply (addStartEpsilon_spec hg hsupply).same (addStartEpsilon_spec (hs.valid hg) hcovers) hs
  · unfold Grammar.addStartEpsilon
    rw [hs.startOccurs]
    split
    · exact congrArg (fun ns => distinct (_ :: ns)) hs.nonterminals
    · exact hs.nonterminals
  · unfold Grammar.addStartEpsilon
    rw [hs.startOccurs]
    split
    · rfl
    · exact hs.start

end Grammar

/-! ## The conversion -/

theorem PrunedFrom.same {p q : Pruned} (hp : PrunedFrom g factor p) (hq : PrunedFrom h factor q)
    (hs : g.Same h) (hg : g.Valid) : p.result.Same q.result := by
  have hreached : p.reached.Same q.reached := by
    rw [hp.reached, hq.reached]
    exact hs.removeUnreachable
  have hvalid : p.reached.Valid := by
    rw [hp.reached]
    exact hg.removeUnreachable
  rw [hp.result, hq.result, hp.fruitful, hq.fruitful]
  apply Grammar.Same.removeUnreachable
  apply hreached.withoutUnproductive
  exact fun A => hreached.mem_productive hvalid hp.productive hq.productive

theorem ShownStep.title_congr {nulls nulls' : List Symbol}
    (h : sortedSymbols nulls = sortedSymbols nulls') :
    (ShownStep.epsilonFree nulls).title = (ShownStep.epsilonFree nulls').title := by
  unfold ShownStep.title
  dsimp only
  rw [h]

/-- Two conversions that have gone through the same grammars, in the same order. -/
structure Stages.Same (s t : Stages) : Prop where
  nullable : ∀ A, A ∈ s.nullable ↔ A ∈ t.nullable
  title : (ShownStep.epsilonFree s.nullable).title = (ShownStep.epsilonFree t.nullable).title
  epsilonFree : s.epsilonFree.Same t.epsilonFree
  unitFree : s.unitFree.Same t.unitFree
  reached : s.reached.Same t.reached
  fruitful : s.fruitful.Same t.fruitful
  shaped : s.shaped.Same t.shaped
  supply : s.reshaping.supply = t.reshaping.supply
  result : s.pruned.result.Same t.pruned.result

/-- The same grammars shown under the same titles. -/
def SameShown (shown shown' : List (String × Grammar)) : Prop :=
  List.Forall₂ (fun p q => p.1 = q.1 ∧ p.2.sameAs q.2 = true) shown shown'

theorem Stages.Same.shown {s t : Stages} (hst : s.Same t) (g h : Grammar) :
    SameShown (Conversion.staged s g).steps (Conversion.staged t h).steps := by
  simp only [SameShown, Conversion.steps, List.forall₂_cons, List.Forall₂.nil, and_true,
    Grammar.sameAs_iff_same, true_and]
  exact ⟨⟨hst.title, hst.epsilonFree⟩, hst.unitFree, hst.reached, hst.fruitful, hst.shaped⟩

namespace StagedFrom

open Grammar

variable {s t : Stages}

theorem nodup_nullable (hs : StagedFrom g factor s) : s.nullable.Nodup :=
  (supported_spec hs.nullable).1.nodup

theorem forGrammar_congr (hgh : g.Same h) : NameSupply.forGrammar g = NameSupply.forGrammar h := by
  simp only [NameSupply.forGrammar, NameSupply.forGrammarWith, hgh.nonterminals, hgh.terminals]

theorem same (hs : StagedFrom g factor s) (ht : StagedFrom h factor t) (hgh : g.Same h)
    (hg : g.Valid) : s.Same t := by
  have hnullable (A : Symbol) : A ∈ s.nullable ↔ A ∈ t.nullable :=
    hgh.mem_nullable hs.nullable ht.nullable
  have hepsilonFree : s.epsilonFree.Same t.epsilonFree := by
    rw [hs.epsilonFree, ht.epsilonFree]
    exact hgh.withoutEpsilon hnullable
  have hunitFree : s.unitFree.Same t.unitFree := by
    rw [hs.unitFree, ht.unitFree]
    apply hepsilonFree.withoutUnits
    exact fun A B => hepsilonFree.mem_unitClosure hs.unitPairs ht.unitPairs
  have hreached : s.reached.Same t.reached := by
    rw [hs.reached, ht.reached]
    exact hunitFree.removeUnreachable
  have hfruitful : s.fruitful.Same t.fruitful := by
    rw [hs.fruitful, ht.fruitful]
    apply hreached.withoutUnproductive
    have hvalid := (hs.keeps_reached hg).valid
    exact fun A => hreached.mem_productive hvalid hs.productive ht.productive
  have hreshaping : s.reshaping.Same t.reshaping := by
    rw [hs.reshaping, ht.reshaping, ← forGrammar_congr hgh]
    exact hfruitful.reshaping _
  have hshaped : s.shaped.Same t.shaped := by
    rw [hs.shaped, ht.shaped]
    exact hfruitful.reshapedBy hreshaping
  constructor
  case nullable => exact hnullable
  case title =>
    apply ShownStep.title_congr
    exact sortedSymbols_congr hs.nodup_nullable ht.nodup_nullable hnullable
  case epsilonFree => exact hepsilonFree
  case unitFree => exact hunitFree
  case reached => exact hreached
  case fruitful => exact hfruitful
  case shaped => exact hshaped
  case supply => exact hreshaping.supply
  case result => exact hs.pruned.same ht.pruned hshaped (hs.keeps_shaped hg).valid

theorem same_finish (hs : StagedFrom g factor s) (ht : StagedFrom h factor t) (hgh : g.Same h)
    (hg : g.Valid) (keep : Bool) : (s.finish keep).Same (t.finish keep) := by
  have hst := hs.same ht hgh hg
  have hnullable : s.startIsNullable = t.startIsNullable := by
    apply Bool.eq_iff_iff.mpr
    simp only [Stages.startIsNullable, List.contains_iff_mem, hs.source, ht.source, hgh.start,
      hst.nullable]
  unfold Stages.finish
  rw [hnullable, ← hst.supply]
  split
  · exact hst.result.addStartEpsilon (hs.keeps_result hg).valid (hs.covers_result hg)
  · exact hst.result

end StagedFrom

/-- Both computations end in a grammar, in the same one, and have shown the same on the way. -/
def SameOutcome (p q : Showing Grammar) : Prop :=
  ∃ out out' shown shown', p.outcome = (.ok out, shown) ∧ q.outcome = (.ok out', shown') ∧
    out.sameAs out' = true ∧ SameShown shown shown'

namespace Grammar

theorem Same.sameOutcome (hs : g.Same h) (hg : g.Valid) (hf : 1 ≤ policy.factor) :
    SameOutcome (g.convertShowing policy) (h.convertShowing policy) := by
  have hh : h.Valid := hs.valid hg
  by_cases hn : g.isNormalForm policy.keepStartEpsilon = true
  · have hn' : h.isNormalForm policy.keepStartEpsilon = true := hs.isNormalForm ▸ hn
    exact ⟨g, h, [], [], outcome_of_isNormalForm hg hn, outcome_of_isNormalForm hh hn',
      sameAs_iff_same.mpr hs, .nil⟩
  · have hn' : ¬ h.isNormalForm policy.keepStartEpsilon = true := hs.isNormalForm ▸ hn
    obtain ⟨s, -, hstaged⟩ := stages_isOk g hf
    obtain ⟨t, -, hstaged'⟩ := stages_isOk h hf
    have hsame := hstaged.same_finish hstaged' hs hg policy.keepStartEpsilon
    exact ⟨_, _, _, _, hstaged.outcome_convertShowing hg hn, hstaged'.outcome_convertShowing hh hn',
      sameAs_iff_same.mpr hsame, (hstaged.same hstaged' hs hg).shown _ _⟩

/-- **Conversion does not depend on the order of listing.** Equal grammars have equal results and show
equal steps, and rules and alternatives may be given in any order and any number of times. -/
theorem convertShowing_deterministic (hf : 1 ≤ policy.factor) :
    (∀ g h : Grammar, g.validate = .ok () → g.sameAs h = true →
      SameOutcome (g.convertShowing policy) (h.convertShowing policy)) ∧
    (∀ nts ts given given' start g, create nts ts given start = .ok g → Rearranged given given' →
      ∃ h, create nts ts given' start = .ok h ∧
        SameOutcome (g.convertShowing policy) (h.convertShowing policy)) := by
  constructor
  · intro g h hvalid hsame
    exact (sameAs_iff_same.mp hsame).sameOutcome (validate_eq_ok_iff.mp hvalid) hf
  · intro nts ts given given' start g hg hr
    have hcreated := createdFrom_of_create hg
    obtain ⟨h, hh, hsame⟩ := create_of_createdFrom (hcreated.rearranged hr)
    exact ⟨h, hh, hsame.symm.sameOutcome hcreated.valid hf⟩

/-- The same rule given as two, with the empty body in both. -/
def nestedGivenTwice : List (Symbol × List GivenBody) :=
  [("S", [.symbols []]), ("S", [.symbols ["a", "S", "b"], .symbols []])]

theorem rearranged_nestedGiven : Rearranged nestedGiven nestedGivenTwice where
  lhs := by simp [nestedGiven, nestedGivenTwice]
  alternatives A alt := by
    have hsplit : nestedGivenTwice = [("S", [.symbols []])] ++ nestedGiven := rfl
    rw [hsplit, offers_append, offers_nestedGiven, offers_singleton, List.mem_singleton, ← and_or_left,
      or_left_comm, or_self]

/-- Two long bodies. Whichever is gone through first takes the first helper name. -/
def twoTails : Grammar where
  nonterminals := ["S"]
  terminals := ["a", "b"]
  rules := .ofList [("S", .ofList [["a", "a", "b"], ["b", "b", "a"]])]
  start := "S"

theorem twoTails_validate : twoTails.validate = .ok () := by
  apply validate_eq_ok_iff.mpr
  refine ⟨by decide, by decide, by decide, fun A b hb => ?_⟩
  obtain ⟨alts, hentry, hb⟩ := (Rules.mem_alternatives_ofList (by decide)).mp hb
  obtain ⟨-, rfl⟩ := Prod.mk.inj (List.mem_singleton.mp hentry)
  obtain rfl | rfl := List.mem_pair.mp (Alternatives.mem_ofList.mp hb) <;> decide

def twoTailsBackwards : Grammar :=
  { twoTails with rules := .ofList [("S", .ofList [["b", "b", "a"], ["a", "a", "b"]])] }

theorem same_twoTailsBackwards : twoTails.Same twoTailsBackwards where
  nonterminals := rfl
  terminals := rfl
  start := rfl
  rules := (Rules.Same.refl .empty).insert "S" fun _ => by
    simp only [Alternatives.mem_ofList, List.mem_pair]
    exact or_comm

/-- The listings stay apart from the first stage on, and the outcome is the same. -/
theorem convertShowing_deterministic_twoTails :
    twoTails.withoutEpsilon [] ≠ twoTailsBackwards.withoutEpsilon [] ∧
    SameOutcome (twoTails.convertShowing ⟨true, 1⟩) (twoTailsBackwards.convertShowing ⟨true, 1⟩) ∧
    ∃ g h, create ["S"] ["a", "b"] nestedGiven "S" = .ok g ∧
      create ["S"] ["a", "b"] nestedGivenTwice "S" = .ok h ∧
      SameOutcome (g.convertShowing ⟨true, 1⟩) (h.convertShowing ⟨true, 1⟩) := by
  have hf : 1 ≤ (⟨true, 1⟩ : Policy).factor := by decide
  have hsame := sameAs_iff_same.mpr same_twoTailsBackwards
  obtain ⟨g, hg, -⟩ := create_of_createdFrom createdFrom_nestedGiven
  obtain ⟨h, hh, houtcome⟩ :=
    (convertShowing_deterministic hf).2 _ _ _ _ _ g hg rearranged_nestedGiven
  have houtcomes := (convertShowing_deterministic hf).1 _ _ twoTails_validate hsame
  exact ⟨by decide, houtcomes, g, h, hg, hh, houtcome⟩

end Grammar

end ContextFree
