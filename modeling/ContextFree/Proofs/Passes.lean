import Mathlib.Data.Set.Insert
import ContextFree.Proofs.Stages
import ContextFree.NormalForm.Pass

/-!
Passes in any order. What a conversion relies on between its stages is the invariant `PassState.Safe` of
every run: no pass needs the ones that come before it in the conversion.
-/
namespace ContextFree

variable {g : Grammar} {s : PassState} {p : Pass} {factor : Int} {w : Word}

/-- The grammar is valid, over the terminals of `g`, covered by the supply, and has the words of `g`,
where the empty one does not count. -/
structure PassState.Safe (g : Grammar) (s : PassState) : Prop where
  valid : s.grammar.Valid
  terminals : s.grammar.terminals = g.terminals
  covers : s.supply.Covers s.grammar
  accepts : ∀ w, w ≠ [] → (s.grammar.Accepts w ↔ g.Accepts w)

namespace PassState.Safe

/-- A pass that only takes symbols away and keeps the language. -/
theorem keeps {h : Grammar} (hs : s.Safe g) (hkeeps : s.grammar.Keeps h)
    (hsub : ∀ A ∈ h.nonterminals, A ∈ s.grammar.nonterminals) :
    ({ s with grammar := h } : PassState).Safe g where
  valid := hkeeps.valid
  terminals := hkeeps.terminals.trans hs.terminals
  covers := hs.covers.of_subset hsub hkeeps.terminals
  accepts w hw := (hkeeps.accepts w).trans (hs.accepts w hw)

theorem removeEpsilon (hs : s.Safe g) (hf : 1 ≤ factor) :
    ∃ s', (Pass.removeEpsilon factor).apply s = .ok s' ∧ s'.Safe g := by
  obtain ⟨nulls, hnulls⟩ := s.grammar.nullable_isOk hf
  have happly : (Pass.removeEpsilon factor).apply s =
      .ok { s with grammar := s.grammar.withoutEpsilon nulls } := by
    simp only [Pass.apply, Grammar.removeEpsilon_eq_ok hnulls]
    rfl
  refine ⟨_, happly, hs.valid.withoutEpsilon nulls, hs.terminals, hs.covers, fun w hw => ?_⟩
  have hwords : (s.grammar.withoutEpsilon nulls).Accepts w ↔ s.grammar.Accepts w ∧ w ≠ [] :=
    Grammar.generates_withoutEpsilon_iff hnulls
  rw [hwords, and_iff_left hw]
  exact hs.accepts w hw

theorem removeUnits (hs : s.Safe g) (hf : 1 ≤ factor) :
    ∃ s', (Pass.removeUnits factor).apply s = .ok s' ∧ s'.Safe g := by
  obtain ⟨pairs, hpairs⟩ := s.grammar.unitClosure_isOk hf
  have happly : (Pass.removeUnits factor).apply s =
      .ok { s with grammar := s.grammar.withoutUnits pairs } := by
    simp only [Pass.apply, Grammar.removeUnits_eq_ok hpairs]
    rfl
  exact ⟨_, happly, hs.keeps (Grammar.keeps_withoutUnits hs.valid hpairs) fun _ hA => hA⟩

theorem removeUnreachable (hs : s.Safe g) :
    ({ s with grammar := s.grammar.removeUnreachable } : PassState).Safe g :=
  hs.keeps (Grammar.keeps_removeUnreachable hs.valid) fun _ hA =>
    Grammar.nonterminals_removeUnreachable_subset hA

theorem removeUnproductive (hs : s.Safe g) (hf : 1 ≤ factor) :
    ∃ s', (Pass.removeUnproductive factor).apply s = .ok s' ∧ s'.Safe g := by
  obtain ⟨productive, hproductive⟩ := s.grammar.productive_isOk hf
  have happly : (Pass.removeUnproductive factor).apply s =
      .ok { s with grammar := s.grammar.withoutUnproductive productive } := by
    simp only [Pass.apply, Grammar.removeUnproductive_eq_ok hproductive]
    rfl
  exact ⟨_, happly, hs.keeps (Grammar.keeps_withoutUnproductive hs.valid hproductive) fun _ hA =>
    Grammar.nonterminals_withoutUnproductive_subset hA⟩

theorem reshape (hs : s.Safe g) :
    (⟨(s.grammar.reshape s.supply).1, (s.grammar.reshape s.supply).2⟩ : PassState).Safe g := by
  have hkeeps := Grammar.keeps_reshapedBy hs.valid hs.covers
  have hfaithful := (Reshaping.reshaping_spec hs.valid hs.covers).1
  exact ⟨hkeeps.valid, hkeeps.terminals.trans hs.terminals, hfaithful.covers,
    fun w hw => (hkeeps.accepts w).trans (hs.accepts w hw)⟩

theorem addStartEpsilon (hs : s.Safe g) :
    (⟨(s.grammar.addStartEpsilon s.supply).1, (s.grammar.addStartEpsilon s.supply).2⟩ :
      PassState).Safe g := by
  have hstart := Grammar.addStartEpsilon_spec hs.valid hs.covers
  refine ⟨hstart.valid hs.valid, hstart.terminals.trans hs.terminals,
    Grammar.addStartEpsilon_covers hs.covers, fun w hw => ?_⟩
  rw [hstart.accepts_iff hs.valid, or_iff_left hw]
  exact hs.accepts w hw

theorem register (hs : s.Safe g) (name : Symbol) :
    ({ s with supply := s.supply.register name } : PassState).Safe g := by
  have hmore : ∀ t ∈ s.supply.registered, t ∈ (s.supply.register name).registered :=
    fun t ht => NameSupply.mem_registered_register.mpr (.inl ht)
  exact ⟨hs.valid, hs.terminals, ⟨fun t ht => hmore t (hs.covers.1 t ht),
    fun t ht => hmore t (hs.covers.2 t ht)⟩, hs.accepts⟩

/-- One pass succeeds and leads to a safe state again. -/
theorem apply (hs : s.Safe g) (hp : p.HasRounds) : ∃ s', p.apply s = .ok s' ∧ s'.Safe g := by
  cases p with
  | removeEpsilon factor => exact hs.removeEpsilon hp
  | removeUnits factor => exact hs.removeUnits hp
  | removeUnreachable => exact ⟨_, rfl, hs.removeUnreachable⟩
  | removeUnproductive factor => exact hs.removeUnproductive hp
  | reshape => exact ⟨_, rfl, hs.reshape⟩
  | addStartEpsilon => exact ⟨_, rfl, hs.addStartEpsilon⟩
  | register name => exact ⟨_, rfl, hs.register name⟩

/-- Every state of a run is safe. -/
theorem run {passes : List Pass} (hs : s.Safe g) (hp : ∀ p ∈ passes, p.HasRounds) :
    ∃ states, Pass.run passes s = .ok states ∧ states.length = passes.length + 1 ∧
      ∀ s' ∈ states, s'.Safe g := by
  induction passes generalizing s with
  | nil => exact ⟨[s], rfl, rfl, by simpa using hs⟩
  | cons p rest ih =>
    obtain ⟨hhead, hrest⟩ := List.forall_mem_cons.mp hp
    obtain ⟨s', happly, hs'⟩ := hs.apply hhead
    obtain ⟨states, hrun, hlen, hsafe⟩ := ih hs' hrest
    have hall : Pass.run (p :: rest) s = .ok (s :: states) := by
      simp only [Pass.run, happly, hrun, bind, Except.bind]
      rfl
    exact ⟨s :: states, hall, by simp [hlen], List.forall_mem_cons.mpr ⟨hs, hsafe⟩⟩

end PassState.Safe

theorem safe_forGrammarWith (hg : g.Valid) (letters : List Symbol) (stem : String) :
    (⟨g, .forGrammarWith g letters stem⟩ : PassState).Safe g :=
  ⟨hg, rfl, NameSupply.forGrammarWith_covers g letters stem, fun _ _ => Iff.rfl⟩

namespace Grammar

/-- **Any order of passes is safe.** Each one succeeds, and every grammar on the way is valid, over the
same terminals, covered by the supply, and has the same words except for the empty one. -/
theorem passes_safe (hg : g.validate = .ok ()) (letters : List Symbol) (stem : String)
    {passes : List Pass} (hp : ∀ p ∈ passes, p.HasRounds) :
    ∃ states, Pass.run passes ⟨g, .forGrammarWith g letters stem⟩ = .ok states ∧
      states.length = passes.length + 1 ∧
      ∀ s ∈ states,
        s.grammar.validate = .ok () ∧
        s.grammar.terminals = g.terminals ∧
        s.supply.Covers s.grammar ∧
        s.grammar.language \ {[]} = g.language \ {[]} := by
  have hstart := safe_forGrammarWith (validate_eq_ok_iff.mp hg) letters stem
  obtain ⟨states, hrun, hlen, hsafe⟩ := hstart.run hp
  refine ⟨states, hrun, hlen, fun s hs => ?_⟩
  have hs := hsafe s hs
  have hwords : s.grammar.language \ {[]} = g.language \ {[]} := by
    ext w
    simp only [Set.mem_sdiff, Set.mem_singleton_iff, mem_language_iff]
    exact and_congr_left fun hw => hs.accepts w hw
  exact ⟨validate_eq_ok_iff.mpr hs.valid, hs.terminals, hs.covers, hwords⟩

theorem passes_safe_nested : ∃ states,
    Pass.run [.reshape, .addStartEpsilon, .register "Z", .removeEpsilon 1, .reshape, .removeUnits 2,
      .removeUnproductive 1, .removeUnreachable] ⟨nested, .forGrammarWith nested ["S", "Z"] "X"⟩ =
        .ok states ∧
      states.length = 9 ∧
      ∀ s ∈ states, s.grammar.validate = .ok () ∧ s.grammar.terminals = ["a", "b"] ∧
        s.supply.Covers s.grammar ∧ s.grammar.language \ {[]} = nested.language \ {[]} :=
  passes_safe nested_validate ["S", "Z"] "X" (by simp [Pass.HasRounds])

end Grammar

end ContextFree
