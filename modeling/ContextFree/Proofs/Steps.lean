import ContextFree.Proofs.Reduced

/-!
What each shown step has reached, and that no later stage loses it. A body that a stage keeps or takes over
was a body before, and a symbol that it keeps as a non-terminal was one before, so a grammar that has lost
its empty and its unit bodies never gets one back (`EpsilonFree.of_subset`, `UnitFree.of_subset`). Only the
start takes an empty body on in the end, and only where the policy asks for it
(`convertShowing_milestones`).
-/
namespace ContextFree

variable {g h : Grammar} {A : Symbol} {b : Body} {factor : Int} {policy : Policy} {keep : Bool}

namespace Grammar

/-- No left side has the empty body. -/
def EpsilonFree (g : Grammar) : Prop := ∀ A, [] ∉ g.alternatives A

/-- No body is a single non-terminal. -/
def UnitFree (g : Grammar) : Prop := ∀ A, ∀ b ∈ g.alternatives A, g.isUnit b = false

/-- The bodies of `h` are bodies of `g`, and so are its non-terminals. -/
structure Within (h g : Grammar) : Prop where
  nonterminals : ∀ A ∈ h.nonterminals, A ∈ g.nonterminals
  bodies : ∀ A, ∀ b ∈ h.alternatives A, b ∈ g.alternatives A

theorem EpsilonFree.of_subset (hg : g.EpsilonFree) (hh : h.Within g) : h.EpsilonFree :=
  fun A hA => hg A (hh.bodies A [] hA)

theorem UnitFree.of_subset (hg : g.UnitFree) (hh : h.Within g) : h.UnitFree := by
  intro A b hb
  apply Bool.eq_false_iff.mpr
  intro hunit
  obtain ⟨B, hB, rfl⟩ := isUnit_iff.mp hunit
  have hold : g.isUnit [B] = true := isUnit_iff.mpr ⟨B, hh.nonterminals B hB, rfl⟩
  rw [hg A [B] (hh.bodies A [B] hb)] at hold
  cases hold

theorem within_removeUnreachable (g : Grammar) : g.removeUnreachable.Within g where
  nonterminals _ := nonterminals_removeUnreachable_subset
  bodies _ _ hb := (mem_alternatives_removeUnreachable.mp hb).2

theorem within_withoutUnproductive (g : Grammar) (productive : List Symbol) :
    (g.withoutUnproductive productive).Within g where
  nonterminals _ := nonterminals_withoutUnproductive_subset
  bodies _ _ hb := (mem_alternatives_withoutUnproductive.mp hb).2.1

theorem NormalBody.isUnit_eq_false (hg : g.Valid) (hb : g.NormalBody b) : g.isUnit b = false := by
  cases hb with
  | terminal ha =>
    apply Bool.eq_false_iff.mpr
    intro hunit
    obtain ⟨B, hB, heq⟩ := isUnit_iff.mp hunit
    exact hg.disjoint B hB (List.singleton_inj.mp heq ▸ ha)
  | pair => rfl

theorem Proper.epsilonFree (hp : g.Proper) : g.EpsilonFree := by
  intro A hA
  obtain hlen | ⟨a, -, heq⟩ := hp A [] hA
  · simp at hlen
  · cases heq

theorem Proper.unitFree (hg : g.Valid) (hp : g.Proper) : g.UnitFree := by
  intro A b hb
  obtain hlen | ⟨a, ha, rfl⟩ := hp A b hb
  · match b, hlen with
    | _ :: _ :: _, _ => rfl
  · exact (NormalBody.terminal ha).isUnit_eq_false hg

theorem Normal.proper (hn : g.Normal) : g.Proper := by
  intro A b hb
  cases hn A b hb with
  | terminal ha => exact .inr ⟨_, ha, rfl⟩
  | pair => exact .inl (Nat.le_refl 2)

/-- In normal form no body is a unit, and only the start may have the empty one. -/
theorem unitFree_of_isNormalForm (hg : g.Valid) (hn : g.isNormalForm keep = true) :
    g.UnitFree ∧ ∀ A, [] ∈ g.alternatives A → A = g.start ∧ keep = true := by
  have hbodies := (isNormalForm_iff hg).mp hn
  constructor
  · intro A b hb
    obtain hbody | ⟨rfl, -⟩ := hbodies A b hb
    · exact hbody.isUnit_eq_false hg
    · rfl
  · intro A hA
    obtain hbody | ⟨-, hkeep, hstart, -⟩ := hbodies A [] hA
    · exact absurd rfl hbody.ne_nil
    · exact ⟨hstart, hkeep⟩

/-! ## The shown steps -/

/-- What the five grammars that are shown have reached. -/
structure Milestones (g₁ g₂ g₃ g₄ g₅ : Grammar) : Prop where
  valid : ∀ h ∈ [g₁, g₂, g₃, g₄, g₅], h.validate = .ok ()
  epsilonFree : ∀ h ∈ [g₁, g₂, g₃, g₄, g₅], h.EpsilonFree
  unitFree : ∀ h ∈ [g₂, g₃, g₄, g₅], h.UnitFree
  reached : ∀ A ∈ g₃.nonterminals, g₃.Reaches A
  productive : ∀ A ∈ g₄.nonterminals, A = g₄.start ∨ ∃ w, g₄.Generates A w
  fruitful : ∀ A, ∀ b ∈ g₄.alternatives A, ∀ s ∈ b,
    s ∈ g₄.terminals ∨ s ∈ g₄.nonterminals ∧ ∃ w, g₄.Generates s w
  normal : g₅.isNormalForm false = true

end Grammar

namespace StagedFrom

open Grammar

variable {s : Stages}

theorem within_reached (hs : StagedFrom g factor s) : s.reached.Within s.unitFree := by
  rw [hs.reached]
  exact within_removeUnreachable _

theorem within_fruitful (hs : StagedFrom g factor s) : s.fruitful.Within s.reached := by
  rw [hs.fruitful]
  exact within_withoutUnproductive _ _

/-- What is productive after the stage that drops all else. -/
theorem exists_generates_fruitful (hs : StagedFrom g factor s) (hg : g.Valid)
    (hA : A ∈ s.productive) : A ∈ s.fruitful.nonterminals ∧ ∃ w, s.fruitful.Generates A w := by
  have hreached := (hs.keeps_reached hg).valid
  have hdeclared := ((mem_productive_iff hreached hs.productive).mp hA).1
  rw [hs.fruitful]
  exact ⟨mem_nonterminals_withoutUnproductive.mpr ⟨hdeclared, .inl hA⟩,
    exists_generates_withoutUnproductive hreached hs.productive hA⟩

theorem milestones (hs : StagedFrom g factor s) (hg : g.Valid) :
    Milestones s.epsilonFree s.unitFree s.reached s.fruitful s.shaped := by
  have hunits := hs.keeps_unitFree hg
  have hproper := hs.proper_unitFree hg
  have hshaped := (hs.keeps_shaped hg).valid
  have hnormal := hs.normal_shaped hg
  have hunitFree := hproper.unitFree hunits.valid
  have hempty₁ : s.epsilonFree.EpsilonFree := by
    rw [hs.epsilonFree]
    exact nil_notMem_withoutEpsilon
  have hempty₃ := hproper.epsilonFree.of_subset hs.within_reached
  have hunit₃ := hunitFree.of_subset hs.within_reached
  constructor
  case valid =>
    simp only [List.forall_mem_cons, validate_eq_ok_iff]
    exact ⟨hs.valid_epsilonFree hg, hunits.valid, (hs.keeps_reached hg).valid,
      (hs.keeps_fruitful hg).valid, hshaped, by simp⟩
  case epsilonFree =>
    simp only [List.forall_mem_cons]
    exact ⟨hempty₁, hproper.epsilonFree, hempty₃, hempty₃.of_subset hs.within_fruitful,
      hnormal.proper.epsilonFree, by simp⟩
  case unitFree =>
    simp only [List.forall_mem_cons]
    exact ⟨hunitFree, hunit₃, hunit₃.of_subset hs.within_fruitful,
      hnormal.proper.unitFree hshaped, by simp⟩
  case reached =>
    rw [hs.reached]
    exact fun A => reaches_of_mem_removeUnreachable
  case productive =>
    intro A hA
    rw [hs.fruitful] at hA
    obtain ⟨-, hproductive | hstart⟩ := mem_nonterminals_withoutUnproductive.mp hA
    · exact .inr (hs.exists_generates_fruitful hg hproductive).2
    · refine .inl (hstart.trans ?_)
      rw [hs.fruitful]
      rfl
  case fruitful =>
    intro A b hb t ht
    rw [hs.fruitful] at hb
    obtain ⟨-, -, hbody⟩ := mem_alternatives_withoutUnproductive.mp hb
    refine (hbody t ht).imp (fun hterminal => ?_) (hs.exists_generates_fruitful hg)
    rw [hs.fruitful]
    exact hterminal
  case normal => exact hnormal.isNormalForm hshaped false

/-- Pruning brings no empty and no unit body back. -/
theorem later_free (hs : StagedFrom g factor s) (hg : g.Valid) :
    ∀ h ∈ [s.shaped.removeUnreachable, s.pruned.fruitful, s.pruned.fruitful.removeUnreachable],
      h.EpsilonFree ∧ h.UnitFree := by
  have hproper := (hs.normal_shaped hg).proper
  have hempty₁ := hproper.epsilonFree.of_subset (within_removeUnreachable s.shaped)
  have hunit₁ := (hproper.unitFree (hs.keeps_shaped hg).valid).of_subset
    (within_removeUnreachable s.shaped)
  have hfruitful : s.pruned.fruitful.Within s.shaped.removeUnreachable := by
    rw [hs.pruned.fruitful, hs.pruned.reached]
    exact within_withoutUnproductive _ _
  have hempty₂ := hempty₁.of_subset hfruitful
  have hunit₂ := hunit₁.of_subset hfruitful
  have hlast := within_removeUnreachable s.pruned.fruitful
  simp only [List.forall_mem_cons]
  exact ⟨⟨hempty₁, hunit₁⟩, ⟨hempty₂, hunit₂⟩, ⟨hempty₂.of_subset hlast, hunit₂.of_subset hlast⟩,
    by simp⟩

end StagedFrom

namespace Grammar

/-- **Five steps are shown, and none loses what was reached.** The stages that follow bring no empty and
no unit body back, except the empty body that the policy asks for. -/
theorem convertShowing_milestones (hg : g.validate = .ok ())
    (hn : g.isNormalForm policy.keepStartEpsilon = false) (hf : 1 ≤ policy.factor) :
    ∃ nulls g₁ g₂ g₃ g₄ g₅ fruitful out,
      (g.convertShowing policy).outcome = (.ok out, [
        ((ShownStep.epsilonFree nulls).title, g₁), (ShownStep.unitFree.title, g₂),
        (ShownStep.reached.title, g₃), (ShownStep.fruitful.title, g₄),
        (ShownStep.shaped.title, g₅)]) ∧
      Milestones g₁ g₂ g₃ g₄ g₅ ∧
      g₅.removeUnreachable.removeUnproductive policy.factor = .ok fruitful ∧
      (∀ h ∈ [g₅.removeUnreachable, fruitful, fruitful.removeUnreachable],
        h.EpsilonFree ∧ h.UnitFree) ∧
      out.UnitFree ∧
      ∀ A, [] ∈ out.alternatives A →
        A = out.start ∧ policy.keepStartEpsilon = true ∧ g.Accepts [] := by
  have hvalid : g.Valid := validate_eq_ok_iff.mp hg
  obtain ⟨s, hstages, hs⟩ := stages_isOk g hf
  have houtcome := hs.outcome_convertShowing hvalid (by simp [hn])
  have hfinish := hs.valid_finish hvalid policy.keepStartEpsilon
  have hnormal := hs.isNormalForm_finish hvalid policy.keepStartEpsilon
  obtain ⟨hunit, hempty⟩ := unitFree_of_isNormalForm hfinish hnormal
  refine ⟨s.nullable, s.epsilonFree, s.unitFree, s.reached, s.fruitful, s.shaped,
    s.pruned.fruitful, s.finish policy.keepStartEpsilon, houtcome, hs.milestones hvalid,
    hs.prune_eq, hs.later_free hvalid, hunit, fun A hA => ?_⟩
  obtain ⟨hstart, hkeep⟩ := hempty A hA
  have hword : (s.finish policy.keepStartEpsilon).Accepts [] := by
    refine generates_of_body hfinish.start_mem (hstart ▸ hA) .nil
  exact ⟨hstart, hkeep, ((hs.accepts_finish hvalid policy.keepStartEpsilon).mp hword).1⟩

theorem convertShowing_milestones_nested : ∃ nulls g₁ g₂ g₃ g₄ g₅ fruitful out,
    (nested.convertShowing ⟨true, 1⟩).outcome = (.ok out, [
      ((ShownStep.epsilonFree nulls).title, g₁), (ShownStep.unitFree.title, g₂),
      (ShownStep.reached.title, g₃), (ShownStep.fruitful.title, g₄),
      (ShownStep.shaped.title, g₅)]) ∧
    Milestones g₁ g₂ g₃ g₄ g₅ ∧
    g₅.removeUnreachable.removeUnproductive 1 = .ok fruitful ∧
    (∀ h ∈ [g₅.removeUnreachable, fruitful, fruitful.removeUnreachable],
      h.EpsilonFree ∧ h.UnitFree) ∧
    out.UnitFree ∧
    ∀ A, [] ∈ out.alternatives A →
      A = out.start ∧ (⟨true, 1⟩ : Policy).keepStartEpsilon = true ∧ nested.Accepts [] :=
  convertShowing_milestones nested_validate (nested_not_normal true) (by decide)

end Grammar

end ContextFree
