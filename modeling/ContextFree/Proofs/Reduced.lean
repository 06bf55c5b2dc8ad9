import ContextFree.Proofs.Conversion

/-!
Grammars without useless symbols. What is left when first the unproductive and then the unreachable symbols
go is reduced (`reduced_pruned`): what is reached after a symbol has gone was reached before, so the second
pass makes nothing unproductive. A start that takes the empty word on keeps that
(`Reduced.addStartEpsilon`); the old start of a grammar with a fresh one is still reached, since a fresh one
is taken only where the old one occurs in a body.
-/
namespace ContextFree

variable {g h : Grammar} {A : Symbol} {b : Body} {factor : Int} {productive : List Symbol}
  {supply : NameSupply} {policy : Policy}

namespace Grammar

/-- Each non-terminal is reached and derives a word. Where the start derives none, it is left alone and
without bodies. -/
structure Reduced (g : Grammar) : Prop where
  reaches : ∀ A ∈ g.nonterminals, g.Reaches A
  generates : (∃ w, g.Accepts w) → ∀ A ∈ g.nonterminals, ∃ w, g.Generates A w
  bare : (¬ ∃ w, g.Accepts w) → g.nonterminals = [g.start] ∧ ∀ A b, b ∉ g.alternatives A

/-! ## Pruning -/

theorem Reaches.removeUnreachable (hA : g.Reaches A) : g.removeUnreachable.Reaches A := by
  induction hA with
  | start => exact .start
  | body hA hb hB declared ih =>
    have hkept := mem_alternatives_removeUnreachable.mpr ⟨hA, hb⟩
    have hdeclared := mem_nonterminals_removeUnreachable.mpr ⟨declared, hA.body hb hB declared⟩
    exact ih.body hkept hB hdeclared

theorem reaches_of_mem_removeUnreachable (hA : A ∈ g.removeUnreachable.nonterminals) :
    g.removeUnreachable.Reaches A :=
  (mem_nonterminals_removeUnreachable.mp hA).2.removeUnreachable

/-- From a start without bodies nothing else is reached. -/
theorem Reaches.eq_start (hbare : ∀ b, b ∉ g.alternatives g.start) (hA : g.Reaches A) :
    A = g.start := by
  induction hA with
  | start => rfl
  | body _ hb _ _ ih => exact absurd (ih ▸ hb) (hbare _)

theorem exists_generates_withoutUnproductive (hg : g.Valid)
    (hp : g.productive factor = .ok productive) (hA : A ∈ productive) :
    ∃ w, (g.withoutUnproductive productive).Generates A w := by
  obtain ⟨-, w, hw⟩ := (mem_productive_iff hg hp).mp hA
  exact ⟨w, (yields_withoutUnproductive_iff hg hp).mpr hw⟩

/-- A start that derives no word has no body left, since all that is left of bodies is productive. -/
theorem notMem_alternatives_withoutUnproductive (hg : g.Valid)
    (hp : g.productive factor = .ok productive) (hstart : g.start ∉ productive) :
    b ∉ (g.withoutUnproductive productive).alternatives g.start := by
  intro hb
  obtain ⟨-, hb, hbody⟩ := mem_alternatives_withoutUnproductive.mp hb
  obtain ⟨-, hclosed⟩ := supported_spec hp
  apply hstart
  apply hclosed g.start hg.start_mem b hb
  intro s hs
  exact (hbody s hs).imp_left isTerminal_iff.mpr

theorem eq_singleton_of_nodup {α : Type} {as : List α} {a : α} (hn : as.Nodup) (ha : a ∈ as)
    (hall : ∀ x ∈ as, x = a) : as = [a] := by
  match as, ha with
  | [x], _ => rw [hall x List.mem_cons_self]
  | x :: y :: rest, _ =>
    have hxy : x = y := (hall x (by simp)).trans (hall y (by simp)).symm
    exact absurd hn (by simp [hxy])

theorem reduced_pruned (hg : g.Valid) (hp : g.productive factor = .ok productive) :
    (g.withoutUnproductive productive).removeUnreachable.Reduced := by
  have hfruitful := keeps_withoutUnproductive hg hp
  have hresult := hfruitful.trans (keeps_removeUnreachable hfruitful.valid)
  have hwords {A : Symbol} (hA : (g.withoutUnproductive productive).Reaches A)
      (hw : ∃ w, (g.withoutUnproductive productive).Generates A w) :
      ∃ w, (g.withoutUnproductive productive).removeUnreachable.Generates A w := by
    obtain ⟨w, hw⟩ := hw
    have hbody : ∀ s ∈ [A], s ∈ (g.withoutUnproductive productive).terminals ∨
        (g.withoutUnproductive productive).Reaches s := by simpa using .inr hA
    exact ⟨w, (yields_removeUnreachable_iff hbody hfruitful.valid).mpr hw⟩
  have hstart : g.start ∈ productive ↔
      ∃ w, (g.withoutUnproductive productive).removeUnreachable.Accepts w := by
    rw [mem_productive_iff hg hp, and_iff_right hg.start_mem]
    exact exists_congr fun w => (hresult.accepts w).symm
  refine ⟨fun A => reaches_of_mem_removeUnreachable, fun hsome A hA => ?_, fun hnone => ?_⟩
  · obtain ⟨hA, hreached⟩ := mem_nonterminals_removeUnreachable.mp hA
    refine hwords hreached (exists_generates_withoutUnproductive hg hp ?_)
    obtain ⟨-, hproductive | rfl⟩ := mem_nonterminals_withoutUnproductive.mp hA
    · exact hproductive
    · exact hstart.mpr hsome
  · have hbare : ∀ b, b ∉ (g.withoutUnproductive productive).alternatives g.start := fun b =>
      notMem_alternatives_withoutUnproductive hg hp fun hs => hnone (hstart.mp hs)
    constructor
    · apply eq_singleton_of_nodup (nodup_distinct _) hresult.valid.start_mem
      intro A hA
      have heq : A = (g.withoutUnproductive productive).start :=
        (mem_nonterminals_removeUnreachable.mp hA).2.eq_start hbare
      exact heq
    · intro A b hb
      obtain ⟨hA, hb⟩ := mem_alternatives_removeUnreachable.mp hb
      exact hbare b (hA.eq_start hbare ▸ hb)

/-! ## A start with the empty body -/

theorem addStartEpsilon_start (g : Grammar) (supply : NameSupply) :
    (g.addStartEpsilon supply).1.start = g.start ∨ ∃ A, ∃ b ∈ g.alternatives A, g.start ∈ b := by
  cases g.addStartEpsilon_cases supply with
  | inl hfresh => exact .inr (startOccurs_iff.mp hfresh.1)
  | inr hkept => exact .inl (by rw [hkept.2])

end Grammar

namespace WithStartEpsilon

/-- Everything a body holds is reached if its left side is the old start or is reached. -/
theorem reaches_body (hg : g.Valid) (hh : WithStartEpsilon g h) (hA : A = g.start ∨ h.Reaches A)
    (hb : b ∈ g.alternatives A) {B : Symbol} (hB : B ∈ b) (declared : B ∈ g.nonterminals) :
    h.Reaches B := by
  have hdeclared : B ∈ h.nonterminals := (hh.nonterminals B).mpr (.inr declared)
  have hfromStart (hb : b ∈ g.alternatives g.start) : h.Reaches B :=
    Grammar.Reaches.start.body ((hh.startBodies b).mpr (.inr hb)) hB hdeclared
  obtain rfl | hA := hA
  · exact hfromStart hb
  · by_cases hstart : A = h.start
    · have hold : A ∈ g.nonterminals := hg.lhs_mem A (Rules.mem_keys_of_mem_alternatives hb)
      have hsame : A = g.start := hstart.trans (hh.start.resolve_right (hstart ▸ not_not.mpr hold))
      exact hfromStart (hsame ▸ hb)
    · exact hA.body (hh.others A hstart ▸ hb) hB hdeclared

theorem reaches (hg : g.Valid) (hh : WithStartEpsilon g h) (hA : g.Reaches A) :
    A = g.start ∨ h.Reaches A := by
  induction hA with
  | start => exact .inl rfl
  | body _ hb hB declared ih => exact .inr (hh.reaches_body hg ih hb hB declared)

/-- A fresh start is taken only where the old one occurs in a body, so the old one is still reached. -/
theorem reaches_all (hg : g.Valid) (hh : WithStartEpsilon g h)
    (hstart : h.start = g.start ∨ ∃ A, ∃ b ∈ g.alternatives A, g.start ∈ b)
    (hall : ∀ A ∈ g.nonterminals, g.Reaches A) : ∀ A ∈ h.nonterminals, h.Reaches A := by
  intro A hA
  obtain rfl | hold := (hh.nonterminals A).mp hA
  · exact .start
  · obtain rfl | hreached := hh.reaches hg (hall A hold)
    · obtain hsame | ⟨B, b, hb, hmem⟩ := hstart
      · exact hsame ▸ .start
      · have hB : B ∈ g.nonterminals := hg.lhs_mem B (Rules.mem_keys_of_mem_alternatives hb)
        exact hh.reaches_body hg (hh.reaches hg (hall B hB)) hb hmem hg.start_mem
    · exact hreached

theorem accepts_nil (hg : g.Valid) (hh : WithStartEpsilon g h) : h.Accepts [] :=
  (hh.accepts_iff hg).mpr (.inr rfl)

theorem reduced (hg : g.Valid) (hh : WithStartEpsilon g h) (hr : g.Reduced)
    (hstart : h.start = g.start ∨ ∃ A, ∃ b ∈ g.alternatives A, g.start ∈ b) : h.Reduced := by
  have hempty := hh.accepts_nil hg
  refine ⟨hh.reaches_all hg hstart hr.reaches, fun _ A hA => ?_,
    fun hnone => absurd ⟨[], hempty⟩ hnone⟩
  by_cases hA' : A = h.start
  · exact ⟨[], hA' ▸ hempty⟩
  · have hold : A ∈ g.nonterminals := ((hh.nonterminals A).mp hA).resolve_left hA'
    have hsome : ∃ w, g.Accepts w := by
      by_contra hnone
      obtain ⟨honly, hbare⟩ := hr.bare hnone
      obtain hsame | ⟨B, b, hb, -⟩ := hstart
      · rw [honly, List.mem_singleton, ← hsame] at hold
        exact hA' hold
      · exact hbare B b hb
    obtain ⟨w, hw⟩ := hr.generates hsome A hold
    have hbody : h.start ∉ [A] := by simpa using Ne.symm hA'
    exact ⟨w, (hh.yields_iff hbody).mpr hw⟩

end WithStartEpsilon

/-! ## The conversion -/

theorem PrunedFrom.reduced {p : Pruned} (hp : PrunedFrom g factor p) (hg : g.Valid) :
    p.result.Reduced := by
  have hreached : p.reached.Valid := by
    rw [hp.reached]
    exact hg.removeUnreachable
  rw [hp.result, hp.fruitful]
  exact Grammar.reduced_pruned hreached hp.productive

theorem StagedFrom.reduced_finish {s : Stages} (hs : StagedFrom g factor s) (hg : g.Valid)
    (keep : Bool) : (s.finish keep).Reduced := by
  have hvalid := (hs.keeps_result hg).valid
  have hpruned := hs.pruned.reduced (hs.keeps_shaped hg).valid
  unfold Stages.finish
  split
  · have hstart := Grammar.addStartEpsilon_spec hvalid (hs.covers_result hg)
    exact hstart.reduced hvalid hpruned (Grammar.addStartEpsilon_start _ _)
  · exact hpruned

namespace Grammar

theorem toNormalForm_of_staged {s : Stages} (hg : g.Valid)
    (hn : ¬ g.isNormalForm policy.keepStartEpsilon = true)
    (hstages : g.stages policy.factor = .ok s) (hs : StagedFrom g policy.factor s) :
    g.toNormalForm policy = .ok (s.finish policy.keepStartEpsilon) := by
  simp only [toNormalForm, convert_of_staged hg hn hstages hs]
  rfl

theorem productionCount_eq_zero (h : ∀ A b, b ∉ g.alternatives A) : g.productionCount = 0 := by
  have hsize : ∀ e ∈ g.rules.entries, e.2.size = 0 := by
    intro e he
    apply List.length_eq_zero_iff.mpr
    apply List.eq_nil_iff_forall_not_mem.mpr
    intro b hb
    exact h e.1 b (Rules.mem_alternatives_iff.mpr ⟨e.2, Rules.get?_eq_some_iff.mpr he, hb⟩)
  unfold productionCount Rules.count
  generalize g.rules.entries = es at hsize
  induction es with
  | nil => rfl
  | cons e es ih =>
    obtain ⟨he, hes⟩ := List.forall_mem_cons.mp hsize
    rw [List.foldr_cons, he, ih hes]

/-- **A converted grammar holds nothing useless.** Each non-terminal is reached, and derives a word if
there is any; if there is none, the start is all that is left. -/
theorem toNormalForm_reduced (hg : g.validate = .ok ())
    (hn : g.isNormalForm policy.keepStartEpsilon = false) (hf : 1 ≤ policy.factor) :
    ∃ out, g.toNormalForm policy = .ok out ∧
      (∀ A ∈ out.nonterminals, out.Reaches A) ∧
      (out.language.Nonempty → ∀ A ∈ out.nonterminals, ∃ w, out.Generates A w) ∧
      (out.language = ∅ → out.nonterminals = [out.start] ∧ out.productionCount = 0) := by
  have hvalid : g.Valid := validate_eq_ok_iff.mp hg
  obtain ⟨s, hstages, hs⟩ := stages_isOk g hf
  have hr := hs.reduced_finish hvalid policy.keepStartEpsilon
  refine ⟨_, toNormalForm_of_staged hvalid (by simp [hn]) hstages hs, hr.reaches, ?_, ?_⟩
  · rintro ⟨w, hw⟩
    exact hr.generates ⟨w, mem_language_iff.mp hw⟩
  · intro hempty
    have hnone : ¬ ∃ w, (s.finish policy.keepStartEpsilon).Accepts w := by
      rintro ⟨w, hw⟩
      exact Set.eq_empty_iff_forall_notMem.mp hempty w (mem_language_iff.mpr hw)
    obtain ⟨honly, hbare⟩ := hr.bare hnone
    exact ⟨honly, productionCount_eq_zero hbare⟩

theorem nested_not_normal (keep : Bool) : nested.isNormalForm keep = false := by
  have hb : ["a", "S", "b"] ∈ nested.alternatives "S" :=
    mem_alternatives_nested.mpr ⟨rfl, .inl rfl⟩
  apply Bool.eq_false_iff.mpr
  intro hn
  obtain hbody | ⟨hempty, -⟩ := (isNormalForm_iff (validate_eq_ok_iff.mp nested_validate)).mp hn _ _ hb
  · cases hbody
  · cases hempty

theorem toNormalForm_reduced_nested : ∃ out, nested.toNormalForm ⟨true, 1⟩ = .ok out ∧
    (∀ A ∈ out.nonterminals, out.Reaches A) ∧
    (out.language.Nonempty → ∀ A ∈ out.nonterminals, ∃ w, out.Generates A w) ∧
    (out.language = ∅ → out.nonterminals = [out.start] ∧ out.productionCount = 0) :=
  toNormalForm_reduced nested_validate (nested_not_normal true) (by decide)

end Grammar

end ContextFree
