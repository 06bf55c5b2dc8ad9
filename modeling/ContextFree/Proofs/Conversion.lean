import Mathlib.Data.Set.Insert
import ContextFree.Proofs.Stages
import ContextFree.NormalForm.Showing

/-!
The conversion from beginning to end. On a valid grammar it succeeds whenever a round is allowed, and its
result is a valid grammar in normal form with the language of the first one, up to the empty word where
that is not wanted (`convert_spec`). Going stage by stage ends in the same way, and has shown the five
steps, or nothing if there is an error (`outcome_convertShowing`).
-/
namespace ContextFree

variable {g h : Grammar} {w : Word} {policy : Policy}

namespace Grammar

/-- What is promised of the result of a conversion. -/
structure ConvertedTo (g : Grammar) (policy : Policy) (h : Grammar) : Prop where
  valid : h.Valid
  normal : h.isNormalForm policy.keepStartEpsilon = true
  terminals : h.terminals = g.terminals
  accepts : ∀ w, h.Accepts w ↔ g.Accepts w ∧ (w = [] → policy.keepStartEpsilon = true)

/-- A grammar in normal form is its own result: without the excuse it has no empty word to lose. -/
theorem convertedTo_self (hg : g.Valid) (hn : g.isNormalForm policy.keepStartEpsilon = true) :
    g.ConvertedTo policy g := by
  refine ⟨hg, hn, rfl, fun w => ⟨fun hw => ⟨hw, fun he => ?_⟩, And.left⟩⟩
  cases hkeep : policy.keepStartEpsilon with
  | true => rfl
  | false =>
    rw [hkeep, isNormalForm_false_iff hg] at hn
    have hempty : ∀ A, [] ∉ g.alternatives A := fun A hA => (hn A [] hA).ne_nil rfl
    exact absurd he (ne_nil_of_generates hempty hw)

theorem convertedTo_finish {s : Stages} (hs : StagedFrom g policy.factor s) (hg : g.Valid) :
    g.ConvertedTo policy (s.finish policy.keepStartEpsilon) where
  valid := hs.valid_finish hg policy.keepStartEpsilon
  normal := hs.isNormalForm_finish hg policy.keepStartEpsilon
  terminals := hs.terminals_finish hg policy.keepStartEpsilon
  accepts _ := hs.accepts_finish hg policy.keepStartEpsilon

theorem convert_of_isNormalForm (hg : g.Valid)
    (hn : g.isNormalForm policy.keepStartEpsilon = true) :
    g.convert policy = .ok (.unchanged g) := by
  simp only [convert, validate_eq_ok_iff.mpr hg, hn]
  rfl

theorem convert_of_staged {s : Stages} (hg : g.Valid)
    (hn : ¬ g.isNormalForm policy.keepStartEpsilon = true)
    (hstages : g.stages policy.factor = .ok s) (hs : StagedFrom g policy.factor s) :
    g.convert policy = .ok (.staged s (s.finish policy.keepStartEpsilon)) := by
  have hnormal := hs.isNormalForm_finish hg policy.keepStartEpsilon
  simp only [convert, validate_eq_ok_iff.mpr hg, hn, hstages, bind, Except.bind, hnormal]
  rfl

theorem convert_spec (hg : g.Valid) (hf : 1 ≤ policy.factor) :
    ∃ c, g.convert policy = .ok c ∧ g.ConvertedTo policy c.result := by
  by_cases hn : g.isNormalForm policy.keepStartEpsilon = true
  · exact ⟨_, convert_of_isNormalForm hg hn, convertedTo_self hg hn⟩
  · obtain ⟨s, hstages, hs⟩ := stages_isOk g hf
    exact ⟨_, convert_of_staged hg hn hstages hs, convertedTo_finish hs hg⟩

theorem toNormalForm_spec (hg : g.Valid) (hf : 1 ≤ policy.factor) :
    ∃ h, g.toNormalForm policy = .ok h ∧ g.ConvertedTo policy h := by
  obtain ⟨c, hc, hspec⟩ := convert_spec hg hf
  have hout : g.toNormalForm policy = .ok c.result := by
    simp only [toNormalForm, hc]
    rfl
  exact ⟨c.result, hout, hspec⟩

end Grammar

/-! ## What is shown -/

namespace Showing

variable {α β : Type} {shown : List (String × Grammar)} {e : GrammarError}

@[simp] theorem runFrom_pure (a : α) : (pure a : Showing α).runFrom shown = (.ok a, shown) := rfl

@[simp] theorem runFrom_ok (a : α) :
    (liftM (.ok a : Except GrammarError α) : Showing α).runFrom shown = (.ok a, shown) := rfl

@[simp] theorem runFrom_error :
    (liftM (.error e : Except GrammarError α) : Showing α).runFrom shown = (.error e, shown) := rfl

@[simp] theorem runFrom_step (s : ShownStep) (g : Grammar) :
    (step s g).runFrom shown = (.ok g, shown ++ [(s.title, g)]) := rfl

@[simp] theorem runFrom_bind (p : Showing α) (f : α → Showing β) :
    (p >>= f).runFrom shown = match p.runFrom shown with
      | (.ok a, shown) => (f a).runFrom shown
      | (.error e, shown) => (.error e, shown) := by
  change (p.run >>= ExceptT.bindCont f).run shown = _
  rw [StateT.run_bind, runFrom]
  obtain ⟨result, shown'⟩ := p.run.run shown
  cases result <;> rfl

end Showing

namespace StagedFrom

open Grammar

variable {s : Stages} {factor : Int}

theorem removeEpsilon_eq (hs : StagedFrom g factor s) :
    g.removeEpsilon (some s.nullable) factor = .ok s.epsilonFree := by
  rw [hs.epsilonFree]
  rfl

theorem removeUnits_eq (hs : StagedFrom g factor s) :
    s.epsilonFree.removeUnits factor = .ok s.unitFree := by
  rw [removeUnits_eq_ok hs.unitPairs, hs.unitFree]

theorem removeUnproductive_eq (hs : StagedFrom g factor s) :
    s.reached.removeUnproductive factor = .ok s.fruitful := by
  rw [removeUnproductive_eq_ok hs.productive, hs.fruitful]

theorem reshape_eq (hs : StagedFrom g factor s) :
    s.fruitful.reshape (.forGrammar g) = (s.shaped, s.reshaping.supply) := by
  rw [reshape, hs.shaped, hs.reshaping]

theorem prune_eq (hs : StagedFrom g factor s) :
    s.shaped.removeUnreachable.removeUnproductive factor = .ok s.pruned.fruitful := by
  rw [← hs.pruned.reached, removeUnproductive_eq_ok hs.pruned.productive, hs.pruned.fruitful]

theorem outcome_convertShowing (hs : StagedFrom g policy.factor s) (hg : g.Valid)
    (hn : ¬ g.isNormalForm policy.keepStartEpsilon = true) :
    (g.convertShowing policy).outcome = (.ok (s.finish policy.keepStartEpsilon),
      (Conversion.staged s (s.finish policy.keepStartEpsilon)).steps) := by
  have hnormal := hs.isNormalForm_finish hg policy.keepStartEpsilon
  have hfinish : s.finish policy.keepStartEpsilon =
      if s.nullable.contains g.start && policy.keepStartEpsilon then
        (s.pruned.result.addStartEpsilon s.reshaping.supply).1
      else s.pruned.result := by
    rw [Stages.finish, Stages.startIsNullable, hs.source]
  simp only [convertShowing, Showing.outcome, validate_eq_ok_iff.mpr hg, hn, hs.nullable,
    hs.removeEpsilon_eq, hs.removeUnits_eq, ← hs.reached, hs.removeUnproductive_eq, hs.reshape_eq,
    hs.prune_eq, ← hs.pruned.result, ← hfinish, hnormal, Showing.runFrom_bind, Showing.runFrom_ok,
    Showing.runFrom_step, Showing.runFrom_pure, Bool.false_eq_true, if_false, if_true]
  rfl

end StagedFrom

namespace Grammar

theorem outcome_of_validate_error {e : GrammarError} (he : g.validate = .error e) :
    (g.convertShowing policy).outcome = (.error e, []) := by
  simp only [convertShowing, Showing.outcome, he, Showing.runFrom_bind, Showing.runFrom_error]

theorem outcome_of_isNormalForm (hg : g.Valid)
    (hn : g.isNormalForm policy.keepStartEpsilon = true) :
    (g.convertShowing policy).outcome = (.ok g, []) := by
  simp only [convertShowing, Showing.outcome, validate_eq_ok_iff.mpr hg, hn, Showing.runFrom_bind,
    Showing.runFrom_ok, Showing.runFrom_pure, if_true]

/-- Going stage by stage ends as the conversion does. An error comes before the first step. -/
theorem outcome_convertShowing (g : Grammar) (policy : Policy) :
    (g.convertShowing policy).outcome = match g.convert policy with
      | .ok c => (.ok c.result, c.steps)
      | .error e => (.error e, []) := by
  cases hvalid : g.validate with
  | error e =>
    have hconvert : g.convert policy = .error e := by
      simp only [convert, hvalid]
      rfl
    rw [hconvert, outcome_of_validate_error hvalid]
  | ok =>
    have hg : g.Valid := validate_eq_ok_iff.mp hvalid
    by_cases hn : g.isNormalForm policy.keepStartEpsilon = true
    · rw [convert_of_isNormalForm hg hn, outcome_of_isNormalForm hg hn]
      rfl
    · by_cases hf : 1 ≤ policy.factor
      · obtain ⟨s, hstages, hs⟩ := stages_isOk g hf
        rw [convert_of_staged hg hn hstages hs, hs.outcome_convertShowing hg hn]
        rfl
      · have hnulls : g.nullable policy.factor =
            .error (.unsettled "nullable" (g.roundLimit policy.factor)) := settle_eq_error hf
        have hconvert : g.convert policy =
            .error (.unsettled "nullable" (g.roundLimit policy.factor)) := by
          simp only [convert, hvalid, hn, stages, hnulls]
          rfl
        rw [hconvert]
        simp only [convertShowing, Showing.outcome, hvalid, hn, hnulls, Showing.runFrom_bind,
          Showing.runFrom_ok, Showing.runFrom_error, Bool.false_eq_true, if_false]

/-! ## Language, totality and shape -/

/-- **The language is preserved**, up to the empty word where that is not wanted. -/
theorem language_toNormalForm (policy : Policy) (hg : g.validate = .ok ())
    (hf : 1 ≤ policy.factor) :
    ∃ h, g.toNormalForm policy = .ok h ∧
      h.language = if policy.keepStartEpsilon then g.language else g.language \ {[]} := by
  obtain ⟨h, hout, hspec⟩ := toNormalForm_spec (validate_eq_ok_iff.mp hg) hf
  refine ⟨h, hout, Set.ext fun w => ?_⟩
  rw [mem_language_iff, hspec.accepts w]
  cases policy.keepStartEpsilon with
  | true => simp [mem_language_iff]
  | false => simp [mem_language_iff]

theorem language_toNormalForm_nested :
    ∃ h, nested.toNormalForm ⟨true, 1⟩ = .ok h ∧ h.language = nested.language :=
  language_toNormalForm ⟨true, 1⟩ nested_validate (by decide)

/-- **Conversion is total on valid grammars.** The error of a malformed one comes before anything is
shown. Otherwise the result is valid, in normal form, over the same terminals, and its own result. -/
theorem convertShowing_total (g : Grammar) (hf : 1 ≤ policy.factor) :
    (∀ e, g.validate = .error e →
      (∃ cause, e = .malformed cause) ∧ (g.convertShowing policy).outcome = (.error e, [])) ∧
    (g.validate = .ok () → ∃ out shown,
      (g.convertShowing policy).outcome = (.ok out, shown) ∧
      out.validate = .ok () ∧
      out.isNormalForm policy.keepStartEpsilon = true ∧
      out.terminals = g.terminals ∧
      (out.convertShowing policy).outcome = (.ok out, [])) := by
  constructor
  · intro e he
    exact ⟨validate_eq_error he, outcome_of_validate_error he⟩
  · intro hvalid
    obtain ⟨c, hc, hspec⟩ := convert_spec (validate_eq_ok_iff.mp hvalid) hf
    have hout := outcome_convertShowing g policy
    rw [hc] at hout
    exact ⟨c.result, c.steps, hout, validate_eq_ok_iff.mpr hspec.valid, hspec.normal,
      hspec.terminals, outcome_of_isNormalForm hspec.valid hspec.normal⟩

theorem convertShowing_total_nested :
    (({ nested with start := "T" }.convertShowing ⟨true, 1⟩).outcome =
      (.error (.malformed (.undeclaredStart "T")), [])) ∧
    ∃ out shown, (nested.convertShowing ⟨true, 1⟩).outcome = (.ok out, shown) ∧
      out.validate = .ok () ∧ out.isNormalForm true = true ∧ out.terminals = ["a", "b"] ∧
      (out.convertShowing ⟨true, 1⟩).outcome = (.ok out, []) := by
  have hmalformed : { nested with start := "T" }.validate =
      .error (.malformed (.undeclaredStart "T")) := by
    simp [validate, fault?, sharedSymbols, sortedSymbols, distinct, nested, isTerminal,
      isNonterminal]
  have hf : 1 ≤ (⟨true, 1⟩ : Policy).factor := by decide
  exact ⟨((convertShowing_total { nested with start := "T" } hf).1 _ hmalformed).2,
    (convertShowing_total nested hf).2 nested_validate⟩

end Grammar

end ContextFree
