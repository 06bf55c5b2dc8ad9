import ContextFree.Proofs.Epsilon
import ContextFree.Proofs.Unit
import ContextFree.Proofs.Reshape
import ContextFree.Proofs.StartEpsilon
import ContextFree.NormalForm.Basic

/-!
The shape of bodies along the way. A grammar is `Proper` once it has no empty and no unit body: every body
is a terminal or has two symbols at least. Since terminals stay what they are, taking bodies away keeps
that, and reshaping turns it into `Normal`. `isNormalForm_iff` ties the shape to the check at the end.
-/
namespace ContextFree

namespace Grammar

variable {g h : Grammar} {A : Symbol} {b : Body} {keep : Bool} {factor : Int} {pairs : UnitPairs}
  {r : Reshaping}

/-- A body of normal form. -/
inductive NormalBody (g : Grammar) : Body → Prop
  | terminal {a : Symbol} (ha : a ∈ g.terminals) : NormalBody g [a]
  | pair {B C : Symbol} (hB : B ∈ g.nonterminals) (hC : C ∈ g.nonterminals) : NormalBody g [B, C]

/-- Every body is of normal form, without exception. -/
def Normal (g : Grammar) : Prop := ∀ A, ∀ b ∈ g.alternatives A, g.NormalBody b

/-- Every body is a terminal or has two symbols at least. -/
def Proper (g : Grammar) : Prop :=
  ∀ A, ∀ b ∈ g.alternatives A, 2 ≤ b.length ∨ ∃ a ∈ g.terminals, b = [a]

theorem NormalBody.ne_nil (hb : g.NormalBody b) : b ≠ [] := by
  cases hb <;> exact List.cons_ne_nil _ _

theorem isNormalBody_iff : g.isNormalBody b = true ↔ g.NormalBody b := by
  constructor
  · intro hb
    match b, hb with
    | [a], hb => exact .terminal (isTerminal_iff.mp hb)
    | [B, C], hb =>
      obtain ⟨hB, hC⟩ := Bool.and_eq_true_iff.mp hb
      exact .pair (isNonterminal_iff.mp hB) (isNonterminal_iff.mp hC)
  · intro hb
    cases hb with
    | terminal ha => exact isTerminal_iff.mpr ha
    | pair hB hC =>
      exact Bool.and_eq_true_iff.mpr ⟨isNonterminal_iff.mpr hB, isNonterminal_iff.mpr hC⟩

/-- The empty body is excused for a start that occurs in no body, if `keep` allows it. -/
theorem isNormalForm_iff (hg : g.Valid) : g.isNormalForm keep = true ↔
    ∀ A, ∀ b ∈ g.alternatives A, g.NormalBody b ∨
      b = [] ∧ keep = true ∧ A = g.start ∧ ∀ B, ∀ c ∈ g.alternatives B, g.start ∉ c := by
  have hoccurs : (!g.bodySymbols.contains g.start) = true ↔
      ∀ B, ∀ c ∈ g.alternatives B, g.start ∉ c := by
    rw [Bool.not_eq_true', ← Bool.not_eq_true, List.contains_iff_mem, mem_bodySymbols]
    simp only [not_exists, not_and]
  simp only [isNormalForm, hg.all_productions_iff, Bool.or_eq_true, Bool.and_eq_true,
    isNormalBody_iff, beq_iff_eq, hoccurs, and_assoc]

theorem isNormalForm_false_iff (hg : g.Valid) : g.isNormalForm false = true ↔ g.Normal := by
  rw [isNormalForm_iff hg]
  simp [Normal]

theorem Normal.isNormalForm (hg : g.Valid) (hn : g.Normal) (keep : Bool) :
    g.isNormalForm keep = true :=
  (isNormalForm_iff hg).mpr fun A b hb => .inl (hn A b hb)

/-! ## Taking bodies away -/

theorem Proper.of_subset (hp : g.Proper) (ht : h.terminals = g.terminals)
    (hsub : ∀ A, ∀ b ∈ h.alternatives A, b ∈ g.alternatives A) : h.Proper := by
  intro A b hb
  rw [ht]
  exact hp A b (hsub A b hb)

/-- In a valid grammar a symbol that was a non-terminal cannot have become a terminal. -/
theorem Normal.of_subset (hn : g.Normal) (hg : g.Valid) (hh : h.Valid)
    (ht : h.terminals = g.terminals)
    (hsub : ∀ A, ∀ b ∈ h.alternatives A, b ∈ g.alternatives A) : h.Normal := by
  intro A b hb
  have hold {B : Symbol} (hB : B ∈ g.nonterminals) (hmem : B ∈ b) : B ∈ h.nonterminals := by
    have hnot : B ∉ h.terminals := ht ▸ hg.disjoint B hB
    exact (hh.body_mem A b hb B hmem).resolve_right hnot
  cases hn A b (hsub A b hb) with
  | terminal ha => exact .terminal (ht ▸ ha)
  | pair hB hC => exact .pair (hold hB (by simp)) (hold hC (by simp))

/-! ## Reaching the shape -/

/-- What has no empty and no unit body is proper. -/
theorem proper_of_bodies (hg : g.Valid) (hempty : ∀ A, [] ∉ g.alternatives A)
    (hunit : ∀ A, ∀ b ∈ g.alternatives A, ¬ g.isUnit b = true) : g.Proper := by
  intro A b hb
  match b with
  | [] => exact absurd hb (hempty A)
  | [s] =>
    have hs : s ∉ g.nonterminals := fun hs => hunit A [s] hb (isUnit_iff.mpr ⟨s, hs, rfl⟩)
    exact .inr ⟨s, (hg.body_mem A [s] hb s List.mem_cons_self).resolve_left hs, rfl⟩
  | _ :: _ :: _ => exact .inl (by simp)

/-- Units bring no empty body with them when they go. -/
theorem nil_notMem_withoutUnits (hempty : ∀ A, [] ∉ g.alternatives A)
    (hu : g.unitClosure factor = .ok pairs) (A : Symbol) :
    [] ∉ (g.withoutUnits pairs).alternatives A := by
  intro hA
  obtain ⟨-, -, B, -, hB, -⟩ := (mem_alternatives_withoutUnits hu).mp hA
  exact hempty B hB

/-- Without empty bodies, a grammar that has lost its unit bodies is proper. -/
theorem proper_withoutUnits (hg : g.Valid) (hempty : ∀ A, [] ∉ g.alternatives A)
    (hu : g.unitClosure factor = .ok pairs) : (g.withoutUnits pairs).Proper :=
  proper_of_bodies (hg.withoutUnits hu) (nil_notMem_withoutUnits hempty hu)
    fun _ _ => not_isUnit_of_mem_withoutUnits hu

end Grammar

namespace Reshaping

variable {g : Grammar} {r : Reshaping} {A : Symbol} {b c : Body}

/-- What stands for itself is a body of the grammar, or a terminal with a helper. -/
theorem Faithful.origin_of_unfold_eq (h : Faithful g g.productions r)
    (hc : c ∈ r.rules.alternatives A) (hlen : c.length < 2) (heq : r.unfoldBody c = c) :
    c ∈ g.alternatives A ∨ ∃ a ∈ g.terminals, c = [a] := by
  have hdue := h.sound A c hc
  rw [heq] at hdue
  obtain hdone | ⟨hX, hunfold⟩ := hdue
  · exact .inl (Grammar.mem_productions.mp hdone).2
  · obtain ⟨p, hp, rfl⟩ := List.mem_map.mp hX
    rw [h.meaning p hp] at hunfold
    obtain htwo | ⟨a, ha, hbody⟩ := h.shape p hp
    · have hlong := h.toNamed.two_le_length_unfoldBody htwo
      rw [← hunfold] at hlong
      omega
    · refine .inr ⟨a, ha, ?_⟩
      rw [hunfold, hbody, unfoldBody, List.flatMap_singleton, h.toNamed.unfold_terminal ha]

/-- A body of less than two symbols is left as it is. -/
theorem Faithful.mem_of_short (hg : g.Valid) (h : Faithful g g.productions r)
    (hb : b ∈ g.alternatives A) (hlen : b.length < 2) : b ∈ r.rules.alternatives A := by
  have hA : A ∈ g.nonterminals := hg.lhs_mem A (Rules.mem_keys_of_mem_alternatives hb)
  obtain ⟨c, hc, hcb⟩ := h.complete A b (.inl (Grammar.mem_productions.mpr ⟨hA, hb⟩))
  obtain htwo | ⟨-, heq⟩ := h.settled A c hc
  · have hlong := h.toNamed.two_le_length_unfoldBody htwo
    rw [hcb] at hlong
    omega
  · rw [← hcb, heq]
    exact hc

/-- Once terminals are lifted, a body of two symbols holds non-terminals alone. -/
theorem Faithful.mem_nonterminals_of_mem_pair (h : Faithful g g.productions r)
    (hlift : r.Lifted g A) (hc : c ∈ r.rules.alternatives A) (htwo : c.length = 2) :
    ∀ s ∈ c, s ∈ (g.reshapedBy r).nonterminals := by
  intro s hs
  have hnot : s ∉ g.terminals := hlift c hc htwo s hs
  exact mem_distinct.mpr ((h.bodies A c hc s hs).resolve_right hnot)

/-- Once terminals are lifted, the bodies that a proper grammar is left with are of normal form. -/
theorem Faithful.normal (h : Faithful g g.productions r) (hlift : ∀ A, r.Lifted g A)
    (hp : g.Proper) : (g.reshapedBy r).Normal := by
  intro A c hc
  obtain htwo | ⟨hshort, heq⟩ := h.settled A c hc
  · have hmem := h.mem_nonterminals_of_mem_pair (hlift A) hc htwo
    match c, htwo with
    | [B, C], _ => exact .pair (hmem B (by simp)) (hmem C (by simp))
  · have hterminal : ∃ a ∈ g.terminals, c = [a] := by
      obtain hbody | hbody := h.origin_of_unfold_eq hc hshort heq
      · exact (hp A c hbody).resolve_left (by omega)
      · exact hbody
    obtain ⟨a, ha, rfl⟩ := hterminal
    exact .terminal ha

/-- The converse: a body that is too short to be reshaped has to be a terminal from the start. -/
theorem Faithful.proper_of_normal (hg : g.Valid) (h : Faithful g g.productions r)
    (hn : (g.reshapedBy r).Normal) : g.Proper := by
  intro A b hb
  by_cases hlen : 2 ≤ b.length
  · exact .inl hlen
  · cases hn A b (h.mem_of_short hg hb (by omega)) with
    | terminal ha => exact .inr ⟨_, ha, rfl⟩
    | pair => exact absurd (Nat.le_refl 2) hlen

end Reshaping

/-- A start that takes the empty body on is excused by the check. -/
theorem WithStartEpsilon.isNormalForm {g h : Grammar} (hg : g.Valid) (hh : WithStartEpsilon g h)
    (hn : g.Normal) : h.isNormalForm true = true := by
  refine (Grammar.isNormalForm_iff (hh.valid hg)).mpr fun A b hb => ?_
  obtain ⟨rfl, rfl⟩ | ⟨B, hb⟩ := hh.mem_alternatives hb
  · exact .inr ⟨rfl, rfl, rfl, fun B c hc => hh.start_notMem_body hc⟩
  · refine .inl ?_
    cases hn B b hb with
    | terminal ha => exact .terminal (hh.terminals ▸ ha)
    | pair hB hC =>
      exact .pair ((hh.nonterminals _).mpr (.inr hB)) ((hh.nonterminals _).mpr (.inr hC))

end ContextFree
