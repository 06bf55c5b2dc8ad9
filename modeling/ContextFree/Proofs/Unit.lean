import Mathlib.Data.List.Nodup
import Mathlib.Logic.Function.Iterate
import ContextFree.Proofs.Saturation
import ContextFree.NormalForm.Unit

/-!
Unit productions. The closure of a grammar is the relation of unit chains (`mem_unitClosure_iff`), and the
grammar without unit bodies keeps the words of every non-terminal (`yields_withoutUnits_iff`). The rows
of the closure grow independently of each other: a row that a round leaves alone is complete, so every
round that adds anything has a row that all rounds before it added to, and there are no more of these than
non-terminals.
-/
namespace ContextFree

variable {g : Grammar} {A B C : Symbol} {b : Body} {w : Word} {factor : Int} {pairs : UnitPairs}
  {row targets : List Symbol}

/-! ## Rows -/

@[simp] theorem UnitPairs.mem_reachedFrom : B ∈ pairs.reachedFrom A ↔ (A, B) ∈ pairs := by
  simp [UnitPairs.reachedFrom]

theorem UnitPairs.nodup_reachedFrom (h : pairs.Nodup) : (pairs.reachedFrom A).Nodup := by
  apply (List.nodup_map_iff_inj_on (h.filter _)).mpr
  rintro ⟨x, y⟩ hx ⟨x', y'⟩ hx' rfl
  simp only [List.mem_filter, decide_eq_true_eq] at hx hx'
  rw [hx.2, hx'.2]

theorem UnitPairs.reachedFrom_cons : UnitPairs.reachedFrom ((A, B) :: pairs) C =
    if A = C then B :: pairs.reachedFrom C else pairs.reachedFrom C := by
  by_cases h : A = C <;> simp [UnitPairs.reachedFrom, h]

namespace Grammar

/-- A row with `targets` taken in. -/
def addTargets (row targets : List Symbol) : List Symbol :=
  targets.foldl (fun row B => if row.contains B then row else B :: row) row

/-- What a round makes of the row of a non-terminal that is declared once. -/
def growRow (g : Grammar) (row : List Symbol) : List Symbol :=
  addTargets row (row.flatMap g.unitTargets)

theorem suffix_addTarget (row : List Symbol) (B : Symbol) :
    row <:+ if row.contains B then row else B :: row := by
  split
  · exact List.suffix_rfl
  · exact List.suffix_cons B row

theorem suffix_growRow (row : List Symbol) : row <:+ g.growRow row :=
  suffix_foldl suffix_addTarget _ row

theorem addTargets_eq_self_iff : addTargets row targets = row ↔ ∀ B ∈ targets, B ∈ row := by
  rw [addTargets, foldl_eq_self_iff suffix_addTarget]
  apply forall₂_congr
  intro B _
  by_cases h : B ∈ row <;> simp [h]

theorem addUnitPairs_cons : addUnitPairs A pairs (B :: targets) =
    addUnitPairs A (if pairs.contains (A, B) then pairs else (A, B) :: pairs) targets := rfl

theorem suffix_addUnitPair (A : Symbol) (pairs : UnitPairs) (B : Symbol) :
    pairs <:+ if pairs.contains (A, B) then pairs else (A, B) :: pairs := by
  split
  · exact List.suffix_rfl
  · exact List.suffix_cons (A, B) pairs

theorem addUnitPairs_eq_self_iff : addUnitPairs A pairs targets = pairs ↔
    ∀ B ∈ targets, B ∈ pairs.reachedFrom A := by
  rw [addUnitPairs, foldl_eq_self_iff (suffix_addUnitPair A)]
  apply forall₂_congr
  intro B _
  by_cases h : (A, B) ∈ pairs <;> simp [h]

/-- Taking targets into the row of `A` changes that row alone. -/
theorem reachedFrom_addUnitPairs (A C : Symbol) (pairs : UnitPairs) (targets : List Symbol) :
    (addUnitPairs A pairs targets).reachedFrom C =
      if A = C then addTargets (pairs.reachedFrom A) targets else pairs.reachedFrom C := by
  induction targets generalizing pairs with
  | nil => by_cases h : A = C <;> simp [addUnitPairs, addTargets, h]
  | cons B targets ih =>
    rw [addUnitPairs_cons, ih]
    by_cases hAC : A = C
    · subst hAC
      by_cases hB : (A, B) ∈ pairs <;> simp [addTargets, hB, UnitPairs.reachedFrom_cons]
    · by_cases hB : (A, B) ∈ pairs <;> simp [hAC, hB, UnitPairs.reachedFrom_cons]

/-- One non-terminal's part of a round. -/
def unitStep (g : Grammar) (pairs : UnitPairs) (A : Symbol) : UnitPairs :=
  addUnitPairs A pairs ((pairs.reachedFrom A).flatMap g.unitTargets)

theorem unitRound_eq : g.unitRound pairs = g.nonterminals.foldl g.unitStep pairs := rfl

theorem suffix_unitStep (pairs : UnitPairs) (A : Symbol) : pairs <:+ g.unitStep pairs A :=
  suffix_foldl (suffix_addUnitPair A) _ pairs

theorem suffix_unitRound (pairs : UnitPairs) : pairs <:+ g.unitRound pairs :=
  suffix_foldl suffix_unitStep g.nonterminals pairs

theorem unitStep_eq_self_iff : g.unitStep pairs A = pairs ↔
    g.growRow (pairs.reachedFrom A) = pairs.reachedFrom A := by
  rw [unitStep, growRow, addUnitPairs_eq_self_iff, addTargets_eq_self_iff]

theorem reachedFrom_unitStep (A C : Symbol) (pairs : UnitPairs) :
    (g.unitStep pairs A).reachedFrom C =
      if A = C then g.growRow (pairs.reachedFrom C) else pairs.reachedFrom C := by
  rw [unitStep, reachedFrom_addUnitPairs]
  split
  · rename_i h; rw [h]; rfl
  · rfl

/-- A round grows each row by itself, as often as its non-terminal is declared. -/
theorem reachedFrom_foldl_unitStep (As : List Symbol) (C : Symbol) (pairs : UnitPairs) :
    (As.foldl g.unitStep pairs).reachedFrom C =
      g.growRow^[As.count C] (pairs.reachedFrom C) := by
  induction As generalizing pairs with
  | nil => rfl
  | cons A As ih =>
    rw [List.foldl_cons, ih, reachedFrom_unitStep]
    by_cases h : A = C
    · subst h
      rw [if_pos rfl, List.count_cons_self, Function.iterate_succ_apply]
    · rw [if_neg h, List.count_cons_of_ne h]

/-! ## Termination -/

theorem iterate_growRow_of_fixed (h : g.growRow row = row) (n : Nat) : g.growRow^[n] row = row :=
  Function.iterate_fixed h n

theorem suffix_iterate_growRow (n : Nat) (row : List Symbol) : row <:+ g.growRow^[n] row := by
  induction n generalizing row with
  | zero => exact List.suffix_rfl
  | succ n ih => exact (suffix_growRow row).trans (ih (g.growRow row))

/-- A row that is still growing has been growing all along. -/
structure GrowingRows (g : Grammar) (rounds : Nat) (pairs : UnitPairs) : Prop where
  nodup : pairs.Nodup
  declared : ∀ p ∈ pairs, p.1 ∈ g.nonterminals ∧ p.2 ∈ g.nonterminals
  long : ∀ A ∈ g.nonterminals,
    g.growRow (pairs.reachedFrom A) ≠ pairs.reachedFrom A → rounds < (pairs.reachedFrom A).length

theorem mem_unitTargets : C ∈ g.unitTargets B ↔ C ∈ g.nonterminals ∧ [C] ∈ g.alternatives B := by
  simp only [unitTargets, List.mem_flatten, List.mem_filter]
  constructor
  · rintro ⟨b, ⟨hb, hunit⟩, hC⟩
    match b, hunit with
    | [s], hunit =>
      obtain rfl := List.mem_singleton.mp hC
      exact ⟨isNonterminal_iff.mp hunit, hb⟩
  · rintro ⟨hC, hb⟩
    exact ⟨[C], ⟨hb, isNonterminal_iff.mpr hC⟩, List.mem_singleton_self C⟩

/-- Pairs that satisfy `P` are only added to by unit productions. -/
theorem forall_unitStep {P : Symbol × Symbol → Prop}
    (hP : ∀ B C, P (A, B) → C ∈ g.nonterminals → [C] ∈ g.alternatives B → P (A, C))
    (h : ∀ p ∈ pairs, P p) : ∀ p ∈ g.unitStep pairs A, P p := by
  apply foldl_invariant (I := fun pairs => ∀ p ∈ pairs, P p) _ h
  intro known C hC hk
  split
  · exact hk
  · obtain ⟨B, hB, hC⟩ := List.mem_flatMap.mp hC
    obtain ⟨hC, hb⟩ := mem_unitTargets.mp hC
    have hpair : P (A, B) := h _ (UnitPairs.mem_reachedFrom.mp hB)
    exact List.forall_mem_cons.mpr ⟨hP B C hpair hC hb, hk⟩

theorem forall_unitRound {P : Symbol × Symbol → Prop}
    (hP : ∀ A ∈ g.nonterminals, ∀ B C, P (A, B) → C ∈ g.nonterminals → [C] ∈ g.alternatives B →
      P (A, C))
    (h : ∀ p ∈ pairs, P p) : ∀ p ∈ g.unitRound pairs, P p :=
  foldl_invariant (I := fun pairs => ∀ p ∈ pairs, P p)
    (fun _ A hA hk => forall_unitStep (hP A hA) hk) h

theorem nodup_unitStep (h : pairs.Nodup) : (g.unitStep pairs A).Nodup := by
  apply foldl_invariant (I := List.Nodup) _ h
  intro known C _ hk
  split
  · exact hk
  · rename_i hnew
    exact List.nodup_cons.mpr ⟨by simpa using hnew, hk⟩

/-- A round that adds anything has a row that it adds to. -/
theorem exists_growRow_ne (hne : g.unitRound pairs ≠ pairs) :
    ∃ A ∈ g.nonterminals, g.growRow (pairs.reachedFrom A) ≠ pairs.reachedFrom A := by
  by_contra hall
  apply hne
  apply (foldl_eq_self_iff suffix_unitStep).mpr
  intro A hA
  exact unitStep_eq_self_iff.mpr (by_contra fun hA' => hall ⟨A, hA, hA'⟩)

theorem length_lt_growRow (h : g.growRow row ≠ row) : row.length < (g.growRow row).length := by
  have hs : row <:+ g.growRow row := suffix_growRow row
  apply Nat.lt_of_le_of_ne hs.length_le
  intro e
  exact h (hs.eq_of_length e).symm

theorem GrowingRows.lt_length {rounds : Nat} (h : g.GrowingRows rounds pairs)
    (hne : g.unitRound pairs ≠ pairs) : rounds < g.nonterminals.length := by
  obtain ⟨A, hA, hgrow⟩ := exists_growRow_ne hne
  have hdeclared : ∀ B ∈ pairs.reachedFrom A, B ∈ g.nonterminals := by
    intro B hB
    exact (h.declared _ (UnitPairs.mem_reachedFrom.mp hB)).2
  have hlen := (UnitPairs.nodup_reachedFrom h.nodup).length_le_of_subset hdeclared
  have hlong := h.long A hA hgrow
  omega

theorem GrowingRows.round {rounds : Nat} (h : g.GrowingRows rounds pairs) :
    g.GrowingRows (rounds + 1) (g.unitRound pairs) := by
  constructor
  · exact foldl_invariant (fun _ _ _ hk => nodup_unitStep hk) h.nodup
  · exact forall_unitRound (fun A hA _ C _ hC _ => ⟨hA, hC⟩) h.declared
  · intro A hA hgrow
    rw [unitRound_eq, reachedFrom_foldl_unitStep] at hgrow ⊢
    have hgrows : g.growRow (pairs.reachedFrom A) ≠ pairs.reachedFrom A := by
      intro hfixed
      rw [iterate_growRow_of_fixed hfixed] at hgrow
      exact hgrow hfixed
    have hlong := h.long A hA hgrows
    have hfirst := length_lt_growRow hgrows
    obtain ⟨n, hn⟩ : ∃ n, g.nonterminals.count A = n + 1 :=
      Nat.exists_eq_add_one.mpr (List.count_pos_iff.mpr hA)
    have hrest := (suffix_iterate_growRow (g := g) n (g.growRow (pairs.reachedFrom A))).length_le
    rw [hn, Function.iterate_succ_apply]
    omega

/-- The pairs with which the closure starts. -/
def unitDiagonal (g : Grammar) : UnitPairs := (distinct g.nonterminals).map fun A => (A, A)

theorem mem_unitDiagonal : (A, B) ∈ g.unitDiagonal ↔ A ∈ g.nonterminals ∧ A = B := by
  simp only [unitDiagonal, List.mem_map, mem_distinct, Prod.mk.injEq]
  constructor
  · rintro ⟨C, hC, rfl, rfl⟩; exact ⟨hC, rfl⟩
  · rintro ⟨hA, rfl⟩; exact ⟨A, hA, rfl, rfl⟩

theorem growingRows_unitDiagonal (g : Grammar) : g.GrowingRows 0 g.unitDiagonal := by
  constructor
  · exact (nodup_distinct _).map fun _ _ h => (Prod.mk.inj h).1
  · rintro ⟨A, B⟩ hp
    obtain ⟨hA, rfl⟩ := mem_unitDiagonal.mp hp
    exact ⟨hA, hA⟩
  · intro A hA _
    have hmem : A ∈ g.unitDiagonal.reachedFrom A :=
      UnitPairs.mem_reachedFrom.mpr (mem_unitDiagonal.mpr ⟨hA, rfl⟩)
    exact List.length_pos_of_mem hmem

theorem saturate_unitRound_isSome (g : Grammar) (n : Nat) (hn : g.nonterminals.length < n) :
    ∃ pairs, saturate g.unitRound n g.unitDiagonal = some pairs :=
  saturate_isSome (fun _ _ hk hne => ⟨hk.lt_length hne, hk.round⟩) g.growingRows_unitDiagonal
    (by omega) (by omega)

theorem unitClosure_isOk (g : Grammar) (h : 1 ≤ factor) :
    ∃ pairs, g.unitClosure factor = .ok pairs :=
  settle_isOk h g.saturate_unitRound_isSome

/-! ## The closure -/

/-- The closure relates a declared non-terminal to what it reaches by unit productions alone. -/
theorem mem_unitClosure_iff (h : g.unitClosure factor = .ok pairs) :
    (A, B) ∈ pairs ↔ A ∈ g.nonterminals ∧ UnitChain g A B := by
  have hsat : saturate g.unitRound _ g.unitDiagonal = some pairs := settle_eq_ok_iff.mp h
  have hdiagonal : ∀ p ∈ g.unitDiagonal, p.1 ∈ g.nonterminals ∧ UnitChain g p.1 p.2 := by
    rintro ⟨A, B⟩ hp
    obtain ⟨hA, rfl⟩ := mem_unitDiagonal.mp hp
    exact ⟨hA, .refl A⟩
  have hround (pairs : UnitPairs) (hk : ∀ p ∈ pairs, p.1 ∈ g.nonterminals ∧ UnitChain g p.1 p.2) :
      ∀ p ∈ g.unitRound pairs, p.1 ∈ g.nonterminals ∧ UnitChain g p.1 p.2 :=
    forall_unitRound (fun A hA B C hB hC hb => ⟨hA, hB.2.step hC hb⟩) hk
  obtain ⟨hsound, hstart, hfixed⟩ := saturate_spec suffix_unitRound hround hsat hdiagonal
  constructor
  · exact fun hp => hsound (A, B) hp
  · rintro ⟨hA, chain⟩
    induction chain with
    | refl => exact hstart.subset (mem_unitDiagonal.mpr ⟨hA, rfl⟩)
    | @step B C chain hC hb ih =>
      have hstep := (foldl_eq_self_iff suffix_unitStep).mp (unitRound_eq ▸ hfixed) A hA
      have hrow := addTargets_eq_self_iff.mp (unitStep_eq_self_iff.mp hstep)
      have hB : B ∈ pairs.reachedFrom A := UnitPairs.mem_reachedFrom.mpr ih
      have htarget : C ∈ g.unitTargets B := mem_unitTargets.mpr ⟨hC, hb⟩
      exact UnitPairs.mem_reachedFrom.mp (hrow C (List.mem_flatMap.mpr ⟨B, hB, htarget⟩))

end Grammar

theorem UnitChain.trans (chain : UnitChain g A B) (later : UnitChain g B C) : UnitChain g A C := by
  induction later with
  | refl => exact chain
  | step _ hC hc ih => exact .step ih hC hc

theorem UnitChain.head (hB : B ∈ g.nonterminals) (hb : [B] ∈ g.alternatives A)
    (chain : UnitChain g B C) : UnitChain g A C :=
  (UnitChain.step (.refl A) hB hb).trans chain

theorem UnitChain.mem_nonterminals (chain : UnitChain g A B) (hA : A ∈ g.nonterminals) :
    B ∈ g.nonterminals := by
  cases chain with
  | refl => exact hA
  | step _ hB _ => exact hB

/-- A chain to another symbol starts at a left side. -/
theorem UnitChain.mem_keys (chain : UnitChain g A B) (hne : A ≠ B) : A ∈ g.rules.keys := by
  induction chain with
  | refl => exact absurd rfl hne
  | @step B C _ _ hb ih =>
    by_cases hB : A = B
    · exact hB ▸ Rules.mem_keys_of_mem_alternatives hb
    · exact ih hB

theorem UnitChain.generates (chain : UnitChain g A B) (hA : A ∈ g.nonterminals)
    (hy : g.Generates B w) : g.Generates A w := by
  induction chain with
  | refl => exact hy
  | step chain _ hb ih => exact ih (generates_of_body (chain.mem_nonterminals hA) hb hy)

namespace Grammar

/-! ## The stage -/

theorem removeUnits_eq_ok (h : g.unitClosure factor = .ok pairs) :
    g.removeUnits factor = .ok (g.withoutUnits pairs) := by
  rw [removeUnits, h]
  rfl

theorem isUnit_iff : g.isUnit b = true ↔ ∃ B ∈ g.nonterminals, b = [B] := by
  match b with
  | [] => simp [isUnit]
  | [s] => simp [isUnit]
  | _ :: _ :: _ => simp [isUnit]

/-- The bodies of `A` are the other bodies of what it reaches, if it is a left side. -/
theorem mem_alternatives_withoutUnits (h : g.unitClosure factor = .ok pairs) :
    b ∈ (g.withoutUnits pairs).alternatives A ↔ A ∈ g.nonterminals ∧ A ∈ g.rules.keys ∧
      ∃ B, UnitChain g A B ∧ b ∈ g.alternatives B ∧ ¬ g.isUnit b = true := by
  change b ∈ (Rules.tabulate _ _).alternatives A ↔ _
  rw [Rules.mem_alternatives_tabulate, List.mem_filter, List.contains_iff_mem]
  simp only [properBodies, Alternatives.mem_ofList, List.mem_flatMap, UnitPairs.mem_reachedFrom,
    mem_unitClosure_iff h, ← Alternatives.mem_def, Alternatives.mem_filter, Bool.not_eq_true',
    Bool.not_eq_true]
  constructor
  · rintro ⟨⟨hA, hkey⟩, B, ⟨-, chain⟩, hb⟩
    exact ⟨hA, hkey, B, chain, hb⟩
  · rintro ⟨hA, hkey, B, chain, hb⟩
    exact ⟨⟨hA, hkey⟩, B, ⟨hA, chain⟩, hb⟩

theorem Valid.withoutUnits (hg : g.Valid) (h : g.unitClosure factor = .ok pairs) :
    (g.withoutUnits pairs).Valid where
  disjoint := hg.disjoint
  start_mem := hg.start_mem
  lhs_mem A hA := (List.mem_filter.mp (Rules.mem_keys_tabulate.mp hA)).1
  body_mem A b hb s hs := by
    obtain ⟨-, -, B, -, hb, -⟩ := (mem_alternatives_withoutUnits h).mp hb
    exact hg.body_mem B b hb s hs

/-- A non-terminal takes over what the ones that it reaches are left with. -/
theorem alternatives_withoutUnits_subset (h : g.unitClosure factor = .ok pairs)
    (hA : A ∈ g.nonterminals) (chain : UnitChain g A B)
    (hb : b ∈ (g.withoutUnits pairs).alternatives B) :
    b ∈ (g.withoutUnits pairs).alternatives A := by
  by_cases hAB : A = B
  · exact hAB ▸ hb
  · obtain ⟨-, -, C, later, hb⟩ := (mem_alternatives_withoutUnits h).mp hb
    exact (mem_alternatives_withoutUnits h).mpr
      ⟨hA, chain.mem_keys hAB, C, chain.trans later, hb⟩

/-- No body is a single non-terminal. -/
theorem not_isUnit_of_mem_withoutUnits (h : g.unitClosure factor = .ok pairs)
    (hb : b ∈ (g.withoutUnits pairs).alternatives A) :
    ¬ (g.withoutUnits pairs).isUnit b = true := by
  obtain ⟨-, -, _, -, -, hunit⟩ := (mem_alternatives_withoutUnits h).mp hb
  exact hunit

/-- Unit productions go and every body keeps its words. -/
theorem yields_withoutUnits_iff (hg : g.Valid) (h : g.unitClosure factor = .ok pairs) :
    Yields (g.withoutUnits pairs) b w ↔ Yields g b w := by
  have hout := hg.withoutUnits h
  constructor
  · intro hy
    apply hy.mono
    · exact fun _ ha => ha
    · intro A hA c hc w hy
      obtain ⟨-, -, B, chain, hc, -⟩ := (mem_alternatives_withoutUnits h).mp hc
      exact chain.generates hA (generates_of_body (chain.mem_nonterminals hA) hc hy)
  · intro hy
    apply hy.mono
    · exact fun _ ha => ha
    · intro A hA c hc w hy
      have hkey : A ∈ g.rules.keys := Rules.mem_keys_of_mem_alternatives hc
      by_cases hunit : g.isUnit c = true
      · -- What the single symbol of `c` yields comes from a body at the end of a chain.
        obtain ⟨B, hB, rfl⟩ := isUnit_iff.mp hunit
        obtain ⟨d, hd, hyd⟩ := (hout.generates_iff hB).mp hy
        obtain ⟨-, -, C, chain, hd, hproper⟩ := (mem_alternatives_withoutUnits h).mp hd
        have hnew : d ∈ (g.withoutUnits pairs).alternatives A :=
          (mem_alternatives_withoutUnits h).mpr ⟨hA, hkey, C, chain.head hB hc, hd, hproper⟩
        exact generates_of_body hA hnew hyd
      · have hkept : c ∈ (g.withoutUnits pairs).alternatives A :=
          (mem_alternatives_withoutUnits h).mpr ⟨hA, hkey, A, .refl A, hc, hunit⟩
        exact generates_of_body hA hkept hy

end Grammar

end ContextFree
