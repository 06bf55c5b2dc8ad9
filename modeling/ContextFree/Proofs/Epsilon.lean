import ContextFree.Proofs.Saturation
import ContextFree.NormalForm.Epsilon

/-!
Grammars without empty bodies. The variants of a body are what is left when occurrences of nullable
symbols are left out (`mem_variants_iff`); with the nullable non-terminals of the grammar itself, every
non-terminal keeps its words except the empty one (`generates_withoutEpsilon_iff`).
-/
namespace ContextFree

variable {g : Grammar} {A : Symbol} {b c d : Body} {w : Word} {factor : Int} {nulls : List Symbol}

theorem omits_nil_iff : Omits nulls [] c ↔ c = [] := by
  constructor
  · intro h; cases h; rfl
  · rintro rfl; exact .nil

theorem mem_variants_iff : c ∈ variants nulls b ↔ Omits nulls b c := by
  induction b generalizing c with
  | nil => rw [variants, List.mem_singleton, omits_nil_iff]
  | cons s b ih =>
    have hdropped : c ∈ (if nulls.contains s then variants nulls b else []) ↔
        s ∈ nulls ∧ Omits nulls b c := by
      by_cases hs : s ∈ nulls <;> simp [hs, ih]
    simp only [variants, List.mem_append, List.mem_map, hdropped]
    constructor
    · rintro (⟨short, hshort, rfl⟩ | ⟨hs, h⟩)
      · exact .keep (ih.mp hshort)
      · exact .drop hs h
    · intro h
      cases h with
      | keep h => exact .inl ⟨_, ih.mpr h, rfl⟩
      | drop hs h => exact .inr ⟨hs, h⟩

theorem Omits.refl (nulls : List Symbol) (b : Body) : Omits nulls b b := by
  induction b with
  | nil => exact .nil
  | cons s b ih => exact .keep ih

theorem Omits.trans (h : Omits nulls b c) (h' : Omits nulls c d) : Omits nulls b d := by
  induction h generalizing d with
  | nil => exact h'
  | keep _ ih =>
    cases h' with
    | keep h' => exact .keep (ih h')
    | drop hs h' => exact .drop hs (ih h')
  | drop hs _ ih => exact .drop hs (ih h')

theorem Omits.eq_of_empty (hnone : ∀ s, s ∉ nulls) (h : Omits nulls b c) : c = b := by
  induction h with
  | nil => rfl
  | keep _ ih => rw [ih]
  | drop hs _ _ => exact absurd hs (hnone _)

theorem Omits.sublist (h : Omits nulls b c) : c.Sublist b := by
  induction h with
  | nil => exact .slnil
  | keep _ ih => exact ih.cons_cons _
  | drop _ _ ih => exact ih.cons _

theorem Omits.mono {nulls' : List Symbol} (hn : ∀ s ∈ nulls, s ∈ nulls') (h : Omits nulls b c) :
    Omits nulls' b c := by
  induction h with
  | nil => exact .nil
  | keep _ ih => exact .keep ih
  | drop hs _ ih => exact .drop (hn _ hs) ih

theorem mem_visibleVariants_iff : c ∈ visibleVariants nulls b ↔ c ≠ [] ∧ Omits nulls b c := by
  simp [visibleVariants, mem_variants_iff, and_comm]

/-- What is left of a body yields no more than the body, if what is left out may be empty. -/
theorem Omits.yields (h : Omits nulls b c) (hnulls : ∀ s ∈ nulls, g.Generates s [])
    (hy : Yields g c w) : Yields g b w := by
  induction h generalizing w with
  | nil => exact hy
  | keep _ ih =>
    rw [yields_iff_reads, reads_cons_iff] at hy
    obtain ⟨u, v, rfl, hu, hv⟩ := hy
    exact Yields.append hu (ih (yields_iff_reads.mpr hv))
  | drop hs _ ih => exact Yields.append (hnulls _ hs) (ih hy)

namespace Grammar

theorem removeEpsilon_eq_ok (h : g.nullable factor = .ok nulls) :
    g.removeEpsilon none factor = .ok (g.withoutEpsilon nulls) := by
  rw [removeEpsilon, h]
  rfl

theorem mem_alternatives_withoutEpsilon : c ∈ (g.withoutEpsilon nulls).alternatives A ↔
    A ∈ g.nonterminals ∧ c ≠ [] ∧ ∃ b ∈ g.alternatives A, Omits nulls b c := by
  change c ∈ (Rules.tabulate _ _).alternatives A ↔ _
  rw [Rules.mem_alternatives_tabulate, List.mem_filter, List.contains_iff_mem]
  simp only [withoutEpsilonBodies, Alternatives.mem_ofList, List.mem_flatMap,
    ← Alternatives.mem_def, mem_visibleVariants_iff]
  constructor
  · rintro ⟨⟨hA, -⟩, b, hb, hc, h⟩
    exact ⟨hA, hc, b, hb, h⟩
  · rintro ⟨hA, hc, b, hb, h⟩
    exact ⟨⟨hA, Rules.mem_keys_of_mem_alternatives hb⟩, b, hb, hc, h⟩

theorem Valid.withoutEpsilon (hg : g.Valid) (nulls : List Symbol) :
    (g.withoutEpsilon nulls).Valid where
  disjoint := hg.disjoint
  start_mem := hg.start_mem
  lhs_mem A hA := (List.mem_filter.mp (Rules.mem_keys_tabulate.mp hA)).1
  body_mem A c hc s hs := by
    obtain ⟨-, -, b, hb, h⟩ := mem_alternatives_withoutEpsilon.mp hc
    exact hg.body_mem A b hb s (h.sublist.subset hs)

theorem ne_nil_of_reads (hr : Reads (fun _ u => u ≠ []) b w) (hb : b ≠ []) : w ≠ [] := by
  cases hr with
  | nil => exact absurd rfl hb
  | cons head _ =>
    intro e
    exact head (List.append_eq_nil_iff.mp e).1

/-- A grammar without empty bodies derives no empty word from a symbol. -/
theorem ne_nil_of_generates (hg : ∀ A, [] ∉ g.alternatives A) (hy : g.Generates A w) : w ≠ [] := by
  have hr : Reads (fun _ u => u ≠ []) [A] w := by
    apply Yields.interpret _ _ hy
    · exact fun a _ => List.cons_ne_nil a []
    · intro B _ c hc w _ hr
      exact ne_nil_of_reads hr fun e => hg B (e ▸ hc)
  exact ne_nil_of_reads hr (List.cons_ne_nil A [])

theorem nil_notMem_withoutEpsilon (A : Symbol) :
    [] ∉ (g.withoutEpsilon nulls).alternatives A := by
  intro h
  exact (mem_alternatives_withoutEpsilon.mp h).2.1 rfl

/-- What a symbol generates, and still generates without empty bodies unless it is empty. -/
def KeptWord (g : Grammar) (nulls : List Symbol) (s : Symbol) (w : Word) : Prop :=
  g.Generates s w ∧ (w ≠ [] → (g.withoutEpsilon nulls).Generates s w)

/-- Some variant of a body yields what the body reads: a symbol is left out where its word is empty. -/
theorem exists_variant_yields (h : g.nullable factor = .ok nulls)
    (hr : Reads (KeptWord g nulls) b w) :
    ∃ c, Omits nulls b c ∧ Yields (g.withoutEpsilon nulls) c w := by
  induction hr with
  | nil => exact ⟨[], .nil, .nil⟩
  | @cons s rest u v head _ ih =>
    obtain ⟨c, hc, hyc⟩ := ih
    by_cases hu : u = []
    · subst hu
      exact ⟨c, .drop ((mem_nullable_iff h).mpr head.1) hc, hyc⟩
    · exact ⟨s :: c, .keep hc, Yields.append (head.2 hu) hyc⟩

theorem reads_keptWord (h : g.nullable factor = .ok nulls) (hy : Yields g b w) :
    Reads (KeptWord g nulls) b w := by
  apply hy.interpret
  · intro a ha
    exact ⟨generates_terminal ha, fun _ => generates_terminal ha⟩
  · intro B hB b hb w hy hr
    constructor
    · exact generates_of_body hB hb hy
    · intro hw
      obtain ⟨c, hc, hyc⟩ := exists_variant_yields h hr
      have hvisible : c ≠ [] := by
        rintro rfl
        cases hyc
        exact hw rfl
      have hmem : c ∈ (g.withoutEpsilon nulls).alternatives B :=
        mem_alternatives_withoutEpsilon.mpr ⟨hB, hvisible, b, hb, hc⟩
      exact generates_of_body hB hmem hyc

/-- Every non-terminal keeps its words, except the empty one. -/
theorem generates_withoutEpsilon_iff (h : g.nullable factor = .ok nulls) :
    (g.withoutEpsilon nulls).Generates A w ↔ g.Generates A w ∧ w ≠ [] := by
  constructor
  · intro hy
    have hback : Yields g [A] w := by
      apply Yields.mono _ _ hy
      · exact fun _ ha => ha
      · intro B hB c hc w hy
        obtain ⟨-, -, b, hb, homits⟩ := mem_alternatives_withoutEpsilon.mp hc
        exact generates_of_body hB hb (homits.yields (fun s hs => (mem_nullable_iff h).mp hs) hy)
    exact ⟨hback, ne_nil_of_generates nil_notMem_withoutEpsilon hy⟩
  · rintro ⟨hy, hw⟩
    obtain ⟨u, v, rfl, hu, hv⟩ := reads_cons_iff.mp (reads_keptWord h hy)
    rw [reads_nil_iff.mp hv, List.append_nil] at hw ⊢
    exact hu.2 hw

end Grammar

end ContextFree
