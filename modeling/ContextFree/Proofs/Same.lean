import ContextFree.Proofs.Stages

/-!
Grammars that differ at most in the order in which left sides and bodies are listed. A set is listed in the
order in which it was built, so two such grammars go on to be listed differently from stage to stage. The
order carries no meaning: every analysis finds the same in both, and every stage makes grammars that again
differ at most in order. Where names are handed out the order would show: there the productions are sorted
first (`Same.productions`), and two reshapings go in step from helper to helper (`Reshaping.Same`).
-/
namespace ContextFree

variable {g h : Grammar} {A B : Symbol} {b : Body} {w : Word} {factor : Int} {keep : Bool}
  {supply : NameSupply}

/-! ## Sets and maps -/

theorem mergeSort_congr {α : Type} {le : α → α → Bool}
    (trans : ∀ a b c, le a b = true → le b c = true → le a c = true)
    (total : ∀ a b, (le a b || le b a) = true)
    (antisymm : ∀ a b, le a b = true → le b a = true → a = b)
    {as bs : List α} (ha : as.Nodup) (hb : bs.Nodup) (h : ∀ a, a ∈ as ↔ a ∈ bs) :
    as.mergeSort le = bs.mergeSort le := by
  have hperm : as.Perm bs := (List.perm_ext_iff_of_nodup ha hb).mpr h
  have hsorted : (as.mergeSort le).Perm (bs.mergeSort le) :=
    ((List.mergeSort_perm as le).trans hperm).trans (List.mergeSort_perm bs le).symm
  exact hsorted.eq_of_pairwise (fun a b _ _ => antisymm a b)
    (List.pairwise_mergeSort trans total as) (List.pairwise_mergeSort trans total bs)

theorem Alternatives.sorted_congr {a b : Alternatives} (h : ∀ c, c ∈ a ↔ c ∈ b) :
    a.sorted = b.sorted := by
  apply mergeSort_congr _ Body.le_total _ a.nodup b.nodup h
  · exact fun _ _ _ => Body.le_trans
  · exact fun _ _ => Body.le_antisymm

theorem sortedSymbols_congr {as bs : List Symbol} (ha : as.Nodup) (hb : bs.Nodup)
    (h : ∀ s, s ∈ as ↔ s ∈ bs) : sortedSymbols as = sortedSymbols bs := by
  apply mergeSort_congr _ _ _ ha hb h
  · simp only [decide_eq_true_eq]
    exact fun _ _ _ => String.le_trans
  · simp only [Bool.or_eq_true, decide_eq_true_eq]
    exact String.le_total
  · simp only [decide_eq_true_eq]
    exact fun _ _ => String.le_antisymm

/-- The same left sides with the same bodies. -/
structure Rules.Same (r s : Rules) : Prop where
  keys : ∀ A, A ∈ r.keys ↔ A ∈ s.keys
  bodies : ∀ A b, b ∈ r.alternatives A ↔ b ∈ s.alternatives A

namespace Rules

variable {r s t : Rules}

theorem Same.refl (r : Rules) : r.Same r := ⟨fun _ => Iff.rfl, fun _ _ => Iff.rfl⟩

theorem Same.symm (h : r.Same s) : s.Same r :=
  ⟨fun A => (h.keys A).symm, fun A b => (h.bodies A b).symm⟩

theorem Same.trans (h : r.Same s) (h' : s.Same t) : r.Same t :=
  ⟨fun A => (h.keys A).trans (h'.keys A), fun A b => (h.bodies A b).trans (h'.bodies A b)⟩

theorem sameAs_iff : r.sameAs s = true ↔ r.Same s := by
  simp only [Rules.sameAs, Bool.and_eq_true, List.all_eq_true, List.contains_iff_mem,
    Option.any_eq_true, Alternatives.sameAs_iff]
  constructor
  · rintro ⟨hback, hentries⟩
    have hget {A : Symbol} {alts : Alternatives} (hA : r.get? A = some alts) :
        ∃ alts', s.get? A = some alts' ∧ ∀ c, c ∈ alts ↔ c ∈ alts' :=
      hentries (A, alts) (get?_eq_some_iff.mp hA)
    have hkeys (A : Symbol) : A ∈ r.keys ↔ A ∈ s.keys := by
      refine ⟨fun hA => ?_, hback A⟩
      obtain ⟨alts, halts⟩ := Option.isSome_iff_exists.mp (mem_keys_iff.mp hA)
      obtain ⟨alts', halts', -⟩ := hget halts
      exact mem_keys_iff.mpr (halts' ▸ rfl)
    refine ⟨hkeys, fun A b => ?_⟩
    cases hA : r.get? A with
    | none =>
      have hnone : s.get? A = none := by
        have hkey : A ∉ s.keys := fun hs => by simpa [mem_keys_iff, hA] using (hkeys A).mpr hs
        simpa [mem_keys_iff] using hkey
      simp [mem_alternatives_iff, hA, hnone]
    | some alts =>
      obtain ⟨alts', halts', hsame⟩ := hget hA
      simp [mem_alternatives_iff, hA, halts', hsame]
  · intro h
    refine ⟨fun A => (h.keys A).mpr, fun e he => ?_⟩
    have hr : r.get? e.1 = some e.2 := get?_eq_some_iff.mpr he
    obtain ⟨alts, halts⟩ := Option.isSome_iff_exists.mp
      (mem_keys_iff.mp ((h.keys e.1).mp (mem_keys_iff.mpr (hr ▸ rfl))))
    refine ⟨alts, halts, fun c => ?_⟩
    simpa [mem_alternatives_iff, hr, halts] using h.bodies e.1 c

theorem Same.insert {alts alts' : Alternatives} (h : r.Same s) (A : Symbol)
    (halts : ∀ c, c ∈ alts ↔ c ∈ alts') : (r.insert A alts).Same (s.insert A alts') where
  keys B := by rw [mem_keys_insert, mem_keys_insert, h.keys]
  bodies B b := by
    rw [alternatives_insert, alternatives_insert]
    split
    · exact halts b
    · exact h.bodies B b

end Rules

namespace Grammar

/-- The same symbols in the same order, the same start and the same rules, these in any order. -/
structure Same (g h : Grammar) : Prop where
  nonterminals : g.nonterminals = h.nonterminals
  terminals : g.terminals = h.terminals
  start : g.start = h.start
  rules : g.rules.Same h.rules

theorem sameAs_iff_same : g.sameAs h = true ↔ g.Same h := by
  simp only [Grammar.sameAs, Bool.and_eq_true, beq_iff_eq, Rules.sameAs_iff]
  exact ⟨fun ⟨⟨⟨hn, ht⟩, hs⟩, hr⟩ => ⟨hn, ht, hs, hr⟩,
    fun hs => ⟨⟨⟨hs.nonterminals, hs.terminals⟩, hs.start⟩, hs.rules⟩⟩

theorem Same.symm (hs : g.Same h) : h.Same g :=
  ⟨hs.nonterminals.symm, hs.terminals.symm, hs.start.symm, hs.rules.symm⟩

theorem Same.mem_alternatives (hs : g.Same h) : b ∈ g.alternatives A ↔ b ∈ h.alternatives A :=
  hs.rules.bodies A b

theorem Same.isTerminal (hs : g.Same h) : g.isTerminal = h.isTerminal := by
  funext s
  rw [Grammar.isTerminal, Grammar.isTerminal, hs.terminals]

theorem Same.isNonterminal (hs : g.Same h) : g.isNonterminal = h.isNonterminal := by
  funext s
  rw [Grammar.isNonterminal, Grammar.isNonterminal, hs.nonterminals]

theorem Same.isUnit (hs : g.Same h) : g.isUnit b = h.isUnit b := by
  unfold Grammar.isUnit
  rw [hs.isNonterminal]

theorem Same.valid (hs : g.Same h) (hg : g.Valid) : h.Valid where
  disjoint := hs.nonterminals ▸ hs.terminals ▸ hg.disjoint
  start_mem := hs.nonterminals ▸ hs.start ▸ hg.start_mem
  lhs_mem A hA := hs.nonterminals ▸ hg.lhs_mem A ((hs.rules.keys A).mpr hA)
  body_mem A b hb := hs.nonterminals ▸ hs.terminals ▸ hg.body_mem A b (hs.mem_alternatives.mpr hb)

/-- Productions are sorted, so their order is the same. -/
theorem Same.productions (hs : g.Same h) : g.productions = h.productions := by
  unfold Grammar.productions
  rw [hs.nonterminals]
  apply List.flatMap_congr
  intro A _
  rw [Alternatives.sorted_congr fun c => hs.mem_alternatives]

theorem Same.startOccurs (hs : g.Same h) : g.startOccurs = h.startOccurs := by
  apply Bool.eq_iff_iff.mpr
  simp only [startOccurs_iff, hs.mem_alternatives, hs.start]

theorem Same.isNormalForm (hs : g.Same h) : g.isNormalForm keep = h.isNormalForm keep := by
  have hnormal : g.isNormalBody = h.isNormalBody := by
    funext b
    unfold Grammar.isNormalBody
    rw [hs.isTerminal, hs.isNonterminal]
  have hoccurs : g.bodySymbols.contains g.start = h.bodySymbols.contains h.start := hs.startOccurs
  unfold Grammar.isNormalForm
  rw [hs.productions, hnormal, hoccurs, hs.start]

/-! ## Analyses -/

theorem Same.yields (hs : g.Same h) (hy : Yields g b w) : Yields h b w := by
  apply hy.mono
  · exact fun a ha => hs.terminals ▸ ha
  · intro A hA c hc w hy
    exact generates_of_body (hs.nonterminals ▸ hA) (hs.mem_alternatives.mp hc) hy

theorem Same.yields_iff (hs : g.Same h) : Yields g b w ↔ Yields h b w :=
  ⟨hs.yields, hs.symm.yields⟩

theorem Same.unitChain (hs : g.Same h) (chain : UnitChain g A B) : UnitChain h A B := by
  induction chain with
  | refl => exact .refl _
  | step _ hC hb ih => exact ih.step (hs.nonterminals ▸ hC) (hs.mem_alternatives.mp hb)

theorem Same.reaches (hs : g.Same h) (hA : g.Reaches A) : h.Reaches A := by
  induction hA with
  | start => exact hs.start ▸ .start
  | body _ hb hB declared ih =>
    exact ih.body (hs.mem_alternatives.mp hb) hB (hs.nonterminals ▸ declared)

theorem Same.mem_nullable (hs : g.Same h) {nulls nulls' : List Symbol}
    (hn : g.nullable factor = .ok nulls) (hn' : h.nullable factor = .ok nulls') :
    A ∈ nulls ↔ A ∈ nulls' := by
  rw [mem_nullable_iff hn, mem_nullable_iff hn']
  exact hs.yields_iff

theorem Same.mem_unitClosure (hs : g.Same h) {pairs pairs' : UnitPairs}
    (hp : g.unitClosure factor = .ok pairs) (hp' : h.unitClosure factor = .ok pairs') :
    (A, B) ∈ pairs ↔ (A, B) ∈ pairs' := by
  rw [mem_unitClosure_iff hp, mem_unitClosure_iff hp', hs.nonterminals]
  exact and_congr_right fun _ => ⟨hs.unitChain, hs.symm.unitChain⟩

theorem Same.mem_productive (hs : g.Same h) (hg : g.Valid) {productive productive' : List Symbol}
    (hp : g.productive factor = .ok productive) (hp' : h.productive factor = .ok productive') :
    A ∈ productive ↔ A ∈ productive' := by
  rw [mem_productive_iff hg hp, mem_productive_iff (hs.valid hg) hp', hs.nonterminals]
  exact and_congr_right fun _ => exists_congr fun _ => hs.yields_iff

theorem Same.mem_reachable (hs : g.Same h) : A ∈ g.reachable ↔ A ∈ h.reachable := by
  rw [mem_reachable_iff, mem_reachable_iff]
  exact ⟨hs.reaches, hs.symm.reaches⟩

/-! ## Stages -/

theorem Same.withoutEpsilon (hs : g.Same h) {nulls nulls' : List Symbol}
    (hn : ∀ A, A ∈ nulls ↔ A ∈ nulls') :
    (g.withoutEpsilon nulls).Same (h.withoutEpsilon nulls') where
  nonterminals := hs.nonterminals
  terminals := hs.terminals
  start := hs.start
  rules := by
    constructor
    · intro A
      simp only [Grammar.withoutEpsilon, Rules.mem_keys_tabulate, List.mem_filter,
        List.contains_iff_mem, hs.nonterminals, hs.rules.keys]
    · intro A b
      have homits (c : Body) : Omits nulls c b ↔ Omits nulls' c b :=
        ⟨Omits.mono fun s => (hn s).mp, Omits.mono fun s => (hn s).mpr⟩
      change b ∈ (g.withoutEpsilon nulls).alternatives A ↔ b ∈ (h.withoutEpsilon nulls').alternatives A
      simp only [mem_alternatives_withoutEpsilon, hs.nonterminals, hs.mem_alternatives, homits]

theorem Same.withoutUnits (hs : g.Same h) {pairs pairs' : UnitPairs}
    (hp : ∀ A B, (A, B) ∈ pairs ↔ (A, B) ∈ pairs') :
    (g.withoutUnits pairs).Same (h.withoutUnits pairs') where
  nonterminals := hs.nonterminals
  terminals := hs.terminals
  start := hs.start
  rules := by
    constructor
    · intro A
      simp only [Grammar.withoutUnits, Rules.mem_keys_tabulate, List.mem_filter,
        List.contains_iff_mem, hs.nonterminals, hs.rules.keys]
    · intro A b
      simp only [Grammar.withoutUnits, Rules.mem_alternatives_tabulate, List.mem_filter,
        List.contains_iff_mem, hs.nonterminals, hs.rules.keys, properBodies,
        Alternatives.mem_ofList, List.mem_flatMap, UnitPairs.mem_reachedFrom, hp,
        ← Alternatives.mem_def, Alternatives.mem_filter, hs.mem_alternatives, hs.isUnit]

/-- What is kept of the symbols, and of the bodies under them, is the same. -/
theorem Same.keepNonterminals (hs : g.Same h) {keep keep' : Symbol → Bool} {r r' : Rules}
    (hkeep : ∀ A, keep A = keep' A) (hr : r.Same r') :
    (g.keepNonterminals keep r).Same (h.keepNonterminals keep' r') where
  nonterminals := by
    change distinct (g.nonterminals.filter keep) = distinct (h.nonterminals.filter keep')
    rw [hs.nonterminals, funext hkeep]
  terminals := hs.terminals
  start := hs.start
  rules := hr

theorem Same.removeUnreachable (hs : g.Same h) : g.removeUnreachable.Same h.removeUnreachable := by
  have hkeep (A : Symbol) : g.reachable.contains A = h.reachable.contains A := by
    apply Bool.eq_iff_iff.mpr
    simp only [List.contains_iff_mem, hs.mem_reachable]
  apply hs.keepNonterminals hkeep
  constructor
  · intro A
    simp only [Rules.mem_keys_restrict, hkeep, hs.rules.keys]
  · intro A b
    simp only [Rules.mem_alternatives_restrict, hkeep, hs.rules.bodies]

theorem Same.withoutUnproductive (hs : g.Same h) {productive productive' : List Symbol}
    (hp : ∀ A, A ∈ productive ↔ A ∈ productive') :
    (g.withoutUnproductive productive).Same (h.withoutUnproductive productive') := by
  have hkeep (A : Symbol) : g.staysProductive productive A = h.staysProductive productive' A := by
    apply Bool.eq_iff_iff.mpr
    simp only [staysProductive_iff, hp, hs.start]
  have hbody (b : Body) :
      g.isProductiveBody productive b = h.isProductiveBody productive' b := by
    apply Bool.eq_iff_iff.mpr
    simp only [isProductiveBody_iff, hp, hs.terminals]
  apply hs.keepNonterminals hkeep
  constructor
  · intro A
    simp only [Rules.mem_keys_mapAlternatives, Rules.mem_keys_restrict, hkeep, hs.rules.keys]
  · intro A b
    simp only [Rules.mem_alternatives_mapAlternatives, Rules.mem_keys_restrict,
      Alternatives.mem_filter, Rules.mem_alternatives_restrict, hkeep, hbody, hs.rules.keys,
      hs.rules.bodies]

end Grammar

end ContextFree
