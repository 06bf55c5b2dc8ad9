import ContextFree.Proofs.Reduced
import ContextFree.Proofs.Same

/-!
A stage done twice is a stage done once. For each stage there is a condition under which it finds nothing
to do, and returns the grammar it was given but for the order of bodies (`withoutEpsilon_same`,
`withoutUnits_same`, `removeUnreachable_same`, `withoutUnproductive_same`, `reshape_same`,
`addStartEpsilon_same`); and what the stage makes satisfies it. The analysis behind a stage is run anew on
what the stage has made, so the condition says what the new run finds.
-/
namespace ContextFree

variable {g : Grammar} {A : Symbol} {b c d : Body} {factor factor' : Int}
  {nulls productive : List Symbol} {pairs : UnitPairs} {supply : NameSupply}

namespace Grammar

/-- Left sides are declared, so none is lost when rules are set up again for the declared ones. -/
theorem mem_keys_tabulate_declared (hg : g.Valid) (f : Symbol → Alternatives) :
    A ∈ (Rules.tabulate (g.nonterminals.filter (g.rules.keys.contains ·)) f).keys ↔
      A ∈ g.rules.keys := by
  rw [Rules.mem_keys_tabulate, List.mem_filter, List.contains_iff_mem]
  exact ⟨fun h => h.2, fun hA => ⟨hg.lhs_mem A hA, hA⟩⟩

theorem withoutEpsilon_same (hg : g.Valid) (hvisible : ∀ A, [] ∉ g.alternatives A)
    (hclosed : ∀ A, ∀ b ∈ g.alternatives A, ∀ c, c ≠ [] → Omits nulls b c → c ∈ g.alternatives A) :
    (g.withoutEpsilon nulls).Same g where
  nonterminals := rfl
  terminals := rfl
  start := rfl
  rules := by
    constructor
    case keys => exact fun A => mem_keys_tabulate_declared hg _
    case bodies =>
      intro A c
      refine mem_alternatives_withoutEpsilon.trans ⟨?_, fun hc => ?_⟩
      · rintro ⟨-, hne, b, hb, homits⟩
        exact hclosed A b hb c hne homits
      · have hA : A ∈ g.nonterminals := hg.lhs_mem A (Rules.mem_keys_of_mem_alternatives hc)
        have hne : c ≠ [] := fun e => hvisible A (e ▸ hc)
        exact ⟨hA, hne, c, hc, .refl nulls c⟩

/-- What is left of a remainder is a remainder of the first body. -/
theorem withoutEpsilon_twice (hg : g.Valid) (nulls : List Symbol) :
    ((g.withoutEpsilon nulls).withoutEpsilon nulls).Same (g.withoutEpsilon nulls) := by
  apply withoutEpsilon_same (hg.withoutEpsilon nulls) nil_notMem_withoutEpsilon
  intro A c hc d hd homits
  obtain ⟨hA, -, b, hb, hfirst⟩ := mem_alternatives_withoutEpsilon.mp hc
  exact mem_alternatives_withoutEpsilon.mpr ⟨hA, hd, b, hb, hfirst.trans homits⟩

/-- Without empty bodies no symbol derives the empty word, so nothing is left out. -/
theorem withoutEpsilon_same_of_visible (hg : g.Valid) (hvisible : ∀ A, [] ∉ g.alternatives A)
    (hn : g.nullable factor = .ok nulls) : (g.withoutEpsilon nulls).Same g := by
  have hnone (s : Symbol) : s ∉ nulls :=
    fun hs => ne_nil_of_generates hvisible ((mem_nullable_iff hn).mp hs) rfl
  apply withoutEpsilon_same hg hvisible
  intro A b hb c _ homits
  rwa [homits.eq_of_empty hnone]

/-! ## Unit bodies -/

theorem UnitChain.eq_of_unitFree {B : Symbol}
    (hproper : ∀ A, ∀ b ∈ g.alternatives A, ¬ g.isUnit b = true) (chain : UnitChain g A B) :
    B = A := by
  cases chain with
  | refl => rfl
  | step _ hC hb => exact absurd (isUnit_iff.mpr ⟨_, hC, rfl⟩) (hproper _ _ hb)

theorem withoutUnits_same (hg : g.Valid)
    (hproper : ∀ A, ∀ b ∈ g.alternatives A, ¬ g.isUnit b = true)
    (hu : g.unitClosure factor = .ok pairs) : (g.withoutUnits pairs).Same g where
  nonterminals := rfl
  terminals := rfl
  start := rfl
  rules := by
    constructor
    case keys => exact fun A => mem_keys_tabulate_declared hg _
    case bodies =>
      intro A b
      refine (mem_alternatives_withoutUnits hu).trans ⟨?_, fun hb => ?_⟩
      · rintro ⟨-, -, B, chain, hb, -⟩
        exact UnitChain.eq_of_unitFree hproper chain ▸ hb
      · have hkey : A ∈ g.rules.keys := Rules.mem_keys_of_mem_alternatives hb
        exact ⟨hg.lhs_mem A hkey, hkey, A, .refl A, hb, hproper A b hb⟩

/-! ## Pruning -/

/-- Nothing is dropped where all that is declared is kept. -/
theorem keepNonterminals_same {keep : Symbol → Bool} {rules : Rules} (hn : g.nonterminals.Nodup)
    (hkeep : ∀ A ∈ g.nonterminals, keep A = true) (hr : rules.Same g.rules) :
    (g.keepNonterminals keep rules).Same g where
  nonterminals := by
    change distinct (g.nonterminals.filter keep) = g.nonterminals
    rw [List.filter_eq_self.mpr hkeep, distinct_eq_self hn]
  terminals := rfl
  start := rfl
  rules := hr

theorem nodup_keepNonterminals (keep : Symbol → Bool) (rules : Rules) :
    (g.keepNonterminals keep rules).nonterminals.Nodup :=
  nodup_distinct _

theorem removeUnreachable_same (hg : g.Valid) (hn : g.nonterminals.Nodup)
    (hreached : ∀ A ∈ g.nonterminals, g.Reaches A) : g.removeUnreachable.Same g := by
  have hkeep : ∀ A ∈ g.nonterminals, g.reachable.contains A = true :=
    fun A hA => List.contains_iff_mem.mpr (mem_reachable_iff.mpr (hreached A hA))
  apply keepNonterminals_same hn hkeep
  constructor
  case keys =>
    intro A
    rw [Rules.mem_keys_restrict]
    exact ⟨fun h => h.2, fun hA => ⟨hkeep A (hg.lhs_mem A hA), hA⟩⟩
  case bodies =>
    intro A b
    rw [Rules.mem_alternatives_restrict]
    refine ⟨fun h => h.2, fun hb => ⟨hkeep A ?_, hb⟩⟩
    exact hg.lhs_mem A (Rules.mem_keys_of_mem_alternatives hb)

theorem withoutUnproductive_same (hg : g.Valid) (hn : g.nonterminals.Nodup)
    (hkeep : ∀ A ∈ g.nonterminals, A ∈ productive ∨ A = g.start)
    (hbodies : ∀ A, ∀ b ∈ g.alternatives A, ∀ s ∈ b, s ∈ g.terminals ∨ s ∈ productive) :
    (g.withoutUnproductive productive).Same g := by
  have hstays : ∀ A ∈ g.nonterminals, g.staysProductive productive A = true :=
    fun A hA => staysProductive_iff.mpr (hkeep A hA)
  apply keepNonterminals_same hn hstays
  constructor
  case keys =>
    intro A
    rw [Rules.mem_keys_mapAlternatives, Rules.mem_keys_restrict]
    exact ⟨fun h => h.2, fun hA => ⟨hstays A (hg.lhs_mem A hA), hA⟩⟩
  case bodies =>
    intro A b
    refine mem_alternatives_withoutUnproductive.trans ⟨fun h => h.2.1, fun hb => ?_⟩
    have hA : A ∈ g.nonterminals := hg.lhs_mem A (Rules.mem_keys_of_mem_alternatives hb)
    exact ⟨hkeep A hA, hb, hbodies A b hb⟩

/-- What was found productive is found so again. -/
theorem mem_productive_withoutUnproductive {productive' : List Symbol} (hg : g.Valid)
    (hp : g.productive factor = .ok productive)
    (hp' : (g.withoutUnproductive productive).productive factor' = .ok productive')
    (hA : A ∈ productive) : A ∈ productive' := by
  have hdeclared : A ∈ (g.withoutUnproductive productive).nonterminals :=
    mem_nonterminals_withoutUnproductive.mpr ⟨((mem_productive_iff hg hp).mp hA).1, .inl hA⟩
  have hword := exists_generates_withoutUnproductive hg hp hA
  exact (mem_productive_iff (hg.withoutUnproductive hp) hp').mpr ⟨hdeclared, hword⟩

theorem withoutUnproductive_twice {productive' : List Symbol} (hg : g.Valid)
    (hp : g.productive factor = .ok productive)
    (hp' : (g.withoutUnproductive productive).productive factor' = .ok productive') :
    ((g.withoutUnproductive productive).withoutUnproductive productive').Same
      (g.withoutUnproductive productive) := by
  apply withoutUnproductive_same (hg.withoutUnproductive hp) (nodup_keepNonterminals _ _)
  · intro A hA
    have hstays := (mem_nonterminals_withoutUnproductive.mp hA).2
    exact hstays.imp_left (mem_productive_withoutUnproductive hg hp hp')
  · intro A b hb s hs
    have hbody := (mem_alternatives_withoutUnproductive.mp hb).2.2
    exact (hbody s hs).imp_right (mem_productive_withoutUnproductive hg hp hp')

end Grammar

/-! ## Reshaping -/

/-- Bodies have at most two symbols, and where they have two no terminal among them. -/
def Grammar.Shaped (g : Grammar) : Prop :=
  ∀ A, ∀ b ∈ g.alternatives A, b.length ≤ 2 ∧ (b.length = 2 → ∀ s ∈ b, s ∉ g.terminals)

namespace Reshaping

variable {r : Reshaping} {done : List (Symbol × Body)}

theorem binarize_of_short (hb : b.length ≤ 2) (r : Reshaping) : binarize b r = (b, r) := by
  match b, hb with
  | [], _ => rw [binarize]; simp
  | [_], _ => rw [binarize]; simp
  | [_, _], _ => rw [binarize]; simp

theorem liftSymbol_of_notMem {s : Symbol} (hs : s ∉ g.terminals) (r : Reshaping) :
    r.liftSymbol g.isTerminal s = (s, r) := by
  rw [liftSymbol, if_neg (by simpa using hs)]

theorem liftBody_of_lifted (hb : b.length = 2 → ∀ s ∈ b, s ∉ g.terminals) (r : Reshaping) :
    r.liftBody g.isTerminal b = (b, r) := by
  unfold liftBody
  split
  · rename_i s t
    have hpair := hb rfl
    simp only [List.forall_mem_cons] at hpair
    simp only [liftSymbol_of_notMem hpair.1, liftSymbol_of_notMem hpair.2.1]
  · rfl

theorem liftBodies_of_lifted {bs : List Body}
    (hbs : ∀ b ∈ bs, b.length = 2 → ∀ s ∈ b, s ∉ g.terminals) (r : Reshaping) :
    r.liftBodies g.isTerminal bs = (bs, r) := by
  induction bs with
  | nil => rfl
  | cons b bs ih =>
    obtain ⟨hb, hbs⟩ := List.forall_mem_cons.mp hbs
    simp only [liftBodies, liftBody_of_lifted hb, ih hbs]

/-- Of the productions of `g`, those in `done` are there as they were, and no helper is. -/
structure AsGiven (g : Grammar) (supply : NameSupply) (done : List (Symbol × Body))
    (r : Reshaping) : Prop where
  supply : r.supply = supply
  nonterminals : r.nonterminals = g.nonterminals
  keys : ∀ A, A ∈ r.rules.keys ↔ A ∈ g.rules.keys
  bodies : ∀ A b, b ∈ r.rules.alternatives A ↔ (A, b) ∈ done

theorem asGiven_beginReshaping (g : Grammar) (supply : NameSupply) :
    AsGiven g supply [] (g.beginReshaping supply) where
  supply := rfl
  nonterminals := rfl
  keys A := Rules.mem_keys_mapAlternatives
  bodies A b := by
    rw [Grammar.beginReshaping, Rules.mem_alternatives_mapAlternatives]
    simp

theorem AsGiven.addProduction (h : AsGiven g supply done r) (hA : A ∈ g.rules.keys)
    (hb : b.length ≤ 2) : AsGiven g supply (done ++ [(A, b)]) (r.addProduction A b) := by
  simp only [Reshaping.addProduction, binarize_of_short hb]
  constructor
  case supply => exact h.supply
  case nonterminals => exact h.nonterminals
  case keys =>
    intro B
    rw [Rules.mem_keys_insert, h.keys]
    exact ⟨fun hB => hB.elim (fun e => e ▸ hA) id, .inr⟩
  case bodies =>
    intro B c
    rw [Rules.alternatives_insert, List.mem_append, List.mem_singleton, Prod.mk.injEq]
    by_cases hB : B = A
    · rw [if_pos hB, Alternatives.mem_insert, h.bodies, hB, or_comm]
      simp
    · rw [if_neg hB, h.bodies]
      simp [hB]

theorem AsGiven.addProductions {ps : List (Symbol × Body)} (h : AsGiven g supply done r)
    (hps : ∀ p ∈ ps, p.1 ∈ g.rules.keys ∧ p.2.length ≤ 2) :
    AsGiven g supply (done ++ ps) (ps.foldl (fun r p => r.addProduction p.1 p.2) r) := by
  induction ps generalizing done r with
  | nil => rwa [List.append_nil]
  | cons p ps ih =>
    obtain ⟨⟨hA, hb⟩, hps⟩ := List.forall_mem_cons.mp hps
    have hrest := ih (h.addProduction hA hb) hps
    rwa [List.append_assoc, List.singleton_append] at hrest

theorem AsGiven.liftAlternatives (h : AsGiven g supply done r)
    (hlifted : ∀ p ∈ done, p.2.length = 2 → ∀ s ∈ p.2, s ∉ g.terminals) (A : Symbol) :
    AsGiven g supply done (r.liftAlternatives g.isTerminal A) := by
  unfold Reshaping.liftAlternatives
  cases hget : r.rules.get? A with
  | none => exact h
  | some alts =>
    have halts : r.rules.alternatives A = alts := by rw [Rules.alternatives, hget]; rfl
    have hbs : ∀ b ∈ alts.sorted, b.length = 2 → ∀ s ∈ b, s ∉ g.terminals := by
      intro b hb
      rw [Alternatives.mem_sorted, ← halts, h.bodies] at hb
      exact hlifted _ hb
    simp only [liftBodies_of_lifted hbs]
    constructor
    case supply => exact h.supply
    case nonterminals => exact h.nonterminals
    case keys =>
      intro B
      have hA : A ∈ r.rules.keys := Rules.mem_keys_iff.mpr (by rw [hget]; rfl)
      rw [Rules.mem_keys_insert, ← h.keys]
      exact ⟨fun hB => hB.elim (fun e => e ▸ hA) id, .inr⟩
    case bodies =>
      intro B c
      rw [Rules.alternatives_insert, ← h.bodies]
      split
      · rename_i hB
        rw [hB, halts, Alternatives.mem_ofList, Alternatives.mem_sorted]
      · rfl

theorem AsGiven.liftAll (h : AsGiven g supply done r)
    (hlifted : ∀ p ∈ done, p.2.length = 2 → ∀ s ∈ p.2, s ∉ g.terminals) (As : List Symbol) :
    AsGiven g supply done (As.foldl (fun r A => r.liftAlternatives g.isTerminal A) r) := by
  induction As generalizing r with
  | nil => exact h
  | cons A As ih => exact ih (h.liftAlternatives hlifted A)

/-- Bodies that are short and lifted pass through a reshaping. -/
theorem reshaping_asGiven (hs : g.Shaped) (supply : NameSupply) :
    AsGiven g supply g.productions (g.reshaping supply) := by
  have hbinary : AsGiven g supply g.productions _ :=
    (asGiven_beginReshaping g supply).addProductions fun p hp => by
      obtain ⟨-, hb⟩ := Grammar.mem_productions.mp hp
      exact ⟨Rules.mem_keys_of_mem_alternatives hb, (hs p.1 p.2 hb).1⟩
  exact hbinary.liftAll (fun p hp => (hs p.1 p.2 (Grammar.mem_productions.mp hp).2).2) _

end Reshaping

namespace Grammar

theorem reshape_same (hg : g.Valid) (hn : g.nonterminals.Nodup) (hs : g.Shaped)
    (supply : NameSupply) :
    (g.reshape supply).1.Same g ∧ (g.reshape supply).2 = supply := by
  have h := Reshaping.reshaping_asGiven hs supply
  refine ⟨?_, h.supply⟩
  constructor
  case nonterminals =>
    change distinct (g.reshaping supply).nonterminals = g.nonterminals
    rw [h.nonterminals, distinct_eq_self hn]
  case terminals => rfl
  case start => rfl
  case rules =>
    refine ⟨h.keys, fun A b => (h.bodies A b).trans ?_⟩
    rw [mem_productions]
    exact ⟨fun hb => hb.2, fun hb => ⟨hg.lhs_mem A (Rules.mem_keys_of_mem_alternatives hb), hb⟩⟩

theorem shaped_reshape (hg : g.Valid) (hs : supply.Covers g) : (g.reshape supply).1.Shaped := by
  obtain ⟨hf, hlifted⟩ := Reshaping.reshaping_spec hg hs
  intro A b hb
  constructor
  · obtain hlen | ⟨hlen, -⟩ := hf.settled A b hb
    · exact hlen.le
    · exact hlen.le
  · exact hlifted A b hb

/-! ## The empty word -/

theorem addStartEpsilon_same (hocc : ¬ g.startOccurs = true) (hempty : [] ∈ g.alternatives g.start)
    (supply : NameSupply) :
    (g.addStartEpsilon supply).1.Same g ∧ (g.addStartEpsilon supply).2 = supply := by
  obtain ⟨hyes, -⟩ | ⟨-, heq⟩ := g.addStartEpsilon_cases supply
  · exact absurd hyes hocc
  · rw [heq]
    refine ⟨⟨rfl, rfl, rfl, ?_, ?_⟩, rfl⟩
    · intro A
      have hstart : g.start ∈ g.rules.keys := Rules.mem_keys_of_mem_alternatives hempty
      rw [Rules.mem_keys_insert]
      exact ⟨fun hA => hA.elim (fun e => e ▸ hstart) id, .inr⟩
    · intro A b
      rw [Rules.alternatives_insert]
      split
      · rename_i hA
        rw [hA, mem_startBodies]
        exact ⟨fun hb => hb.elim (fun e => e ▸ hempty) id, .inr⟩
      · rfl

theorem not_startOccurs_of_withStartEpsilon {h : Grammar} (hh : WithStartEpsilon g h) :
    ¬ h.startOccurs = true := by
  rw [startOccurs_iff]
  rintro ⟨A, b, hb, hmem⟩
  exact hh.start_notMem_body hb hmem

/-! ## All stages -/

/-- Both runs succeed, and `again` changes nothing in what `first` makes of `g`. -/
def OnceIsEnough (first again : Grammar → Except GrammarError Grammar) (g : Grammar) : Prop :=
  ∃ once twice, first g = .ok once ∧ again once = .ok twice ∧ twice.sameAs once = true

/-- Whatever supply a second run is given, it changes nothing and takes no name from it. -/
def OnceIsEnoughWith (stage : Grammar → NameSupply → Grammar × NameSupply) (g : Grammar)
    (supply : NameSupply) : Prop :=
  ∀ later, (stage (stage g supply).1 later).1.sameAs (stage g supply).1 = true ∧
    (stage (stage g supply).1 later).2 = later

theorem onceIsEnough_of_same {first again : Grammar → Except GrammarError Grammar}
    {once twice : Grammar} (hfirst : first g = .ok once) (hagain : again once = .ok twice)
    (hs : twice.Same once) : OnceIsEnough first again g :=
  ⟨once, twice, hfirst, hagain, sameAs_iff_same.mpr hs⟩

theorem removeEpsilon_twice (hg : g.Valid) (hf : 1 ≤ factor) (hf' : 1 ≤ factor') :
    OnceIsEnough (·.removeEpsilon none factor) (·.removeEpsilon none factor') g := by
  obtain ⟨found, hfound⟩ := g.nullable_isOk hf
  obtain ⟨again, hagain⟩ := (g.withoutEpsilon found).nullable_isOk hf'
  have hsame := withoutEpsilon_same_of_visible (hg.withoutEpsilon found)
    nil_notMem_withoutEpsilon hagain
  exact onceIsEnough_of_same (removeEpsilon_eq_ok hfound) (removeEpsilon_eq_ok hagain) hsame

theorem removeUnits_twice (hg : g.Valid) (hf : 1 ≤ factor) (hf' : 1 ≤ factor') :
    OnceIsEnough (·.removeUnits factor) (·.removeUnits factor') g := by
  obtain ⟨found, hfound⟩ := g.unitClosure_isOk hf
  obtain ⟨again, hagain⟩ := (g.withoutUnits found).unitClosure_isOk hf'
  have hsame := withoutUnits_same (hg.withoutUnits hfound)
    (fun A b => not_isUnit_of_mem_withoutUnits hfound) hagain
  exact onceIsEnough_of_same (removeUnits_eq_ok hfound) (removeUnits_eq_ok hagain) hsame

theorem removeUnproductive_twice (hg : g.Valid) (hf : 1 ≤ factor) (hf' : 1 ≤ factor') :
    OnceIsEnough (·.removeUnproductive factor) (·.removeUnproductive factor') g := by
  obtain ⟨found, hfound⟩ := g.productive_isOk hf
  obtain ⟨again, hagain⟩ := (g.withoutUnproductive found).productive_isOk hf'
  exact onceIsEnough_of_same (removeUnproductive_eq_ok hfound) (removeUnproductive_eq_ok hagain)
    (withoutUnproductive_twice hg hfound hagain)

theorem reshape_twice (hg : g.Valid) (hs : supply.Covers g) : OnceIsEnoughWith reshape g supply := by
  intro later
  have honce := ((Reshaping.reshaping_spec hg hs).1).valid hg
  have htwice := reshape_same honce (nodup_distinct _) (shaped_reshape hg hs) later
  exact htwice.imp_left sameAs_iff_same.mpr

theorem addStartEpsilon_twice (hg : g.Valid) (hs : supply.Covers g) :
    OnceIsEnoughWith addStartEpsilon g supply := by
  intro later
  have hh := addStartEpsilon_spec hg hs
  have htwice := addStartEpsilon_same (not_startOccurs_of_withStartEpsilon hh)
    ((hh.startBodies []).mpr (.inl rfl)) later
  exact htwice.imp_left sameAs_iff_same.mpr

/-- **A stage done twice is a stage done once.** The nullable symbols may be found anew each time, or be
given, and then be any symbols; a second reshaping, or a second empty body for the start, takes no name. -/
theorem stages_idempotent (hg : g.validate = .ok ()) (hf : 1 ≤ factor) (hf' : 1 ≤ factor')
    (nulls : List Symbol) (hs : supply.Covers g) :
    OnceIsEnough (·.removeEpsilon none factor) (·.removeEpsilon none factor') g ∧
    OnceIsEnough (·.removeEpsilon (some nulls) factor) (·.removeEpsilon (some nulls) factor') g ∧
    OnceIsEnough (·.removeUnits factor) (·.removeUnits factor') g ∧
    g.removeUnreachable.removeUnreachable.sameAs g.removeUnreachable = true ∧
    OnceIsEnough (·.removeUnproductive factor) (·.removeUnproductive factor') g ∧
    OnceIsEnoughWith reshape g supply ∧
    OnceIsEnoughWith addStartEpsilon g supply := by
  have hvalid : g.Valid := validate_eq_ok_iff.mp hg
  refine ⟨removeEpsilon_twice hvalid hf hf', ?_, removeUnits_twice hvalid hf hf', ?_,
    removeUnproductive_twice hvalid hf hf', reshape_twice hvalid hs, addStartEpsilon_twice hvalid hs⟩
  · exact onceIsEnough_of_same rfl rfl (withoutEpsilon_twice hvalid nulls)
  · apply sameAs_iff_same.mpr
    exact removeUnreachable_same hvalid.removeUnreachable (nodup_keepNonterminals _ _)
      fun A => reaches_of_mem_removeUnreachable

theorem stages_idempotent_nested :
    OnceIsEnough (·.removeEpsilon none 1) (·.removeEpsilon none 2) nested ∧
    OnceIsEnough (·.removeEpsilon (some ["a"]) 1) (·.removeEpsilon (some ["a"]) 2) nested ∧
    OnceIsEnough (·.removeUnits 1) (·.removeUnits 2) nested ∧
    nested.removeUnreachable.removeUnreachable.sameAs nested.removeUnreachable = true ∧
    OnceIsEnough (·.removeUnproductive 1) (·.removeUnproductive 2) nested ∧
    OnceIsEnoughWith reshape nested (.forGrammar nested) ∧
    OnceIsEnoughWith addStartEpsilon nested (.forGrammar nested) :=
  stages_idempotent nested_validate (by decide) (by decide) ["a"]
    (NameSupply.forGrammarWith_covers nested _ _)

end Grammar

end ContextFree
