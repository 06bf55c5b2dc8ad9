import ContextFree.Proofs.Reading
import ContextFree.Proofs.Unfolding

/-!
Reshaping from beginning to end. The state stays faithful while terminals are lifted, and at the end no
body of two symbols holds a terminal (`reshaping_spec`). A faithful state makes a valid grammar in which
every body of the first one keeps its words (`yields_reshapedBy_iff`): unfolding carries derivations back,
and each body is found again among those that unfold to it.
-/
namespace ContextFree

namespace Reshaping

variable {g : Grammar} {r r' r'' : Reshaping} {done : List (Symbol × Body)} {A B s : Symbol}
  {b c d : Body} {w : Word} {supply : NameSupply}

/-! ## Lifting terminals -/

/-- No body of two symbols holds a terminal. -/
def Lifted (g : Grammar) (r : Reshaping) (A : Symbol) : Prop :=
  ∀ c ∈ r.rules.alternatives A, c.length = 2 → ∀ s ∈ c, s ∉ g.terminals

/-- `r'` comes after `r`, and what was lifted stays lifted. -/
structure LiftExtends (g : Grammar) (r r' : Reshaping) : Prop extends Extends g r r' where
  lifted : ∀ A, r.Lifted g A → r'.Lifted g A

theorem LiftExtends.refl (g : Grammar) (r : Reshaping) : LiftExtends g r r :=
  ⟨.refl g r, fun _ hA => hA⟩

theorem LiftExtends.trans (h : LiftExtends g r r') (h' : LiftExtends g r' r'') :
    LiftExtends g r r'' :=
  ⟨h.toExtends.trans h'.toExtends, fun A hA => h'.lifted A (h.lifted A hA)⟩

/-- The body of a terminal's helper is too short to matter. -/
theorem Lifted.helper (hA : r.Lifted g A) : (r.helper [s]).2.Lifted g A := by
  obtain ⟨name, -, heq⟩ | ⟨-, heq⟩ := r.helper_cases [s]
  · rw [heq]
    exact hA
  · rw [heq]
    intro c hc hlen
    rw [Reshaping.withHelper, Rules.alternatives_insert] at hc
    split at hc
    · simp only [Alternatives.mem_ofList, List.mem_singleton] at hc
      rw [hc] at hlen
      cases hlen
    · exact hA c hc hlen

theorem Faithful.liftSymbol (h : Faithful g done r) (hs : r.Declared g s) :
    Faithful g done (r.liftSymbol g.isTerminal s).2 ∧
      LiftExtends g r (r.liftSymbol g.isTerminal s).2 ∧
      (r.liftSymbol g.isTerminal s).1 ∈ (r.liftSymbol g.isTerminal s).2.nonterminals ∧
      (r.liftSymbol g.isTerminal s).1 ∉ g.terminals ∧
      (r.liftSymbol g.isTerminal s).2.unfold (r.liftSymbol g.isTerminal s).1 = r.unfold s := by
  unfold Reshaping.liftSymbol
  by_cases ht : s ∈ g.terminals
  · rw [if_pos (Grammar.isTerminal_iff.mpr ht)]
    have hpair : Pairable g r [s] := ⟨.inr ⟨s, ht, rfl⟩, by simpa using hs⟩
    obtain ⟨hf, hext, hname, hunfold⟩ := h.helper hpair
    have hsame : r.unfoldBody [s] = r.unfold s := by
      rw [unfoldBody, List.flatMap_singleton]
    exact ⟨hf, ⟨hext, fun A hA => hA.helper⟩, hf.mem_nonterminals.mpr (.inr hname),
      (hf.fresh _ hname).2, hunfold.trans hsame⟩
  · rw [if_neg (by simpa using ht)]
    exact ⟨h, .refl g r, hs.resolve_right ht, ht, rfl⟩

/-- `d` is `c` with the terminals of a pair lifted. -/
structure LiftOf (g : Grammar) (r r' : Reshaping) (c d : Body) : Prop where
  same : r'.unfoldBody d = r.unfoldBody c
  shape : d.length = 2 ∨ d = c
  lifted : d.length = 2 → ∀ s ∈ d, s ∉ g.terminals
  declared : ∀ s ∈ d, r'.Declared g s

theorem LiftOf.extend (h : LiftOf g r r' c d) (hext : Extends g r' r'') : LiftOf g r r'' c d where
  same := (hext.unfoldBody h.declared).trans h.same
  shape := h.shape
  lifted := h.lifted
  declared s hs := hext.declared (h.declared s hs)

theorem LiftOf.after (h : LiftOf g r' r'' c d) (hext : Extends g r r')
    (hc : ∀ s ∈ c, r.Declared g s) : LiftOf g r r'' c d :=
  { h with same := h.same.trans (hext.unfoldBody hc) }

theorem Faithful.liftBody (h : Faithful g done r) (hc : ∀ s ∈ c, r.Declared g s) :
    Faithful g done (r.liftBody g.isTerminal c).2 ∧
      LiftExtends g r (r.liftBody g.isTerminal c).2 ∧
      LiftOf g r (r.liftBody g.isTerminal c).2 c (r.liftBody g.isTerminal c).1 := by
  unfold Reshaping.liftBody
  split
  · rename_i s t
    simp only [List.forall_mem_cons] at hc
    obtain ⟨hs, ht, -⟩ := hc
    obtain ⟨hf₁, hext₁, hmem₁, hlift₁, hsame₁⟩ := h.liftSymbol hs
    obtain ⟨hf₂, hext₂, hmem₂, hlift₂, hsame₂⟩ := hf₁.liftSymbol (hext₁.declared ht)
    refine ⟨hf₂, hext₁.trans hext₂, ?_⟩
    constructor
    case same =>
      rw [unfoldBody_pair, unfoldBody_pair, hext₂.unfold _ (.inl hmem₁), hsame₁, hsame₂,
        hext₁.unfold t ht]
    case shape => exact .inl rfl
    case lifted =>
      intro _
      simpa using ⟨hlift₁, hlift₂⟩
    case declared => simpa using ⟨.inl (hext₂.nonterminals _ hmem₁), .inl hmem₂⟩
  · rename_i hpair
    have hnone : c.length ≠ 2 := by
      intro hlen
      match c, hlen with
      | [s, t], _ => exact hpair s t rfl
    exact ⟨h, .refl g r, rfl, .inr rfl, fun hlen => absurd hlen hnone, hc⟩

theorem Faithful.liftBodies {bs : List Body} (h : Faithful g done r)
    (hbs : ∀ c ∈ bs, ∀ s ∈ c, r.Declared g s) :
    Faithful g done (r.liftBodies g.isTerminal bs).2 ∧
      LiftExtends g r (r.liftBodies g.isTerminal bs).2 ∧
      (∀ c ∈ bs, ∃ d ∈ (r.liftBodies g.isTerminal bs).1,
        LiftOf g r (r.liftBodies g.isTerminal bs).2 c d) ∧
      ∀ d ∈ (r.liftBodies g.isTerminal bs).1, ∃ c ∈ bs,
        LiftOf g r (r.liftBodies g.isTerminal bs).2 c d := by
  induction bs generalizing r with
  | nil => exact ⟨h, .refl g r, by simp, by simp [Reshaping.liftBodies]⟩
  | cons c bs ih =>
    obtain ⟨hc, hbs⟩ := List.forall_mem_cons.mp hbs
    obtain ⟨hf₁, hext₁, hlift₁⟩ := h.liftBody hc
    obtain ⟨hf₂, hext₂, hto, hfrom⟩ := ih hf₁ fun d hd s hs => hext₁.declared (hbs d hd s hs)
    have hhead := hlift₁.extend hext₂.toExtends
    refine ⟨hf₂, hext₁.trans hext₂, List.forall_mem_cons.mpr ⟨⟨_, List.mem_cons_self, hhead⟩, ?_⟩,
      List.forall_mem_cons.mpr ⟨⟨c, List.mem_cons_self, hhead⟩, ?_⟩⟩
    · intro d hd
      obtain ⟨e, he, hlift⟩ := hto d hd
      exact ⟨e, List.mem_cons_of_mem _ he, hlift.after hext₁.toExtends (hbs d hd)⟩
    · intro e he
      obtain ⟨d, hd, hlift⟩ := hfrom e he
      exact ⟨d, List.mem_cons_of_mem _ hd, hlift.after hext₁.toExtends (hbs d hd)⟩

theorem Faithful.liftAlternatives (h : Faithful g done r) (hA : A ∈ r.nonterminals) :
    Faithful g done (r.liftAlternatives g.isTerminal A) ∧
      (∀ B ∈ r.nonterminals, B ∈ (r.liftAlternatives g.isTerminal A).nonterminals) ∧
      ∀ B, B = A ∨ r.Lifted g B → (r.liftAlternatives g.isTerminal A).Lifted g B := by
  unfold Reshaping.liftAlternatives
  cases hget : r.rules.get? A with
  | none =>
    have hnone : r.Lifted g A := by
      intro c hc
      rw [Rules.alternatives, hget] at hc
      exact absurd hc (Alternatives.not_mem_empty c)
    exact ⟨h, fun _ hB => hB, fun B hB => hB.elim (fun e => e ▸ hnone) id⟩
  | some alts =>
    have halts : r.rules.alternatives A = alts := by rw [Rules.alternatives, hget]; rfl
    have hsorted (c : Body) : c ∈ alts.sorted ↔ c ∈ r.rules.alternatives A := by
      rw [halts, Alternatives.mem_sorted]
    obtain ⟨hf, hext, hto, hback⟩ :=
      h.liftBodies fun c hc => h.bodies A c ((hsorted c).mp hc)
    dsimp only
    generalize r.liftBodies g.isTerminal alts.sorted = result at hf hext hto hback ⊢
    obtain ⟨lifted, r'⟩ := result
    have hold : r'.rules.alternatives A = r.rules.alternatives A := hext.alternatives hA
    have hfrom {d : Body} (hd : d ∈ lifted) :
        ∃ c ∈ r'.rules.alternatives A, LiftOf g r r' c d := by
      obtain ⟨c, hc, hlift⟩ := hback d hd
      exact ⟨c, by rw [hold]; exact (hsorted c).mp hc, hlift⟩
    have hsame {c d : Body} (hc : c ∈ r'.rules.alternatives A) (hlift : LiftOf g r r' c d) :
        r'.unfoldBody d = r'.unfoldBody c := by
      rw [hold] at hc
      rw [hlift.same, hext.unfoldBody (h.bodies A c hc)]
    have hkey : A ∈ r'.rules.keys := by
      rw [Rules.mem_keys_iff, hext.rules A hA, hget]
      rfl
    have hfaithful : Faithful g done { r' with rules := r'.rules.insert A (.ofList lifted) } := by
      apply hf.setRules ((hf.keys A).mp hkey) hf.taken (fun _ _ _ => Iff.rfl)
      case hsound =>
        intro d hd
        obtain ⟨c, hc, hlift⟩ := hfrom (Alternatives.mem_ofList.mp hd)
        rw [hsame hc hlift]
        exact hf.sound A c hc
      case hcomplete =>
        intro b hb
        obtain ⟨c, hc, rfl⟩ := hf.complete A b hb
        obtain ⟨d, hd, hlift⟩ := hto c ((hsorted c).mpr (hold ▸ hc))
        exact ⟨d, Alternatives.mem_ofList.mpr hd, hsame hc hlift⟩
      case hsettled =>
        intro d hd
        obtain ⟨c, hc, hlift⟩ := hfrom (Alternatives.mem_ofList.mp hd)
        exact hlift.shape.elim .inl fun e => e ▸ hf.settled A c hc
      case hbodies =>
        intro d hd
        obtain ⟨c, -, hlift⟩ := hfrom (Alternatives.mem_ofList.mp hd)
        exact hlift.declared
    refine ⟨hfaithful, hext.nonterminals, ?_⟩
    intro B hB d hd
    rw [Rules.alternatives_insert] at hd
    split at hd
    · obtain ⟨c, -, hlift⟩ := hfrom (Alternatives.mem_ofList.mp hd)
      exact hlift.lifted
    · rename_i hne
      exact hext.lifted B (hB.resolve_left hne) d hd

/-- Every left side that was to be lifted is lifted in the end. -/
theorem Faithful.liftAll {As : List Symbol} (h : Faithful g done r)
    (hAs : ∀ A ∈ As, A ∈ r.nonterminals) :
    Faithful g done (As.foldl (fun r A => r.liftAlternatives g.isTerminal A) r) ∧
      ∀ B, B ∈ As ∨ r.Lifted g B →
        (As.foldl (fun r A => r.liftAlternatives g.isTerminal A) r).Lifted g B := by
  induction As generalizing r with
  | nil => exact ⟨h, fun B hB => hB.resolve_left List.not_mem_nil⟩
  | cons A As ih =>
    obtain ⟨hA, hAs⟩ := List.forall_mem_cons.mp hAs
    obtain ⟨hf, hmono, hlift⟩ := h.liftAlternatives hA
    obtain ⟨hf', hlift'⟩ := ih hf fun B hB => hmono B (hAs B hB)
    refine ⟨hf', fun B hB => hlift' B ?_⟩
    rw [List.mem_cons, or_right_comm] at hB
    exact hB.symm.imp_right (hlift B)

/-! ## The whole reshaping -/

theorem named_beginReshaping (hs : supply.Covers g) : Named g (g.beginReshaping supply) where
  nonterminals := (List.append_nil _).symm
  fresh _ hA := absurd hA List.not_mem_nil
  nodup := List.nodup_nil
  registered s hs' := hs'.elim (hs.1 s) (hs.2 s)
  shape _ he := absurd he List.not_mem_nil
  meaning _ he := absurd he List.not_mem_nil
  declared _ he := absurd he List.not_mem_nil

theorem faithful_beginReshaping (hs : supply.Covers g) :
    Faithful g [] (g.beginReshaping supply) := by
  have hnames : (g.beginReshaping supply).names = [] := rfl
  have hnone (A : Symbol) (c : Body) : c ∉ (g.beginReshaping supply).rules.alternatives A := by
    intro hc
    exact Alternatives.not_mem_empty c (Rules.mem_alternatives_mapAlternatives.mp hc).2
  have hkeys (A : Symbol) : A ∈ (g.beginReshaping supply).rules.keys ↔ A ∈ g.rules.keys := by
    rw [Grammar.beginReshaping, Rules.mem_keys_mapAlternatives]
  exact { named_beginReshaping hs with
    taken := fun A hA => absurd hA List.not_mem_nil
    keys := fun A => by rw [hkeys, hnames, or_iff_left List.not_mem_nil]
    sound := fun A c hc => absurd hc (hnone A c)
    complete := fun A b hdue => by simp [Due, hnames] at hdue
    settled := fun A c hc => absurd hc (hnone A c)
    bodies := fun A c hc => absurd hc (hnone A c) }

theorem Faithful.addProductions (hg : g.Valid) (h : Faithful g done r)
    {ps : List (Symbol × Body)} (hps : ∀ p ∈ ps, p ∈ g.productions) :
    Faithful g (done ++ ps) (ps.foldl (fun r p => r.addProduction p.1 p.2) r) := by
  induction ps generalizing done r with
  | nil => rwa [List.append_nil]
  | cons p ps ih =>
    obtain ⟨hp, hps⟩ := List.forall_mem_cons.mp hps
    obtain ⟨hA, hb⟩ := Grammar.mem_productions.mp hp
    have hnext := ih (h.addProduction hg hA hb) hps
    rwa [List.append_assoc, List.singleton_append] at hnext

theorem reshaping_spec (hg : g.Valid) (hs : supply.Covers g) :
    Faithful g g.productions (g.reshaping supply) ∧ ∀ A, (g.reshaping supply).Lifted g A := by
  have hbinary := (faithful_beginReshaping hs).addProductions hg (fun _ hp => hp)
  obtain ⟨hf, hlift⟩ := hbinary.liftAll fun A hA => hA
  refine ⟨hf, fun A => hlift A (or_iff_not_imp_left.mpr fun hA c hc => ?_)⟩
  exact absurd (hbinary.mem_nonterminals_of_mem hg hc) hA

/-! ## The grammar that results -/

theorem mem_nonterminals_reshapedBy (h : Named g r) :
    A ∈ (g.reshapedBy r).nonterminals ↔ A ∈ g.nonterminals ∨ A ∈ r.names := by
  rw [← h.mem_nonterminals]
  exact mem_distinct

theorem Faithful.valid (hg : g.Valid) (h : Faithful g g.productions r) :
    (g.reshapedBy r).Valid where
  disjoint A hA := by
    obtain hA | hA := (mem_nonterminals_reshapedBy h.toNamed).mp hA
    · exact hg.disjoint A hA
    · exact (h.fresh A hA).2
  start_mem := (mem_nonterminals_reshapedBy h.toNamed).mpr (.inl hg.start_mem)
  lhs_mem A hA := by
    refine (mem_nonterminals_reshapedBy h.toNamed).mpr ?_
    exact ((h.keys A).mp hA).imp_left (hg.lhs_mem A)
  body_mem A c hc s hs := (h.bodies A c hc s hs).imp_left mem_distinct.mpr

theorem Faithful.covers (h : Faithful g done r) : r.supply.Covers (g.reshapedBy r) :=
  ⟨fun s hs => h.registered s (.inl (mem_distinct.mp hs)), fun s hs => h.registered s (.inr hs)⟩

/-- Words of what a symbol unfolds to are words of the symbol. -/
theorem Faithful.generates_of_unfold (h : Faithful g g.productions r)
    (hy : Yields (g.reshapedBy r) (r.unfold s) w) : (g.reshapedBy r).Generates s w := by
  -- By the length of what `s` unfolds to: a pair splits it into two parts that are not empty.
  induction hn : (r.unfold s).length using Nat.strongRecOn generalizing s w with
  | ind n ih =>
    by_cases hX : s ∈ r.names
    · obtain ⟨c, hc, hcs⟩ := h.complete s (r.unfold s) (.inr ⟨hX, rfl⟩)
      have hs : s ∈ (g.reshapedBy r).nonterminals :=
        (mem_nonterminals_reshapedBy h.toNamed).mpr (.inr hX)
      refine generates_of_body hs hc ?_
      rw [← hcs] at hy
      obtain hlen | ⟨-, heq⟩ := h.settled s c hc
      · match c, hlen with
        | [p, q], _ =>
          rw [unfoldBody_pair] at hy hcs
          have hlength := congrArg List.length hcs
          rw [List.length_append] at hlength
          have hp := List.length_pos_of_ne_nil (h.toNamed.unfold_ne_nil p)
          have hq := List.length_pos_of_ne_nil (h.toNamed.unfold_ne_nil q)
          obtain ⟨u, v, rfl, hu, hv⟩ := hy.split
          exact Yields.append (ih _ (by omega) hu rfl) (ih _ (by omega) hv rfl)
      · rwa [heq] at hy
    · rwa [unfold_of_notMem hX] at hy

/-- Every body of the grammar keeps its words. -/
theorem yields_reshapedBy_iff (h : Faithful g g.productions r)
    (hb : ∀ s ∈ b, s ∈ g.nonterminals ∨ s ∈ g.terminals) :
    Yields (g.reshapedBy r) b w ↔ Yields g b w := by
  constructor
  · intro hy
    rw [← h.toNamed.unfoldBody_eq_self hb]
    refine hy.substitute r.unfold (fun a ha => ?_) fun A hA c hc w hyc => ?_
    · rw [h.toNamed.unfold_terminal ha]
      exact .terminal ha .nil
    · obtain hdone | ⟨-, heq⟩ := h.sound A c hc
      · obtain ⟨hA, hbody⟩ := Grammar.mem_productions.mp hdone
        rw [h.toNamed.unfold_nonterminal hA]
        exact generates_of_body hA hbody hyc
      · exact heq ▸ hyc
  · refine Yields.mono (fun a (ha : a ∈ g.terminals) => ha) fun A hA c hc w hy => ?_
    obtain ⟨d, hd, hdc⟩ := h.complete A c (.inl (Grammar.mem_productions.mpr ⟨hA, hc⟩))
    refine generates_of_body ((mem_nonterminals_reshapedBy h.toNamed).mpr (.inl hA)) hd ?_
    rw [← hdc] at hy
    exact hy.of_substitute fun s _ u hu => h.generates_of_unfold hu

end Reshaping

end ContextFree
