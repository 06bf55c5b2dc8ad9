import ContextFree.Proofs.FirstFree
import ContextFree.Proofs.Reshape

/-!
Helpers are made once. A helper is made for a terminal that stands beside another symbol, or for a beginning
of a body: for the helper of the beginning before it, or the first symbol, with the symbol that follows. No
two are made for the same, and the second symbol of a body of two is never the helper of a beginning. Every
step of a reshaping keeps that (`Shared`), so it holds in the end (`shared_reshaping`).
-/
namespace ContextFree

namespace Grammar

/-- A beginning of a body, of two symbols at least and not the whole of it. -/
def IsBeginning (g : Grammar) (p : Body) : Prop :=
  ∃ A, ∃ b ∈ g.alternatives A, p <+: b ∧ 2 ≤ p.length ∧ p.length < b.length

/-- A terminal that occurs in a body of two symbols at least. -/
def IsAccompanied (g : Grammar) (a : Symbol) : Prop :=
  a ∈ g.terminals ∧ ∃ A, ∃ b ∈ g.alternatives A, 2 ≤ b.length ∧ a ∈ b

/-- What calls for a helper. -/
def helperMeanings (g : Grammar) : Set Body :=
  {p | g.IsBeginning p} ∪ {p | ∃ a, g.IsAccompanied a ∧ p = [a]}

end Grammar

namespace Reshaping

variable {g : Grammar} {r r' : Reshaping} {done : List (Symbol × Body)} {A X s x : Symbol}
  {b body c cs : Body} {supply : NameSupply}

/-- What a helper is made for. The first symbol of a pair is one of the grammar, or the helper of a shorter
beginning. -/
inductive MadeFor (g : Grammar) (r : Reshaping) : Body → Prop
  | terminal {a : Symbol} (ha : g.IsAccompanied a) : MadeFor g r [a]
  | beginning {x y : Symbol} (hx : r.unfold x = [x] ∨ 2 ≤ (r.unfold x).length)
      (hy : y ∈ g.nonterminals ∨ y ∈ g.terminals) (hp : g.IsBeginning (r.unfold x ++ [y])) :
      MadeFor g r [x, y]

/-- Names go to helpers alone, each helper is made for something of its own, and where a body has two
symbols the second one stands for a single symbol. -/
structure Shared (g : Grammar) (supply : NameSupply) (r : Reshaping) : Prop where
  allocated : r.supply.allocated = supply.allocated ++ r.names
  once : (r.helpers.map Prod.fst).Nodup
  made : ∀ p ∈ r.helpers, MadeFor g r p.1
  single : ∀ A x y, [x, y] ∈ r.rules.alternatives A → (r.unfold y).length = 1

theorem Named.unfold_own (h : Named g r) (hs : s ∈ g.nonterminals ∨ s ∈ g.terminals) :
    r.unfold s = [s] :=
  hs.elim h.unfold_nonterminal h.unfold_terminal

theorem Named.declared_own (h : Named g r) (hs : s ∈ g.nonterminals ∨ s ∈ g.terminals) :
    r.Declared g s :=
  hs.imp_left fun hs => h.mem_nonterminals.mpr (.inl hs)

/-! ## Making a helper -/

theorem MadeFor.extend (h : MadeFor g r body) (hext : Extends g r r')
    (hd : ∀ s ∈ body, r.Declared g s) : MadeFor g r' body := by
  cases h with
  | terminal ha => exact .terminal ha
  | beginning hx hy hp =>
    have hsame := hext.unfold _ (hd _ List.mem_cons_self)
    exact .beginning (hsame ▸ hx) hy (hsame ▸ hp)

theorem MadeFor.pairable (h : MadeFor g r body) (hd : ∀ s ∈ body, r.Declared g s) :
    Pairable g r body := by
  refine ⟨?_, hd⟩
  cases h with
  | terminal ha => exact .inr ⟨_, ha.1, rfl⟩
  | beginning => exact .inl rfl

/-- What a helper is made for calls for one. -/
theorem MadeFor.unfoldBody_mem (h : MadeFor g r body) (hn : Named g r) :
    r.unfoldBody body ∈ g.helperMeanings := by
  cases h with
  | terminal ha =>
    rw [unfoldBody, List.flatMap_singleton, hn.unfold_terminal ha.1]
    exact .inr ⟨_, ha, rfl⟩
  | beginning _ hy hp =>
    rw [unfoldBody_pair, hn.unfold_own hy]
    exact .inl hp

namespace Shared

theorem withHelper (h : Shared g supply r) (hf : Faithful g done r)
    (hd : ∀ s ∈ body, r.Declared g s) (hm : MadeFor g r body)
    (hnew : body ∉ r.helpers.map Prod.fst) : Shared g supply (r.withHelper body) := by
  have hext := hf.toNamed.extends_withHelper body
  constructor
  case allocated =>
    rw [names_withHelper, ← List.append_assoc, ← h.allocated]
    exact r.supply.allocated_allocate
  case once =>
    have hkeys : (r.withHelper body).helpers.map Prod.fst = r.helpers.map Prod.fst ++ [body] := by
      simp [Reshaping.withHelper]
    rw [hkeys]
    exact List.perm_append_comm.nodup_iff.mpr (List.nodup_cons.mpr ⟨hnew, h.once⟩)
  case made =>
    intro p hp
    obtain hp | rfl : p ∈ r.helpers ∨ p = (body, r.supply.allocate.1) := by
      simpa [Reshaping.withHelper] using hp
    · exact (h.made p hp).extend hext (hf.declared p hp)
    · exact hm.extend hext hd
  case single =>
    intro A x y hxy
    rw [Reshaping.withHelper, Rules.alternatives_insert] at hxy
    split at hxy
    · -- The second symbol of a pair with a helper is one of the grammar.
      obtain rfl : [x, y] = body := by simpa using hxy
      have hy : r.Declared g y := hd y (by simp)
      cases hm with
      | beginning _ hown _ => rw [hext.unfold y hy, hf.toNamed.unfold_own hown]; rfl
    · have hy : r.Declared g y := hf.bodies A _ hxy y (by simp)
      rw [hext.unfold y hy]
      exact h.single A x y hxy

theorem helper (h : Shared g supply r) (hf : Faithful g done r)
    (hd : ∀ s ∈ body, r.Declared g s) (hm : MadeFor g r body) :
    Shared g supply (r.helper body).2 := by
  obtain ⟨name, -, heq⟩ | ⟨hnew, heq⟩ := r.helper_cases body
  · rw [heq]
    exact h
  · rw [heq]
    exact h.withHelper hf hd hm hnew

theorem setRules {alts : Alternatives} (h : Shared g supply r)
    (hs : ∀ x y, [x, y] ∈ alts → (r.unfold y).length = 1) :
    Shared g supply { r with rules := r.rules.insert A alts } where
  allocated := h.allocated
  once := h.once
  made := by
    rintro ⟨key, name⟩ hp
    have hm : MadeFor g r key := h.made _ hp
    cases hm with
    | terminal ha => exact .terminal ha
    | beginning hx hy hb => exact .beginning hx hy hb
  single B x y hxy := by
    rw [Rules.alternatives_insert] at hxy
    split at hxy
    · exact hs x y hxy
    · exact h.single B x y hxy

theorem unfold_mem (h : Shared g supply r) (hn : Named g r) (hX : X ∈ r.names) :
    r.unfold X ∈ g.helperMeanings := by
  obtain ⟨p, hp, rfl⟩ := List.mem_map.mp hX
  rw [hn.meaning p hp]
  exact (h.made p hp).unfoldBody_mem hn

/-! ## Shortening -/

/-- A body is shortened from the left. `x` is its first symbol, or the helper of the beginning that has
been taken off, and `cs` is what is left of it. -/
theorem binarize (h : Shared g supply r) (hf : Faithful g done r)
    (hx : r.unfold x = [x] ∨ 2 ≤ (r.unfold x).length) (hxd : r.Declared g x)
    (hcs : ∀ s ∈ cs, s ∈ g.nonterminals ∨ s ∈ g.terminals)
    (hb : r.unfold x ++ cs ∈ g.alternatives A) :
    Shared g supply (Reshaping.binarize (x :: cs) r).2 ∧
      ∀ y z, (Reshaping.binarize (x :: cs) r).1 = [y, z] → z ∈ g.nonterminals ∨ z ∈ g.terminals := by
  induction cs generalizing x r with
  | nil =>
    rw [Reshaping.binarize]
    · exact ⟨h, fun y z heq => by cases heq⟩
    · simp
  | cons t rest ih =>
    obtain ⟨ht, hrest⟩ := List.forall_mem_cons.mp hcs
    cases rest with
    | nil =>
      rw [Reshaping.binarize]
      · refine ⟨h, fun y z heq => ?_⟩
        cases heq
        exact ht
      · simp
    | cons u rest =>
      have hd : ∀ s ∈ [x, t], r.Declared g s := by
        simpa using ⟨hxd, hf.toNamed.declared_own ht⟩
      have hlen : (r.unfold x).length ≠ 0 := fun h0 =>
        hf.toNamed.unfold_ne_nil x (List.length_eq_zero_iff.mp h0)
      have hmade : MadeFor g r [x, t] := by
        refine .beginning hx ht ⟨A, _, hb, ?_, ?_, ?_⟩
        · exact ⟨u :: rest, by simp⟩
        · simp only [List.length_append, List.length_singleton]
          omega
        · simp
      obtain ⟨hf', -, hname, hunfold⟩ := hf.helper (hmade.pairable hd)
      have hshared := h.helper hf hd hmade
      have hmeaning : (r.helper [x, t]).2.unfold (r.helper [x, t]).1 = r.unfold x ++ [t] := by
        rw [hunfold, unfoldBody_pair, hf.toNamed.unfold_own ht]
      rw [Reshaping.binarize]
      apply ih hshared hf' _ (.inl (hf'.mem_nonterminals.mpr (.inr hname))) hrest
      · rw [hmeaning]
        simpa using hb
      · right
        rw [hmeaning, List.length_append, List.length_singleton]
        omega

theorem addProduction (h : Shared g supply r) (hg : g.Valid) (hf : Faithful g done r)
    (hb : b ∈ g.alternatives A) : Shared g supply (r.addProduction A b) := by
  have hown := hg.body_mem A b hb
  have hbinary : Shared g supply (Reshaping.binarize b r).2 ∧ ∀ y z,
      (Reshaping.binarize b r).1 = [y, z] → z ∈ g.nonterminals ∨ z ∈ g.terminals := by
    cases b with
    | nil =>
      rw [Reshaping.binarize]
      · exact ⟨h, fun y z heq => by cases heq⟩
      · simp
    | cons x cs =>
      obtain ⟨hx, hcs⟩ := List.forall_mem_cons.mp hown
      have hself := hf.toNamed.unfold_own hx
      apply h.binarize hf (.inl hself) (hf.toNamed.declared_own hx) hcs
      rw [hself]
      exact hb
  have hdeclared : ∀ s ∈ b, r.Declared g s := fun s hs => hf.toNamed.declared_own (hown s hs)
  have hf' := (hf.binarize hdeclared).1
  apply hbinary.1.setRules
  intro y z hyz
  obtain hlast | hold := Alternatives.mem_insert.mp hyz
  · rw [hf'.toNamed.unfold_own (hbinary.2 y z hlast.symm)]
    rfl
  · exact hbinary.1.single A y z hold

theorem addProductions (h : Shared g supply r) (hg : g.Valid) (hf : Faithful g done r)
    {ps : List (Symbol × Body)} (hps : ∀ p ∈ ps, p ∈ g.productions) :
    Shared g supply (ps.foldl (fun r p => r.addProduction p.1 p.2) r) := by
  induction ps generalizing done r with
  | nil => exact h
  | cons p ps ih =>
    obtain ⟨hp, hps⟩ := List.forall_mem_cons.mp hps
    obtain ⟨hA, hb⟩ := Grammar.mem_productions.mp hp
    exact ih (h.addProduction hg hf hb) (hf.addProduction hg hA hb) hps

/-! ## Lifting terminals -/

/-- A terminal in a body of two symbols comes from a body of the grammar with two symbols at least. -/
theorem accompanied (h : Shared g supply r) (hf : Faithful g g.productions r)
    (hc : c ∈ r.rules.alternatives A) (htwo : c.length = 2) (hs : s ∈ c) (ht : s ∈ g.terminals) :
    g.IsAccompanied s := by
  have hlong := hf.toNamed.two_le_length_unfoldBody htwo
  have hmem : s ∈ r.unfoldBody c := by
    refine List.mem_flatMap.mpr ⟨s, hs, ?_⟩
    rw [hf.toNamed.unfold_terminal ht]
    exact List.mem_cons_self
  obtain hdone | ⟨hA, heq⟩ := hf.sound A c hc
  · exact ⟨ht, A, _, (Grammar.mem_productions.mp hdone).2, hlong, hmem⟩
  · rw [heq] at hlong hmem
    obtain ⟨B, b, hb, hprefix, -, hlt⟩ | ⟨a, ha, hsingle⟩ := h.unfold_mem hf.toNamed hA
    · exact ⟨ht, B, b, hb, by omega, hprefix.subset hmem⟩
    · rw [hsingle, List.mem_singleton] at hmem
      exact hmem ▸ ha

theorem liftSymbol (h : Shared g supply r) (hf : Faithful g done r) (hd : r.Declared g s)
    (ha : s ∈ g.terminals → g.IsAccompanied s) :
    Shared g supply (r.liftSymbol g.isTerminal s).2 := by
  unfold Reshaping.liftSymbol
  by_cases ht : s ∈ g.terminals
  · rw [if_pos (Grammar.isTerminal_iff.mpr ht)]
    exact h.helper hf (by simpa using hd) (.terminal (ha ht))
  · rw [if_neg (by simpa using ht)]
    exact h

theorem liftBody (h : Shared g supply r) (hf : Faithful g done r) (hd : ∀ s ∈ c, r.Declared g s)
    (ha : c.length = 2 → ∀ s ∈ c, s ∈ g.terminals → g.IsAccompanied s)
    (hs : ∀ x y, c = [x, y] → (r.unfold y).length = 1) :
    Shared g supply (r.liftBody g.isTerminal c).2 ∧ ∀ x y, (r.liftBody g.isTerminal c).1 = [x, y] →
      ((r.liftBody g.isTerminal c).2.unfold y).length = 1 := by
  unfold Reshaping.liftBody
  split
  · rename_i x y
    simp only [List.forall_mem_cons] at hd
    obtain ⟨hx, hy, -⟩ := hd
    obtain ⟨hf₁, hext₁, -, -, -⟩ := hf.liftSymbol hx
    have h₁ := h.liftSymbol hf hx (ha rfl x (by simp))
    obtain ⟨-, -, -, -, hsame⟩ := hf₁.liftSymbol (hext₁.declared hy)
    refine ⟨h₁.liftSymbol hf₁ (hext₁.declared hy) (ha rfl y (by simp)), fun _ _ heq => ?_⟩
    obtain ⟨-, hlast, -⟩ := List.cons_eq_cons.mp heq |>.imp_right List.cons_eq_cons.mp
    rw [← hlast, hsame, hext₁.unfold y hy]
    exact hs x y rfl
  · exact ⟨h, hs⟩

theorem liftBodies {bs : List Body} (h : Shared g supply r) (hf : Faithful g done r)
    (hd : ∀ c ∈ bs, ∀ s ∈ c, r.Declared g s)
    (ha : ∀ c ∈ bs, c.length = 2 → ∀ s ∈ c, s ∈ g.terminals → g.IsAccompanied s)
    (hs : ∀ x y, [x, y] ∈ bs → (r.unfold y).length = 1) :
    Shared g supply (r.liftBodies g.isTerminal bs).2 ∧
      ∀ x y, [x, y] ∈ (r.liftBodies g.isTerminal bs).1 →
        ((r.liftBodies g.isTerminal bs).2.unfold y).length = 1 := by
  induction bs generalizing r with
  | nil => exact ⟨h, by simp [Reshaping.liftBodies]⟩
  | cons c bs ih =>
    obtain ⟨hc, hbs⟩ := List.forall_mem_cons.mp hd
    obtain ⟨hac, habs⟩ := List.forall_mem_cons.mp ha
    obtain ⟨hf₁, hext₁, hlift⟩ := hf.liftBody hc
    obtain ⟨h₁, hs₁⟩ := h.liftBody hf hc hac fun x y heq => hs x y (heq ▸ List.mem_cons_self)
    have hd₁ : ∀ d ∈ bs, ∀ s ∈ d, (r.liftBody g.isTerminal c).2.Declared g s :=
      fun d hd s hs => hext₁.declared (hbs d hd s hs)
    have hrest : ∀ x y, [x, y] ∈ bs →
        ((r.liftBody g.isTerminal c).2.unfold y).length = 1 := by
      intro x y hxy
      rw [hext₁.unfold y (hbs _ hxy y (by simp))]
      exact hs x y (List.mem_cons_of_mem _ hxy)
    obtain ⟨h₂, hs₂⟩ := ih h₁ hf₁ hd₁ habs hrest
    obtain ⟨-, hext₂, -, -⟩ := hf₁.liftBodies hd₁
    refine ⟨h₂, fun x y hxy => ?_⟩
    obtain heq | hxy := List.mem_cons.mp hxy
    · have hhead : (r.liftBody g.isTerminal c).1 = [x, y] := heq.symm
      have hy : (r.liftBody g.isTerminal c).2.Declared g y := hlift.declared y (by simp [hhead])
      exact (congrArg List.length (hext₂.unfold y hy)).trans (hs₁ x y hhead)
    · exact hs₂ x y hxy

theorem liftAlternatives (h : Shared g supply r) (hf : Faithful g g.productions r) (A : Symbol) :
    Shared g supply (r.liftAlternatives g.isTerminal A) := by
  unfold Reshaping.liftAlternatives
  cases hget : r.rules.get? A with
  | none => exact h
  | some alts =>
    have hsorted (c : Body) : c ∈ alts.sorted ↔ c ∈ r.rules.alternatives A := by
      rw [Rules.alternatives, hget, Alternatives.mem_sorted]
      rfl
    have hd : ∀ c ∈ alts.sorted, ∀ s ∈ c, r.Declared g s :=
      fun c hc => hf.bodies A c ((hsorted c).mp hc)
    obtain ⟨h', hs'⟩ := h.liftBodies hf hd
      (fun c hc htwo s hs ht => h.accompanied hf ((hsorted c).mp hc) htwo hs ht)
      fun x y hxy => h.single A x y ((hsorted _).mp hxy)
    exact h'.setRules fun x y hxy => hs' x y (Alternatives.mem_ofList.mp hxy)

theorem liftAll {As : List Symbol} (h : Shared g supply r) (hf : Faithful g g.productions r)
    (hAs : ∀ A ∈ As, A ∈ r.nonterminals) :
    Shared g supply (As.foldl (fun r A => r.liftAlternatives g.isTerminal A) r) := by
  induction As generalizing r with
  | nil => exact h
  | cons A As ih =>
    obtain ⟨hA, hAs⟩ := List.forall_mem_cons.mp hAs
    obtain ⟨hf', hmono, -⟩ := hf.liftAlternatives hA
    exact ih (h.liftAlternatives hf A) hf' fun B hB => hmono B (hAs B hB)

end Shared

/-! ## The whole reshaping -/

theorem shared_beginReshaping (g : Grammar) (supply : NameSupply) :
    Shared g supply (g.beginReshaping supply) where
  allocated := (List.append_nil _).symm
  once := List.nodup_nil
  made _ hp := absurd hp List.not_mem_nil
  single A x y hxy := by
    have hnone := (Rules.mem_alternatives_mapAlternatives.mp hxy).2
    exact absurd hnone (Alternatives.not_mem_empty _)

theorem shared_reshaping (hg : g.Valid) (hs : supply.Covers g) :
    Shared g supply (g.reshaping supply) := by
  have hbegun := faithful_beginReshaping hs
  have hbinary := (shared_beginReshaping g supply).addProductions hg hbegun fun _ hp => hp
  have hfaithful := hbegun.addProductions hg fun _ hp => hp
  exact hbinary.liftAll hfaithful fun _ hA => hA

end Reshaping

end ContextFree
